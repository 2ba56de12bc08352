import HybridConsensus.Proofs.FixtureEntries
import HybridConsensus.Proofs.HexDigits

/-!
# What is read as compact bits

Bits are digits behind a marker and a plus sign, either of which may be left out. Their count says
nothing about their value, because zeros may stand in front, so the reader looks at the value after
each digit and stops where it no longer fits. A value that does not fit stays too large whatever
digits follow, and so the reader refuses just the numbers that do not fit as a whole.
-/

namespace HybridConsensus

open Hex

namespace CompactBits

/-- A text of bits and the numbers that its digits spell, highest first. -/
def Grammar (text : List Char) (values : List Nat) : Prop :=
  values ≠ [] ∧ ∃ marker sign digits, text = marker ++ sign ++ digits ∧
    (marker = [] ∨ marker = ['0', 'x']) ∧ (sign = [] ∨ sign = ['+']) ∧ Spells digits values

/-- The text behind one plus sign, if there is one. -/
def dropPlus : List Char → List Char
  | '+' :: rest => rest
  | text => text

/-! ### Digit by digit -/

theorem readDigit?_eq_some_iff {value longer : Nat} {character : Char} :
    ofHex?.readDigit? value character = some longer ↔
      ∃ digit, charValue? character = some digit ∧ longer = 16 * value + digit ∧
        longer < UInt32.size := by
  unfold ofHex?.readDigit?
  cases charValue? character with
  | none => simp
  | some digit =>
    simp only [Option.bind_eq_bind, Option.bind_some, Option.some.injEq,
      Option.ite_none_right_eq_some, exists_eq_left']
    constructor
    · rintro ⟨hfits, rfl⟩
      exact ⟨rfl, hfits⟩
    · rintro ⟨rfl, hfits⟩
      exact ⟨hfits, rfl⟩

/-- A value that does not fit grows with every digit. -/
theorem foldlM_readDigit?_eq_some_iff {digits : List Char} {start value : Nat}
    (hstart : start < UInt32.size) :
    digits.foldlM ofHex?.readDigit? start = some value ↔
      ∃ values, Spells digits values ∧
        value = Nat.ofDigits 16 values.reverse + 16 ^ values.length * start ∧
        value < UInt32.size := by
  induction digits generalizing start with
  | nil =>
    simp only [List.foldlM_nil, Option.pure_def, Option.some.injEq, spells_nil_iff, exists_eq_left,
      List.reverse_nil, Nat.ofDigits_nil, List.length_nil, pow_zero, Nat.one_mul, Nat.zero_add]
    exact ⟨fun h => ⟨h.symm, h ▸ hstart⟩, fun h => h.1.symm⟩
  | cons character rest ih =>
    rw [List.foldlM_cons]
    constructor
    · intro h
      obtain ⟨next, hnext, h⟩ := Option.bind_eq_some_iff.mp h
      obtain ⟨digit, hdigit, rfl, hfits⟩ := readDigit?_eq_some_iff.mp hnext
      obtain ⟨values, hspells, hvalue, hbound⟩ := (ih hfits).mp h
      refine ⟨digit :: values, spells_cons_iff.mpr ⟨hdigit, hspells⟩, ?_, hbound⟩
      rw [hvalue, Nat.ofDigits_reverse_cons, List.length_cons]
      ring
    · rintro ⟨values, hspells, hvalue, hbound⟩
      cases values with
      | nil => simp [Spells] at hspells
      | cons digit values =>
        obtain ⟨hdigit, hrest⟩ := spells_cons_iff.mp hspells
        have hnext : value =
            Nat.ofDigits 16 values.reverse + 16 ^ values.length * (16 * start + digit) := by
          rw [hvalue, Nat.ofDigits_reverse_cons, List.length_cons]
          ring
        have hfits : 16 * start + digit < UInt32.size := by
          refine Nat.lt_of_le_of_lt ?_ hbound
          rw [hnext]
          exact Nat.le_add_left_of_le (Nat.le_mul_of_pos_left _ (by positivity))
        have hread := readDigit?_eq_some_iff.mpr ⟨_, hdigit, rfl, hfits⟩
        refine Option.bind_eq_some_iff.mpr ⟨_, hread, ?_⟩
        exact (ih hfits).mpr ⟨values, hrest, hnext, hbound⟩

/-! ### Marker and sign -/

theorem exists_marker (text : List Char) :
    ∃ marker, (marker = [] ∨ marker = ['0', 'x']) ∧ text = marker ++ dropMarker text := by
  unfold dropMarker
  split
  · exact ⟨['0', 'x'], .inr rfl, rfl⟩
  · exact ⟨[], .inl rfl, rfl⟩

theorem exists_sign (text : List Char) :
    ∃ sign, (sign = [] ∨ sign = ['+']) ∧ text = sign ++ dropPlus text := by
  unfold dropPlus
  split
  · exact ⟨['+'], .inr rfl, rfl⟩
  · exact ⟨[], .inl rfl, rfl⟩

theorem dropPlus_of_spells {digits : List Char} {values : List Nat} (h : Spells digits values) :
    dropPlus digits = digits := by
  unfold dropPlus
  split
  · next rest =>
    cases values with
    | nil => simp [Spells] at h
    | cons value values =>
      have hplus : charValue? '+' = none := by decide
      have hvalue := (spells_cons_iff.mp h).1
      rw [hplus] at hvalue
      cases hvalue
  · rfl

/-- What follows the sign decides, since neither the marker nor the sign is made of digits. -/
theorem grammar_iff {text : List Char} {values : List Nat} :
    Grammar text values ↔ values ≠ [] ∧ Spells (dropPlus (dropMarker text)) values := by
  refine and_congr_right fun _ => ⟨?_, fun h => ?_⟩
  · rintro ⟨marker, sign, digits, rfl, hmarker, hsign, hspells⟩
    have hmarked : dropMarker (marker ++ sign ++ digits) = sign ++ digits := by
      rcases hmarker with rfl | rfl
      · rcases hsign with rfl | rfl
        · exact dropMarker_of_spells hspells
        · rfl
      · rfl
    have hsigned : dropPlus (sign ++ digits) = digits := by
      rcases hsign with rfl | rfl
      · exact dropPlus_of_spells hspells
      · rfl
    rwa [hmarked, hsigned]
  · obtain ⟨marker, hmarker, htext⟩ := exists_marker text
    obtain ⟨sign, hsign, hmarked⟩ := exists_sign (dropMarker text)
    refine ⟨marker, sign, _, ?_, hmarker, hsign, h⟩
    rw [List.append_assoc, ← hmarked, ← htext]

/-! ### The whole text -/

theorem ofHex?_eq (text : String) :
    ofHex? text = match dropPlus (dropMarker text.toList) with
      | [] => none
      | digits => (digits.foldlM ofHex?.readDigit? 0).map UInt32.ofNat :=
  rfl

theorem ofHex?_eq_some_iff {text : String} {bits : CompactBits} :
    ofHex? text = some bits ↔
      ∃ values, Grammar text.toList values ∧ Nat.ofDigits 16 values.reverse = bits.toNat := by
  rw [ofHex?_eq]
  simp only [grammar_iff]
  cases dropPlus (dropMarker text.toList) with
  | nil =>
    refine iff_of_false (by simp) ?_
    rintro ⟨values, ⟨hsome, hspells⟩, -⟩
    exact hsome (spells_nil_iff.mp hspells)
  | cons first rest =>
    simp only [Option.map_eq_some_iff]
    constructor
    · rintro ⟨value, hread, rfl⟩
      obtain ⟨values, hspells, hvalue, hfits⟩ :=
        (foldlM_readDigit?_eq_some_iff (by decide)).mp hread
      refine ⟨values, ⟨?_, hspells⟩, ?_⟩
      · rintro rfl
        simp [Spells] at hspells
      · rw [UInt32.toNat_ofNat_of_lt' hfits, hvalue, Nat.mul_zero, Nat.add_zero]
    · rintro ⟨values, ⟨-, hspells⟩, hvalue⟩
      refine ⟨bits.toNat, ?_, UInt32.ofNat_toNat⟩
      refine (foldlM_readDigit?_eq_some_iff (by decide)).mpr ⟨values, hspells, ?_, bits.toNat_lt⟩
      rw [hvalue, Nat.mul_zero, Nat.add_zero]

/-- A value that fits in 32 bits is that of some bits. -/
theorem exists_ofHex?_eq_some_iff {text : String} :
    (∃ bits, ofHex? text = some bits) ↔
      ∃ values, Grammar text.toList values ∧ Nat.ofDigits 16 values.reverse < 2 ^ 32 := by
  simp only [ofHex?_eq_some_iff]
  constructor
  · rintro ⟨bits, values, hgrammar, hvalue⟩
    exact ⟨values, hgrammar, hvalue ▸ bits.toNat_lt⟩
  · rintro ⟨values, hgrammar, hfits⟩
    exact ⟨UInt32.ofNat (Nat.ofDigits 16 values.reverse), values, hgrammar,
      (UInt32.toNat_ofNat_of_lt' hfits).symm⟩

/-! ### Eight digits -/

/-- The digits that show bits, in either case, spell their value. -/
theorem spells_of_toHex {bits : CompactBits} {digits : List Char}
    (h : digits.map Char.toLower = bits.toHex.toList) :
    ∃ values, values.length = 8 ∧ Spells digits values ∧
      Nat.ofDigits 16 values.reverse = bits.toNat := by
  refine ⟨(littleEndianBytes 4 bits.toNat).reverse.flatMap halves, ?_, ⟨flatMap_halves_lt, ?_⟩, ?_⟩
  · rw [length_flatMap_halves, List.length_reverse, length_littleEndianBytes]
  · rw [h, toHex, ofNat, String.toList_ofList, digits_eq 4, flatMap_ofByte]
  · rw [← littleEndian_eq_ofDigits_halves, littleEndian_littleEndianBytes]
    exact Nat.mod_eq_of_lt bits.toNat_lt

theorem grammar_of_spells {marker digits : List Char} {values : List Nat}
    (hmarker : marker = [] ∨ marker = ['0', 'x']) (hspells : Spells digits values)
    (hcount : values.length = 8) : Grammar (marker ++ digits) values := by
  refine ⟨?_, marker, [], digits, by simp, hmarker, .inl rfl, hspells⟩
  rintro rfl
  cases hcount

end CompactBits

namespace Fixture

/-- Bits are read from an optional marker, an optional plus sign and one or more digits of either
case whose value fits in 32 bits, however many zeros stand in front. Any other text is refused, and
the refusal names it. So bits are read back from their eight digits in either case, with the marker
or without it. -/
theorem parseBits_reads_grammar :
    (∀ text : String,
      ((∃ bits, parseBits text = .ok bits) ↔
        ∃ values, CompactBits.Grammar text.toList values ∧
          Nat.ofDigits 16 values.reverse < 2 ^ 32) ∧
      (∀ bits, parseBits text = .ok bits ↔
        ∃ values, CompactBits.Grammar text.toList values ∧
          Nat.ofDigits 16 values.reverse = bits.toNat) ∧
      (parseBits text = .error (.invalidBits text) ↔
        ¬ ∃ values, CompactBits.Grammar text.toList values ∧
          Nat.ofDigits 16 values.reverse < 2 ^ 32)) ∧
    ∀ (bits : CompactBits) (digits : String), digits.toList.map Char.toLower = bits.toHex.toList →
      parseBits digits = .ok bits ∧ parseBits ("0x" ++ digits) = .ok bits := by
  refine ⟨fun text => ⟨?_, ?_, ?_⟩, fun bits digits hdigits => ?_⟩
  · simp only [parseBits_eq_ok_iff]
    exact CompactBits.exists_ofHex?_eq_some_iff
  · intro bits
    rw [parseBits_eq_ok_iff]
    exact CompactBits.ofHex?_eq_some_iff
  · rw [parseBits_eq_error_iff, ← CompactBits.exists_ofHex?_eq_some_iff,
      Option.eq_none_iff_forall_ne_some]
    simp
  · obtain ⟨values, hcount, hspells, hvalue⟩ := CompactBits.spells_of_toHex hdigits
    simp only [parseBits_eq_ok_iff, CompactBits.ofHex?_eq_some_iff]
    constructor
    · exact ⟨values, CompactBits.grammar_of_spells (.inl rfl) hspells hcount, hvalue⟩
    · refine ⟨values, ?_, hvalue⟩
      rw [String.toList_append]
      exact CompactBits.grammar_of_spells (.inr rfl) hspells hcount

/-- Zeros in front do not count, and a value that no longer fits is refused at its last digit. -/
example : parseBits "0x+0000000001D00FFFF" = .ok 0x1d00ffff ∧
    parseBits "1d00ffff0" = .error (.invalidBits "1d00ffff0") := by
  decide +kernel

end Fixture

end HybridConsensus
