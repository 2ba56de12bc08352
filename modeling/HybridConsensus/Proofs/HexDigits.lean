import HybridConsensus.Hex
import HybridConsensus.Proofs.FirstFailure
import Mathlib.Data.Nat.Digits.Defs

/-!
# Hexadecimal digits

Bytes are read in pairs of digits, from the bytes of a text and not from its characters. For what is
a digit this makes no difference: a character beyond ASCII begins with a byte that is none. So what
is read is said of the characters, by the numbers below sixteen that they spell, and two numbers in
a row are the halves of a byte.
-/

namespace HybridConsensus

namespace Hex

/-- The text is the digits of these numbers, in either case. -/
def Spells (text : List Char) (values : List Nat) : Prop :=
  (∀ value ∈ values, value < 16) ∧ text.map Char.toLower = values.map Nat.digitChar

/-- The halves of a byte, the upper one first. -/
def halves (byte : UInt8) : List Nat :=
  [byte.toNat / 16, byte.toNat % 16]

/-! ### One digit -/

/-- The digits of either case are looked at one by one, and so is every other character here. -/
theorem charValue?_ascii : ∀ code : Fin 128, ∀ value : Fin 16,
    charValue? (Char.ofNat code) = some value.val ↔
      (Char.ofNat code).toLower = Nat.digitChar value := by
  decide

theorem toLower_digitChar : ∀ value : Fin 16,
    (Nat.digitChar value).toLower = Nat.digitChar value ∧ (Nat.digitChar value).toNat < 128 := by
  decide

theorem digitValue?_lt {byte : UInt8} {value : Nat} (h : digitValue? byte = some value) :
    value < 16 := by
  simp only [digitValue?] at h
  split_ifs at h <;> simp only [Option.some.injEq] at h <;> omega

theorem digitValue?_eq_none {byte : UInt8} (h : 128 ≤ byte.toNat) : digitValue? byte = none := by
  simp only [digitValue?]
  rw [if_neg (by omega), if_neg (by omega), if_neg (by omega)]

/-- Beyond ASCII there are no capitals to lower. -/
theorem toLower_of_le {character : Char} (h : 128 ≤ character.toNat) :
    character.toLower = character := by
  refine dif_neg ?_
  rintro ⟨-, hupper⟩
  have hcode : character.toNat ≤ 'Z'.val.toNat := hupper
  have hletter : 'Z'.val.toNat = 90 := by decide
  omega

theorem charValue?_eq_some_iff {character : Char} {value : Nat} :
    charValue? character = some value ↔ value < 16 ∧ character.toLower = Nat.digitChar value := by
  by_cases hascii : character.toNat < 128
  · have htable (hvalue : value < 16) :
        charValue? character = some value ↔ character.toLower = Nat.digitChar value := by
      simpa only [Char.ofNat_toNat] using charValue?_ascii ⟨_, hascii⟩ ⟨value, hvalue⟩
    constructor
    · intro h
      have hvalue : value < 16 := by
        rw [charValue?, if_pos hascii] at h
        exact digitValue?_lt h
      exact ⟨hvalue, (htable hvalue).mp h⟩
    · intro ⟨hvalue, h⟩
      exact (htable hvalue).mpr h
  · constructor
    · intro h
      rw [charValue?, if_neg hascii] at h
      cases h
    · intro ⟨hvalue, h⟩
      rw [toLower_of_le (by omega)] at h
      have hdigit := (toLower_digitChar ⟨value, hvalue⟩).2
      rw [← h] at hdigit
      exact absurd hdigit hascii

theorem spells_nil_iff {values : List Nat} : Spells [] values ↔ values = [] := by
  cases values <;> simp [Spells]

theorem spells_cons_iff {character : Char} {text : List Char} {value : Nat} {values : List Nat} :
    Spells (character :: text) (value :: values) ↔
      charValue? character = some value ∧ Spells text values := by
  rw [charValue?_eq_some_iff]
  simp only [Spells, List.forall_mem_cons, List.map_cons, List.cons.injEq]
  tauto

theorem spells_zero_cons_iff {digits : List Char} {values : List Nat} :
    Spells ('0' :: digits) values ↔ ∃ rest, values = 0 :: rest ∧ Spells digits rest := by
  have hzero : charValue? '0' = some 0 := by decide
  cases values with
  | nil => simp [Spells]
  | cons value values =>
    rw [spells_cons_iff, hzero]
    simp [eq_comm]

/-- What is printed spells what it was printed from. -/
theorem spells_map_digitChar {values : List Nat} (h : ∀ value ∈ values, value < 16) :
    Spells (values.map Nat.digitChar) values := by
  refine ⟨h, ?_⟩
  rw [List.map_map]
  exact List.map_congr_left fun value hvalue => (toLower_digitChar ⟨value, h value hvalue⟩).1

theorem dropMarker_of_spells {text : List Char} {values : List Nat} (h : Spells text values) :
    dropMarker text = text := by
  unfold dropMarker
  split
  · match values, h with
    | _ :: [], h => simp [Spells] at h
    | _ :: _ :: _, h =>
      have hmark := (spells_cons_iff.mp (spells_cons_iff.mp h).2).1
      have hno : charValue? 'x' = none := by decide
      rw [hno] at hmark
      cases hmark
  · rfl

/-! ### The bytes of a text -/

/-- A digit is one byte. Any other character has a first byte that is no digit. -/
theorem map_digitValue?_utf8EncodeChar (character : Char) :
    ∃ others, (String.utf8EncodeChar character).map digitValue? = charValue? character :: others ∧
      (charValue? character ≠ none → others = []) := by
  have hcode : character.val.toNat = character.toNat := rfl
  unfold String.utf8EncodeChar charValue?
  simp only [hcode]
  by_cases hascii : character.toNat < 128
  · rw [if_pos (by omega), if_pos hascii]
    exact ⟨[], rfl, fun _ => rfl⟩
  · rw [if_neg (by omega), if_neg hascii]
    split_ifs <;> refine ⟨_, congrArg₂ List.cons (digitValue?_eq_none ?_) rfl, by simp⟩ <;>
      rw [UInt8.toNat_ofNat'] <;> omega

theorem map_digitValue?_utf8Bytes_iff {text : List Char} {values : List Nat} :
    (utf8Bytes text).map digitValue? = values.map some ↔ Spells text values := by
  induction text generalizing values with
  | nil => rw [spells_nil_iff]; cases values <;> simp [utf8Bytes]
  | cons character rest ih =>
    obtain ⟨others, hbytes, hothers⟩ := map_digitValue?_utf8EncodeChar character
    rw [utf8Bytes, List.flatMap_cons, List.map_append, hbytes, List.cons_append]
    cases values with
    | nil => simp [Spells]
    | cons value values =>
      rw [spells_cons_iff, List.map_cons, List.cons.injEq, ← ih]
      refine and_congr_right fun hvalue => ?_
      rw [hothers (by rw [hvalue]; simp)]
      rfl

theorem Spells.length_utf8Bytes {text : List Char} {values : List Nat} (h : Spells text values) :
    (utf8Bytes text).length = values.length := by
  simpa using congrArg List.length (map_digitValue?_utf8Bytes_iff.mpr h)

/-! ### The halves of a byte -/

theorem halves_lt {byte : UInt8} {value : Nat} (h : value ∈ halves byte) : value < 16 := by
  have hbyte := byte.toNat_lt
  simp only [halves, List.mem_cons, List.not_mem_nil, or_false] at h
  omega

theorem flatMap_halves_lt {bytes : List UInt8} : ∀ value ∈ bytes.flatMap halves, value < 16 := by
  intro value h
  obtain ⟨byte, _, hvalue⟩ := List.mem_flatMap.mp h
  exact halves_lt hvalue

theorem length_flatMap_halves (bytes : List UInt8) :
    (bytes.flatMap halves).length = 2 * bytes.length := by
  induction bytes with
  | nil => rfl
  | cons byte rest ih =>
    simp only [List.flatMap_cons, List.length_append, ih, List.length_cons, halves, List.length_nil]
    omega

theorem halves_ofNat_pair {upper lower : Nat} (hupper : upper < 16) (hlower : lower < 16) :
    halves (UInt8.ofNat (16 * upper + lower)) = [upper, lower] := by
  have hbyte : (UInt8.ofNat (16 * upper + lower)).toNat = 16 * upper + lower := by
    rw [UInt8.toNat_ofNat']; omega
  have hdiv : (16 * upper + lower) / 16 = upper := by omega
  have hmod : (16 * upper + lower) % 16 = lower := by omega
  rw [halves, hbyte, hdiv, hmod]

theorem ofNat_halves (byte : UInt8) :
    UInt8.ofNat (16 * (byte.toNat / 16) + byte.toNat % 16) = byte := by
  rw [Nat.div_add_mod, UInt8.ofNat_toNat]

theorem exists_flatMap_halves : ∀ {values : List Nat}, (∀ value ∈ values, value < 16) →
    values.length % 2 = 0 → ∃ bytes : List UInt8, bytes.flatMap halves = values
  | [], _, _ => ⟨[], rfl⟩
  | [_], _, hcount => by simp at hcount
  | upper :: lower :: rest, hvalues, hcount => by
    simp only [List.forall_mem_cons] at hvalues
    obtain ⟨hupper, hlower, hrest⟩ := hvalues
    simp only [List.length_cons] at hcount
    obtain ⟨bytes, hbytes⟩ := exists_flatMap_halves hrest (by omega)
    refine ⟨UInt8.ofNat (16 * upper + lower) :: bytes, ?_⟩
    rw [List.flatMap_cons, halves_ofNat_pair hupper hlower, hbytes]
    rfl

theorem littleEndian_eq_ofDigits_halves (bytes : List UInt8) :
    littleEndian bytes = Nat.ofDigits 16 (bytes.reverse.flatMap halves).reverse := by
  rw [List.reverse_flatMap, List.reverse_reverse]
  induction bytes with
  | nil => rfl
  | cons byte rest ih =>
    rw [littleEndian, ih]
    simp only [List.flatMap_cons, Function.comp_apply, halves, List.reverse_cons, List.reverse_nil,
      List.nil_append, List.cons_append, Nat.ofDigits_cons]
    omega

/-! ### Reading pairs -/

theorem readDigit_eq_ok_iff {position value : Nat} {byte : UInt8} :
    readDigit position byte = .ok value ↔ digitValue? byte = some value := by
  unfold readDigit
  split <;> simp [*]

/-- A pair of digits is read as the byte whose halves they are. -/
theorem readPairs_cons_eq_ok_iff {position : Nat} {high low : UInt8} {rest bytes : List UInt8} :
    readPairs position (high :: low :: rest) = .ok bytes ↔
      ∃ byte others, bytes = byte :: others ∧
        [digitValue? high, digitValue? low] = (halves byte).map some ∧
        readPairs (position + 2) rest = .ok others := by
  rw [readPairs]
  constructor
  · intro h
    obtain ⟨upper, hupper, h⟩ := bind_eq_ok_iff.mp h
    obtain ⟨lower, hlower, h⟩ := bind_eq_ok_iff.mp h
    obtain ⟨others, hothers, h⟩ := bind_eq_ok_iff.mp h
    rw [readDigit_eq_ok_iff] at hupper hlower
    refine ⟨_, others, (Except.ok.inj h).symm, ?_, hothers⟩
    rw [halves_ofNat_pair (digitValue?_lt hupper) (digitValue?_lt hlower), hupper, hlower]
    rfl
  · rintro ⟨byte, others, rfl, hpair, hrest⟩
    simp only [halves, List.map_cons, List.map_nil, List.cons.injEq, and_true] at hpair
    obtain ⟨hhigh, hlow⟩ := hpair
    rw [readDigit_eq_ok_iff.mpr hhigh, readDigit_eq_ok_iff.mpr hlow, hrest]
    exact congrArg (fun head => Except.ok (head :: others)) (ofNat_halves byte)

theorem readPairs_eq_ok_iff {position : Nat} {digits bytes : List UInt8}
    (heven : digits.length % 2 = 0) :
    readPairs position digits = .ok bytes ↔
      digits.map digitValue? = (bytes.flatMap halves).map some := by
  match digits with
  | [] => cases bytes <;> simp [readPairs, halves]
  | [_] => simp at heven
  | high :: low :: rest =>
    have hrest : rest.length % 2 = 0 := by simp only [List.length_cons] at heven; omega
    rw [readPairs_cons_eq_ok_iff]
    cases bytes with
    | nil => simp
    | cons byte others =>
      have ih := @readPairs_eq_ok_iff (position + 2) rest others hrest
      simp [halves, ih, and_assoc]

/-- The bytes read are those whose halves the text spells. -/
theorem toBytes_eq_ok_iff {text : List Char} {bytes : List UInt8} :
    toBytes text = .ok bytes ↔ Spells text (bytes.flatMap halves) := by
  rw [← map_digitValue?_utf8Bytes_iff]
  by_cases hodd : (utf8Bytes text).length % 2 = 1
  · rw [toBytes, if_pos hodd]
    refine iff_of_false (by simp) fun hmap => ?_
    have hcount := congrArg List.length hmap
    rw [List.length_map, List.length_map, length_flatMap_halves] at hcount
    omega
  · rw [toBytes, if_neg hodd]
    exact readPairs_eq_ok_iff (by omega)

/-! ### Printing -/

theorem flatMap_ofByte (bytes : List UInt8) :
    bytes.flatMap ofByte = (bytes.flatMap halves).map Nat.digitChar := by
  rw [List.map_flatMap]
  rfl

theorem digits_eq (count value : Nat) :
    digits (2 * count) value = (littleEndianBytes count value).reverse.flatMap ofByte := by
  induction count generalizing value with
  | zero => rfl
  | succ count ih =>
    have hupper : value % 2 ^ 8 / 16 = value / 16 % 16 := by omega
    have hlower : value % 2 ^ 8 % 16 = value % 16 := by omega
    rw [Nat.mul_succ, digits, digits, Nat.div_div_eq_div_mul, ih, littleEndianBytes,
      List.reverse_cons, List.flatMap_append, List.flatMap_singleton, ofByte, UInt8.toNat_ofNat',
      hupper, hlower, List.append_assoc]
    rfl

end Hex

end HybridConsensus
