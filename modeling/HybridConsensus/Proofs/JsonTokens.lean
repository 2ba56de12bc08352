import HybridConsensus.Json.Printer
import HybridConsensus.Json.Reader
import HybridConsensus.Proofs.HexDigits
import Mathlib.Data.List.Basic
import Mathlib.Tactic.Common

/-!
# Numbers and strings of a JSON text

A number has no mark at its end, so it is read to where it cannot go on, and it is read back if what
follows could not belong to it. A string ends at a quote, and no character is written with a bare
one.
-/

namespace HybridConsensus.Json

/-! ### Digits -/

/-- One or more digits. -/
def IsDigits (text : List Char) : Prop :=
  text ≠ [] ∧ ∀ character ∈ text, character.isDigit

/-- No character that `more` accepts comes next. -/
def StopsAt (more : Char → Bool) (rest : List Char) : Prop :=
  ∀ character ∈ rest.head?, more character = false

theorem stopsAt_nil {more : Char → Bool} : StopsAt more [] :=
  nofun

theorem stopsAt_cons_iff {more : Char → Bool} {character : Char} {rest : List Char} :
    StopsAt more (character :: rest) ↔ more character = false := by
  simp [StopsAt]

theorem stopsAt_append {more : Char → Bool} {text rest : List Char} (htext : StopsAt more text)
    (hrest : StopsAt more rest) : StopsAt more (text ++ rest) := by
  cases text with
  | nil => exact hrest
  | cons first others => exact htext

theorem StopsAt.mono {less more : Char → Bool} {rest : List Char} (h : StopsAt more rest)
    (hless : ∀ character, more character = false → less character = false) : StopsAt less rest :=
  fun character hcharacter => hless character (h character hcharacter)

theorem IsDigits.exists_cons {digits : List Char} (h : IsDigits digits) :
    ∃ first others, digits = first :: others ∧ first.isDigit := by
  cases digits with
  | nil => exact absurd rfl h.1
  | cons first others => exact ⟨first, others, rfl, h.2 first List.mem_cons_self⟩

theorem readDigits_append {digits rest : List Char} (hdigits : IsDigits digits)
    (hrest : StopsAt Char.isDigit rest) : readDigits (digits ++ rest) = some (digits, rest) := by
  have hstops : rest.takeWhile Char.isDigit = [] ∧ rest.dropWhile Char.isDigit = rest := by
    cases rest with
    | nil => exact ⟨rfl, rfl⟩
    | cons next rest => simp [stopsAt_cons_iff.mp hrest]
  rw [readDigits, List.takeWhile_append_of_pos hdigits.2, List.dropWhile_append_of_pos hdigits.2,
    hstops.1, hstops.2, List.append_nil]
  obtain ⟨first, others, rfl, -⟩ := hdigits.exists_cons
  rfl

/-! ### The parts of a number -/

/-- Digits with no zero in front that could be left out. -/
def IsWhole (whole : List Char) : Prop :=
  IsDigits whole ∧ (whole.head? = some '0' → whole = ['0'])

def IsFraction (fraction : List Char) : Prop :=
  fraction = [] ∨ ∃ digits, IsDigits digits ∧ fraction = '.' :: digits

def IsExponent (exponent : List Char) : Prop :=
  exponent = [] ∨ ∃ mark sign digits, (mark = 'e' ∨ mark = 'E') ∧
    (sign = [] ∨ sign = ['+'] ∨ sign = ['-']) ∧ IsDigits digits ∧
    exponent = mark :: (sign ++ digits)

/-- What digits can go on with, an exponent apart. -/
def isDigitOrPoint (character : Char) : Bool :=
  character.isDigit || character = '.'

/-- What a number can go on with. -/
def isNumeric (character : Char) : Bool :=
  isDigitOrPoint character || character = 'e' || character = 'E'

theorem StopsAt.digitOrPoint {rest : List Char} (h : StopsAt isNumeric rest) :
    StopsAt isDigitOrPoint rest :=
  h.mono fun _ hnumeric => by simp_all [isNumeric]

theorem StopsAt.digit {rest : List Char} (h : StopsAt isDigitOrPoint rest) :
    StopsAt Char.isDigit rest :=
  h.mono fun _ hpoint => by simp_all [isDigitOrPoint]

theorem IsFraction.stopsAt {fraction : List Char} (h : IsFraction fraction) :
    StopsAt Char.isDigit fraction := by
  rcases h with rfl | ⟨digits, -, rfl⟩
  · exact stopsAt_nil
  · exact stopsAt_cons_iff.mpr (by decide)

theorem IsExponent.stopsAt {exponent : List Char} (h : IsExponent exponent) :
    StopsAt isDigitOrPoint exponent := by
  rcases h with rfl | ⟨mark, sign, digits, rfl | rfl, -, -, rfl⟩
  · exact stopsAt_nil
  · exact stopsAt_cons_iff.mpr (by decide)
  · exact stopsAt_cons_iff.mpr (by decide)

theorem readWhole_append {whole rest : List Char} (hwhole : IsWhole whole)
    (hrest : StopsAt Char.isDigit rest) : readWhole (whole ++ rest) = some (whole, rest) := by
  obtain ⟨hdigits, hzero⟩ := hwhole
  unfold readWhole
  split
  · next heq =>
    obtain ⟨first, others, rfl, -⟩ := hdigits.exists_cons
    obtain ⟨rfl, rfl⟩ := List.cons.inj heq
    rw [List.cons.inj (hzero rfl) |>.2]
    rfl
  · exact readDigits_append hdigits hrest

theorem readFraction_append {fraction rest : List Char} (hfraction : IsFraction fraction)
    (hrest : StopsAt isDigitOrPoint rest) :
    readFraction (fraction ++ rest) = some (fraction, rest) := by
  rcases hfraction with rfl | ⟨digits, hdigits, rfl⟩
  · unfold readFraction
    split
    · next heq =>
      rw [List.nil_append] at heq
      rw [heq] at hrest
      cases stopsAt_cons_iff.mp hrest
    · rfl
  · rw [List.cons_append, readFraction, readDigits_append hdigits hrest.digit]
    rfl

theorem readSign_append {sign digits : List Char} (hsign : sign = [] ∨ sign = ['+'] ∨ sign = ['-'])
    (hdigits : IsDigits digits) (rest : List Char) :
    readSign (sign ++ (digits ++ rest)) = (sign, digits ++ rest) := by
  rcases hsign with rfl | rfl | rfl
  · obtain ⟨first, others, rfl, hfirst⟩ := hdigits.exists_cons
    unfold readSign
    split <;> simp_all
  · rfl
  · rfl

theorem readExponent_append {exponent rest : List Char} (hexponent : IsExponent exponent)
    (hrest : StopsAt isNumeric rest) :
    readExponent (exponent ++ rest) = some (exponent, rest) := by
  rcases hexponent with rfl | ⟨mark, sign, digits, hmark, hsign, hdigits, rfl⟩
  · cases rest with
    | nil => rfl
    | cons next rest =>
      have hnext := stopsAt_cons_iff.mp hrest
      simp only [isNumeric, Bool.or_eq_false_iff, decide_eq_false_iff_not] at hnext
      rw [List.nil_append, readExponent, if_neg (by tauto)]
  · rw [List.cons_append, List.append_assoc, readExponent, if_pos hmark,
      readSign_append hsign hdigits]
    simp only
    rw [readDigits_append hdigits hrest.digitOrPoint.digit]
    rfl

/-! ### Numbers -/

theorem readMagnitude_append (negative : Bool) {whole fraction exponent rest : List Char}
    (hwhole : IsWhole whole) (hfraction : IsFraction fraction) (hexponent : IsExponent exponent)
    (hrest : StopsAt isNumeric rest) :
    readMagnitude negative (whole ++ (fraction ++ (exponent ++ rest))) =
      some (if fraction.isEmpty && exponent.isEmpty then .integer negative (decimalValue whole)
        else .decimal (String.ofList
          ((if negative then ['-'] else []) ++ whole ++ fraction ++ exponent)), rest) := by
  have hpoint := stopsAt_append hexponent.stopsAt hrest.digitOrPoint
  have hdigit := stopsAt_append hfraction.stopsAt hpoint.digit
  unfold readMagnitude
  rw [readWhole_append hwhole hdigit]
  simp only [Option.bind_eq_bind, Option.bind_some]
  rw [readFraction_append hfraction hpoint]
  simp only [Option.bind_some]
  rw [readExponent_append hexponent hrest]
  simp only [Option.bind_some]
  split <;> rfl

/-- A sign in front is no digit. -/
theorem readNumber_append {negative : Bool} {whole : List Char} (hwhole : IsWhole whole)
    (rest : List Char) :
    readNumber ((if negative then ['-'] else []) ++ (whole ++ rest)) =
      readMagnitude negative (whole ++ rest) := by
  cases negative with
  | true => rfl
  | false =>
    obtain ⟨first, others, rfl, hfirst⟩ := hwhole.1.exists_cons
    simp only [Bool.false_eq_true, if_false, List.nil_append]
    unfold readNumber
    split <;> simp_all

theorem head?_toDigits_ne {value : Nat} (h : value ≠ 0) :
    (Nat.toDigits 10 value).head? ≠ some '0' := by
  induction value using Nat.strong_induction_on with
  | h value ih =>
    rw [Nat.toDigits_eq_if (by decide)]
    split
    · simpa using h
    · rw [List.head?_append_of_ne_nil _ Nat.toDigits_ne_nil]
      exact ih _ (by omega) (by omega)

theorem isWhole_toDigits (value : Nat) : IsWhole (Nat.toDigits 10 value) := by
  refine ⟨⟨Nat.toDigits_ne_nil, fun _ => Nat.isDigit_of_mem_toDigits (by decide) (by decide)⟩, ?_⟩
  intro hzero
  by_cases hvalue : value = 0
  · rw [hvalue, Nat.toDigits_zero]
  · exact absurd hzero (head?_toDigits_ne hvalue)

theorem decimalValue_toDigits (value : Nat) : decimalValue (Nat.toDigits 10 value) = value :=
  Nat.ofDigitChars_ten_toDigits

/-- A number that is written with a fraction or an exponent. -/
def IsDecimal (literal : String) : Prop :=
  ∃ negative : Bool, ∃ whole fraction exponent, IsWhole whole ∧ IsFraction fraction ∧
    IsExponent exponent ∧ ¬ (fraction = [] ∧ exponent = []) ∧
    literal.toList = (if negative then ['-'] else []) ++ (whole ++ (fraction ++ exponent))

theorem readNumber_integer {negative : Bool} {magnitude : Nat} {rest : List Char}
    (hrest : StopsAt isNumeric rest) :
    readNumber (writeInteger negative magnitude rest) =
      some (.integer negative magnitude, rest) := by
  have hwhole := isWhole_toDigits magnitude
  have hread := readMagnitude_append negative hwhole (.inl rfl) (.inl rfl) hrest
  have htext : writeInteger negative magnitude rest =
      (if negative then ['-'] else []) ++ (Nat.toDigits 10 magnitude ++ rest) := by
    cases negative <;> rfl
  rw [htext, readNumber_append hwhole]
  rw [decimalValue_toDigits] at hread
  exact hread

theorem readNumber_decimal {literal : String} {rest : List Char} (h : IsDecimal literal)
    (hrest : StopsAt isNumeric rest) :
    readNumber (literal.toList ++ rest) = some (.decimal literal, rest) := by
  obtain ⟨negative, whole, fraction, exponent, hwhole, hfraction, hexponent, hparts, hliteral⟩ := h
  rw [hliteral]
  simp only [List.append_assoc]
  rw [readNumber_append hwhole, readMagnitude_append _ hwhole hfraction hexponent hrest, if_neg]
  · rw [List.append_assoc, List.append_assoc, ← hliteral, String.ofList_toList]
  · simpa using hparts

/-! ### Strings -/

theorem charValue?_digitChar {value : Nat} (h : value < 16) :
    Hex.charValue? (Nat.digitChar value) = some value :=
  Hex.charValue?_eq_some_iff.mpr ⟨h, (Hex.toLower_digitChar ⟨value, h⟩).1⟩

/-- Four digits name a code. -/
theorem exists_digits_eq {code : Nat} (h : code < 0x10000) :
    ∃ first second third fourth, Hex.digits 4 code = [first, second, third, fourth] ∧
      code? first second third fourth = some code := by
  refine ⟨_, _, _, _, rfl, ?_⟩
  simp only [code?, charValue?_digitChar (Nat.mod_lt _ (by decide : 16 > 0)), Option.bind_eq_bind,
    Option.bind_some, Option.pure_def, Option.some.injEq]
  omega

/-- What is read of a string when `piece` has been read in front of it. -/
def addPiece (piece : Piece) (read : Option (List Piece × List Char)) :
    Option (List Piece × List Char) :=
  read.map fun (pieces, rest) => (piece :: pieces, rest)

theorem readPieces_short {mark value : Char} (hvalue : escaped? mark = some value)
    (rest : List Char) :
    readPieces ('\\' :: mark :: rest) = addPiece (.character value) (readPieces rest) := by
  have hmark : mark ≠ 'u' := by
    rintro rfl
    cases hvalue
  rw [readPieces.eq_def]
  split
  · simp_all
  · simp_all
  · simp_all
  · next heq =>
    obtain ⟨rfl, rfl⟩ := List.cons.inj (List.cons.inj heq).2
    rw [hvalue]
    cases readPieces rest <;> rfl
  · next hbackslash heq =>
    obtain ⟨rfl, rfl⟩ := List.cons.inj heq
    exact (hbackslash _ _ rfl rfl).elim

theorem readPieces_code {code : Nat} (h : code < 0x10000) (rest : List Char) :
    readPieces ('\\' :: 'u' :: (Hex.digits 4 code ++ rest)) =
      addPiece (.ofCode code) (readPieces rest) := by
  obtain ⟨first, second, third, fourth, hdigits, hcode⟩ := exists_digits_eq h
  rw [hdigits]
  rw [readPieces.eq_def]
  simp only [List.cons_append, List.nil_append, hcode]
  cases readPieces rest <;> rfl

theorem readPieces_plain {character : Char} (hquote : character ≠ '"')
    (hbackslash : character ≠ '\\') (hcontrol : ¬ character.toNat < 0x20) (rest : List Char) :
    readPieces (character :: rest) = addPiece (.character character) (readPieces rest) := by
  rw [readPieces.eq_def]
  split
  · simp_all
  · simp_all
  · simp_all
  · simp_all
  · next heq =>
    obtain ⟨rfl, rfl⟩ := List.cons.inj heq
    rw [if_neg hcontrol]
    cases readPieces _ <;> rfl

/-- A character is written by a short escape, by its code, or as it is. -/
theorem escape_cases (character : Char) :
    (∃ mark, escape character = ['\\', mark] ∧ escaped? mark = some character) ∨
    (escape character = '\\' :: 'u' :: Hex.digits 4 character.toNat ∧ character.toNat < 0x20) ∨
    (escape character = [character] ∧ character ≠ '"' ∧ character ≠ '\\' ∧
      ¬ character.toNat < 0x20) := by
  unfold escape
  split_ifs with hquote hbackslash hbackspace hfeed hline hreturn htab hcontrol
  iterate 7
    · subst_vars
      exact .inl ⟨_, rfl, rfl⟩
  · exact .inr (.inl ⟨rfl, hcontrol⟩)
  · exact .inr (.inr ⟨rfl, hquote, hbackslash, hcontrol⟩)

theorem readPieces_escape (character : Char) (rest : List Char) :
    readPieces (escape character ++ rest) =
      addPiece (.character character) (readPieces rest) := by
  rcases escape_cases character with ⟨mark, hescape, hmark⟩ | ⟨hescape, hcontrol⟩ |
    ⟨hescape, hquote, hbackslash, hcontrol⟩
  · rw [hescape]
    exact readPieces_short hmark rest
  · have hpiece : Piece.ofCode character.toNat = .character character := by
      rw [Piece.ofCode, if_neg (by omega), Char.ofNat_toNat]
    rw [hescape, ← hpiece]
    exact readPieces_code (by omega) rest
  · rw [hescape]
    exact readPieces_plain hquote hbackslash hcontrol rest

/-- The characters between the quotes. -/
def inner (text : Option String) : List Char :=
  match text with
  | some text => text.toList.flatMap escape
  | none => "\\ud800".toList

theorem writeString_eq (text : Option String) (rest : List Char) :
    writeString text rest = '"' :: (inner text ++ '"' :: rest) :=
  rfl

theorem readPieces_flatMap_escape (text rest : List Char) :
    readPieces (text.flatMap escape ++ '"' :: rest) = some (text.map .character, rest) := by
  induction text with
  | nil => rfl
  | cons character text ih =>
    rw [List.flatMap_cons, List.append_assoc, readPieces_escape, ih]
    rfl

theorem joinPieces_map_character (text : List Char) :
    joinPieces (text.map .character) = some text := by
  induction text with
  | nil => rfl
  | cons character text ih =>
    rw [List.map_cons, joinPieces, ih]
    rfl

/-- A string without a text is read back as one too, since half of a pair has none. -/
theorem readString_inner (text : Option String) (rest : List Char) :
    readString (inner text ++ '"' :: rest) = some (text, rest) := by
  cases text with
  | none =>
    have hcode := readPieces_code (by decide : 0xd800 < 0x10000) ('"' :: rest)
    have hinner : inner none ++ '"' :: rest =
        '\\' :: 'u' :: (Hex.digits 4 0xd800 ++ '"' :: rest) := rfl
    rw [readString, hinner, hcode]
    rfl
  | some text =>
    rw [readString, inner, readPieces_flatMap_escape]
    simp [joinPieces_map_character]

end HybridConsensus.Json
