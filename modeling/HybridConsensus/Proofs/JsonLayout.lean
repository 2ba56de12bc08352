import HybridConsensus.Proofs.JsonTokens
import Mathlib.Data.List.TakeWhile

/-!
# The layouts of a JSON text

A text may have blanks between its tokens, and a layout says which. The compact and the pretty form
are two layouts of one text, and a value is read back from any of them. The reader takes two steps
of fuel for each nested value, and a value is at least one character long.
-/

namespace HybridConsensus.Json

/-! ### Blanks -/

/-- The blanks in front of what begins a line at a depth, and between a name and its value. -/
structure Layout where
  lineBreak : Nat → List Char
  gap : List Char
  isBlank_lineBreak : ∀ depth, ∀ character ∈ lineBreak depth, isBlank character
  isBlank_gap : ∀ character ∈ gap, isBlank character

namespace Layout

def compact : Layout where
  lineBreak _ := []
  gap := []
  isBlank_lineBreak := nofun
  isBlank_gap := nofun

def pretty : Layout where
  lineBreak depth := newLine depth []
  gap := [' ']
  isBlank_lineBreak depth character hcharacter := by
    simp only [newLine, List.append_nil, List.mem_cons, List.mem_replicate] at hcharacter
    rcases hcharacter with rfl | ⟨-, rfl⟩ <;> rfl
  isBlank_gap := by simp [isBlank]

variable (layout : Layout) (depth : Nat)

mutual

/-- The text of a value at a depth. -/
def text (depth : Nat) : Json → List Char
  | .null => ['n', 'u', 'l', 'l']
  | .bool true => ['t', 'r', 'u', 'e']
  | .bool false => ['f', 'a', 'l', 's', 'e']
  | .integer negative magnitude => writeInteger negative magnitude []
  | .decimal literal => literal.toList
  | .string text => writeString text []
  | .array [] => ['[', ']']
  | .array (item :: items) =>
    '[' :: (layout.lineBreak (depth + 1) ++ text (depth + 1) item ++
      itemsText (depth + 1) items ++ layout.lineBreak depth ++ [']'])
  | .object [] => ['{', '}']
  | .object ((name, value) :: members) =>
    '{' :: (layout.lineBreak (depth + 1) ++ writeString name [] ++ ':' :: layout.gap ++
      text (depth + 1) value ++ membersText (depth + 1) members ++ layout.lineBreak depth ++ ['}'])

def itemsText (depth : Nat) : List Json → List Char
  | [] => []
  | item :: items =>
    ',' :: (layout.lineBreak depth ++ text depth item ++ itemsText depth items)

def membersText (depth : Nat) : List (Option String × Json) → List Char
  | [] => []
  | (name, value) :: members =>
    ',' :: (layout.lineBreak depth ++ writeString name [] ++ ':' :: layout.gap ++
      text depth value ++ membersText depth members)

end

end Layout

open Layout

/-! ### The two printers -/

theorem writeInteger_append (negative : Bool) (magnitude : Nat) (rest : List Char) :
    writeInteger negative magnitude rest = writeInteger negative magnitude [] ++ rest := by
  cases negative <;> simp [writeInteger, writeNat]

theorem writeString_append (text : Option String) (rest : List Char) :
    writeString text rest = writeString text [] ++ rest := by
  simp [writeString_eq]

theorem newLine_append (depth : Nat) (rest : List Char) :
    newLine depth rest = newLine depth [] ++ rest := by
  simp [newLine]

mutual

theorem write_eq (depth : Nat) : ∀ (json : Json) (rest : List Char),
    write json rest = compact.text depth json ++ rest
  | .null, _ => rfl
  | .bool true, _ => rfl
  | .bool false, _ => rfl
  | .integer negative magnitude, rest => writeInteger_append negative magnitude rest
  | .decimal _, _ => rfl
  | .string text, rest => writeString_append text rest
  | .array [], _ => rfl
  | .array (item :: items), rest => by
    rw [write, write_eq (depth + 1) item, writeItems_eq (depth + 1) items]
    simp [Layout.text, compact]
  | .object [], _ => rfl
  | .object ((name, value) :: members), rest => by
    rw [write, writeString_append, write_eq (depth + 1) value, writeMembers_eq (depth + 1) members]
    simp [Layout.text, compact]

theorem writeItems_eq (depth : Nat) : ∀ (items : List Json) (rest : List Char),
    writeItems items rest = compact.itemsText depth items ++ rest
  | [], _ => rfl
  | item :: items, rest => by
    rw [writeItems, write_eq depth item, writeItems_eq depth items]
    simp [itemsText, compact]

theorem writeMembers_eq (depth : Nat) :
    ∀ (members : List (Option String × Json)) (rest : List Char),
      writeMembers members rest = compact.membersText depth members ++ rest
  | [], _ => rfl
  | (name, value) :: members, rest => by
    rw [writeMembers, writeString_append, write_eq depth value, writeMembers_eq depth members]
    simp [membersText, compact]

end

mutual

theorem writePretty_eq (depth : Nat) : ∀ (json : Json) (rest : List Char),
    writePretty depth json rest = pretty.text depth json ++ rest
  | .null, _ => rfl
  | .bool true, _ => rfl
  | .bool false, _ => rfl
  | .integer negative magnitude, rest => writeInteger_append negative magnitude rest
  | .decimal _, _ => rfl
  | .string text, rest => writeString_append text rest
  | .array [], _ => rfl
  | .array (item :: items), rest => by
    rw [writePretty, newLine_append (depth + 1), newLine_append depth,
      writePretty_eq (depth + 1) item, writePrettyItems_eq (depth + 1) items]
    simp [Layout.text, pretty]
  | .object [], _ => rfl
  | .object ((name, value) :: members), rest => by
    rw [writePretty, newLine_append (depth + 1), newLine_append depth, writeString_append,
      writePretty_eq (depth + 1) value, writePrettyMembers_eq (depth + 1) members]
    simp [Layout.text, pretty]

theorem writePrettyItems_eq (depth : Nat) : ∀ (items : List Json) (rest : List Char),
    writePrettyItems depth items rest = pretty.itemsText depth items ++ rest
  | [], _ => rfl
  | item :: items, rest => by
    rw [writePrettyItems, newLine_append, writePretty_eq depth item,
      writePrettyItems_eq depth items]
    simp [itemsText, pretty]

theorem writePrettyMembers_eq (depth : Nat) :
    ∀ (members : List (Option String × Json)) (rest : List Char),
      writePrettyMembers depth members rest = pretty.membersText depth members ++ rest
  | [], _ => rfl
  | (name, value) :: members, rest => by
    rw [writePrettyMembers, newLine_append, writeString_append, writePretty_eq depth value,
      writePrettyMembers_eq depth members]
    simp [membersText, pretty]

end

theorem toList_print (json : Json) : (print json).toList = compact.text 0 json := by
  rw [print, String.toList_ofList, write_eq 0, List.append_nil]

theorem toList_printPretty (json : Json) : (printPretty json).toList = pretty.text 0 json := by
  rw [printPretty, String.toList_ofList, writePretty_eq, List.append_nil]

/-! ### Values that can be written -/

/-- Each number with a fraction or an exponent is one. -/
inductive WellFormed : Json → Prop
  | null : WellFormed .null
  | bool (value : Bool) : WellFormed (.bool value)
  | integer (negative : Bool) (magnitude : Nat) : WellFormed (.integer negative magnitude)
  | decimal {literal : String} (h : IsDecimal literal) : WellFormed (.decimal literal)
  | string (text : Option String) : WellFormed (.string text)
  | array {items : List Json} (h : ∀ item ∈ items, WellFormed item) : WellFormed (.array items)
  | object {members : List (Option String × Json)} (h : ∀ member ∈ members, WellFormed member.2) :
    WellFormed (.object members)

/-! ### Reading -/

theorem skipBlanks_append {blanks : List Char} (h : ∀ character ∈ blanks, isBlank character)
    (rest : List Char) : skipBlanks (blanks ++ rest) = skipBlanks rest :=
  List.dropWhile_append_of_pos h

theorem skipBlanks_cons {character : Char} (h : isBlank character = false) (rest : List Char) :
    skipBlanks (character :: rest) = character :: rest :=
  List.dropWhile_cons_of_neg (by rw [h]; simp)

theorem readValue_append_blanks {blanks : List Char}
    (h : ∀ character ∈ blanks, isBlank character) (fuel : Nat) (rest : List Char) :
    readValue fuel (blanks ++ rest) = readValue fuel rest := by
  cases fuel with
  | zero => rfl
  | succ fuel => rw [readValue, readValue, skipBlanks_append h]

/-- A text that a number can begin. -/
def StartsNumber (text : List Char) : Prop :=
  ∃ first rest, text = first :: rest ∧ (first = '-' ∨ first.isDigit)

theorem isBlank_eq_false_of_isDigit {character : Char} (h : character.isDigit) :
    isBlank character = false := by
  unfold isBlank
  simp
  refine ⟨⟨⟨?_, ?_⟩, ?_⟩, ?_⟩ <;> rintro rfl <;> cases h

theorem readValue_of_startsNumber {text : List Char} (h : StartsNumber text) (fuel : Nat) :
    readValue (fuel + 1) text = readNumber text := by
  obtain ⟨first, rest, rfl, hfirst⟩ := h
  have hblank : isBlank first = false := by
    rcases hfirst with rfl | hdigit
    · rfl
    · exact isBlank_eq_false_of_isDigit hdigit
  rw [readValue, skipBlanks_cons hblank]
  split <;> simp_all

theorem isNumeric_eq_false_of_isBlank {character : Char} (h : isBlank character) :
    isNumeric character = false := by
  simp only [isBlank, Bool.or_eq_true, decide_eq_true_eq] at h
  rcases h with ((rfl | rfl) | rfl) | rfl <;> decide

/-- A number goes on neither with blanks nor with a bracket behind them. -/
theorem stopsAt_append_cons {blanks : List Char} (h : ∀ character ∈ blanks, isBlank character)
    {character : Char} (hcharacter : isNumeric character = false) (rest : List Char) :
    StopsAt isNumeric (blanks ++ character :: rest) := by
  refine stopsAt_append (fun first hfirst => ?_) (stopsAt_cons_iff.mpr hcharacter)
  exact isNumeric_eq_false_of_isBlank (h first (List.mem_of_mem_head? hfirst))

theorem readItems_append_blanks {blanks : List Char}
    (h : ∀ character ∈ blanks, isBlank character) (fuel : Nat) (rest : List Char) :
    readItems fuel (blanks ++ rest) = readItems fuel rest := by
  cases fuel with
  | zero => rfl
  | succ fuel => rw [readItems, readItems, readValue_append_blanks h]

theorem readMembers_append_blanks {blanks : List Char}
    (h : ∀ character ∈ blanks, isBlank character) (fuel : Nat) (rest : List Char) :
    readMembers fuel (blanks ++ rest) = readMembers fuel rest := by
  cases fuel with
  | zero => rfl
  | succ fuel => rw [readMembers, readMembers, skipBlanks_append h]

/-- The text of the value is read as the value wherever it stands, with two steps of fuel for each
of its characters. -/
def ReadsBack (layout : Layout) (json : Json) : Prop :=
  ∀ depth fuel rest, 2 * (layout.text depth json).length ≤ fuel → StopsAt isNumeric rest →
    readValue fuel (layout.text depth json ++ rest) = some (json, rest)

variable {layout : Layout} {depth : Nat}

theorem readItems_text {item : Json} {items : List Json} (hitem : ReadsBack layout item)
    (hitems : ∀ item ∈ items, ReadsBack layout item) {blanks : List Char}
    (hblanks : ∀ character ∈ blanks, isBlank character) {fuel : Nat}
    (hfuel : 2 * ((layout.text depth item).length + (layout.itemsText depth items).length) < fuel)
    (rest : List Char) :
    readItems fuel
        (layout.text depth item ++ (layout.itemsText depth items ++ (blanks ++ ']' :: rest))) =
      some (item :: items, rest) := by
  induction items generalizing item fuel with
  | nil =>
    obtain ⟨fuel, rfl⟩ := Nat.exists_eq_add_one_of_ne_zero (Nat.ne_zero_of_lt hfuel)
    have hstops := stopsAt_append_cons hblanks (by decide : isNumeric ']' = false) rest
    rw [readItems, itemsText, List.nil_append, hitem depth fuel _ (by omega) hstops]
    simp only [Option.bind_eq_bind, Option.bind_some]
    rw [skipBlanks_append hblanks, skipBlanks_cons rfl]
    rfl
  | cons next items ih =>
    obtain ⟨fuel, rfl⟩ := Nat.exists_eq_add_one_of_ne_zero (Nat.ne_zero_of_lt hfuel)
    simp only [List.forall_mem_cons] at hitems
    rw [itemsText, List.length_cons, List.length_append, List.length_append] at hfuel
    rw [readItems, itemsText, List.cons_append,
      hitem depth fuel _ (by omega) (stopsAt_cons_iff.mpr rfl)]
    simp only [Option.bind_eq_bind, Option.bind_some]
    rw [skipBlanks_cons rfl]
    simp only [List.append_assoc]
    rw [readItems_append_blanks (layout.isBlank_lineBreak depth),
      ih hitems.1 hitems.2 (by omega)]
    rfl

theorem readMembers_member {name : Option String} {value : Json} (hvalue : ReadsBack layout value)
    {fuel : Nat} (hfuel : 2 * (layout.text depth value).length ≤ fuel) {tail : List Char}
    (htail : StopsAt isNumeric tail) :
    readMembers (fuel + 1)
        (writeString name [] ++ ':' :: (layout.gap ++ (layout.text depth value ++ tail))) =
      match skipBlanks tail with
      | ',' :: rest => do
        let (members, rest) ← readMembers fuel rest
        return ((name, value) :: members, rest)
      | '}' :: rest => some ([(name, value)], rest)
      | _ => none := by
  rw [readMembers, ← writeString_append, writeString_eq, skipBlanks_cons rfl]
  simp only
  rw [readString_inner]
  simp only [Option.bind_eq_bind, Option.bind_some]
  rw [skipBlanks_cons rfl]
  simp only
  rw [readValue_append_blanks layout.isBlank_gap, hvalue depth fuel tail hfuel htail]
  rfl

theorem readMembers_text {name : Option String} {value : Json}
    {members : List (Option String × Json)} (hvalue : ReadsBack layout value)
    (hmembers : ∀ member ∈ members, ReadsBack layout member.2) {blanks : List Char}
    (hblanks : ∀ character ∈ blanks, isBlank character) {fuel : Nat}
    (hfuel : 2 * ((layout.text depth value).length + (layout.membersText depth members).length) <
      fuel) (rest : List Char) :
    readMembers fuel (writeString name [] ++ ':' :: (layout.gap ++ (layout.text depth value ++
        (layout.membersText depth members ++ (blanks ++ '}' :: rest))))) =
      some ((name, value) :: members, rest) := by
  induction members generalizing name value fuel with
  | nil =>
    obtain ⟨fuel, rfl⟩ := Nat.exists_eq_add_one_of_ne_zero (Nat.ne_zero_of_lt hfuel)
    have hstops := stopsAt_append_cons hblanks (by decide : isNumeric '}' = false) rest
    rw [membersText, List.nil_append, readMembers_member hvalue (by omega) hstops,
      skipBlanks_append hblanks, skipBlanks_cons rfl]
    rfl
  | cons next members ih =>
    obtain ⟨fuel, rfl⟩ := Nat.exists_eq_add_one_of_ne_zero (Nat.ne_zero_of_lt hfuel)
    obtain ⟨nextName, nextValue⟩ := next
    simp only [List.forall_mem_cons] at hmembers
    simp only [membersText, List.length_cons, List.length_append, List.cons_append] at hfuel ⊢
    rw [readMembers_member hvalue (by omega) (stopsAt_cons_iff.mpr rfl), skipBlanks_cons rfl]
    simp only [List.append_assoc, List.cons_append]
    rw [readMembers_append_blanks (layout.isBlank_lineBreak depth),
      ih hmembers.1 hmembers.2 (by omega)]
    rfl

/-! ### The whole value -/

theorem startsNumber_writeInteger (negative : Bool) (magnitude : Nat) (rest : List Char) :
    StartsNumber (writeInteger negative magnitude rest) := by
  cases negative with
  | true => exact ⟨'-', _, rfl, .inl rfl⟩
  | false =>
    obtain ⟨first, others, hdigits, hfirst⟩ := (isWhole_toDigits magnitude).1.exists_cons
    exact ⟨first, others ++ rest, by simp [writeInteger, writeNat, hdigits], .inr hfirst⟩

theorem startsNumber_decimal {literal : String} (h : IsDecimal literal) (rest : List Char) :
    StartsNumber (literal.toList ++ rest) := by
  obtain ⟨negative, whole, fraction, exponent, hwhole, -, -, -, hliteral⟩ := h
  cases negative with
  | true => exact ⟨'-', _, by rw [hliteral]; rfl, .inl rfl⟩
  | false =>
    obtain ⟨first, others, rfl, hfirst⟩ := hwhole.1.exists_cons
    exact ⟨first, _, by rw [hliteral]; rfl, .inr hfirst⟩

/-- No item begins with a closing bracket. -/
theorem skipBlanks_ne_of_readItems {fuel : Nat} {text : List Char} {read : List Json × List Char}
    (h : readItems fuel text = some read) (rest : List Char) : skipBlanks text ≠ ']' :: rest := by
  intro hbracket
  match fuel with
  | 0 => cases h
  | 1 => cases h
  | fuel + 2 =>
    rw [readItems, readValue, hbracket] at h
    cases h

theorem readItems_skipBlanks (fuel : Nat) (text : List Char) :
    readItems fuel (skipBlanks text) = readItems fuel text := by
  have hsplit : text = text.takeWhile isBlank ++ skipBlanks text :=
    List.takeWhile_append_dropWhile.symm
  have hblanks : ∀ character ∈ text.takeWhile isBlank, isBlank character :=
    fun _ => List.mem_takeWhile_imp
  conv_rhs => rw [hsplit]
  rw [readItems_append_blanks hblanks]

theorem ReadsBack.of_step {json : Json} {layout : Layout}
    (hsome : ∀ depth, layout.text depth json ≠ [])
    (hstep : ∀ depth fuel rest, 2 * (layout.text depth json).length ≤ fuel + 1 →
      StopsAt isNumeric rest →
        readValue (fuel + 1) (layout.text depth json ++ rest) = some (json, rest)) :
    ReadsBack layout json := by
  intro depth fuel rest hfuel hrest
  have hlength := List.length_pos_iff.mpr (hsome depth)
  obtain ⟨fuel, rfl⟩ := Nat.exists_eq_add_one_of_ne_zero (by omega : fuel ≠ 0)
  exact hstep depth fuel rest hfuel hrest

theorem readsBack_array {items : List Json} {layout : Layout}
    (h : ∀ item ∈ items, ReadsBack layout item) : ReadsBack layout (.array items) := by
  cases items with
  | nil => exact .of_step (fun _ => by simp [Layout.text]) fun _ _ _ _ _ => rfl
  | cons item items =>
    refine .of_step (fun _ => by simp [Layout.text]) fun depth fuel rest hfuel hrest => ?_
    simp only [List.forall_mem_cons] at h
    simp only [Layout.text, List.length_cons, List.length_append, List.cons_append,
      List.append_assoc, List.nil_append] at hfuel ⊢
    have hlength : 2 * ((layout.text (depth + 1) item).length +
        (layout.itemsText (depth + 1) items).length) < fuel := by omega
    have hitems := readItems_text h.1 h.2 (layout.isBlank_lineBreak depth) hlength rest
    rw [← readItems_append_blanks (layout.isBlank_lineBreak (depth + 1))] at hitems
    rw [readValue, skipBlanks_cons rfl]
    simp only
    split
    · next hbracket => exact absurd hbracket (skipBlanks_ne_of_readItems hitems _)
    · rw [readItems_skipBlanks, hitems]
      rfl

theorem readsBack_object {members : List (Option String × Json)} {layout : Layout}
    (h : ∀ member ∈ members, ReadsBack layout member.2) : ReadsBack layout (.object members) := by
  cases members with
  | nil => exact .of_step (fun _ => by simp [Layout.text]) fun _ _ _ _ _ => rfl
  | cons member members =>
    obtain ⟨name, value⟩ := member
    refine .of_step (fun _ => by simp [Layout.text]) fun depth fuel rest hfuel hrest => ?_
    simp only [List.forall_mem_cons] at h
    simp only [Layout.text, List.length_cons, List.length_append, List.cons_append,
      List.append_assoc, List.nil_append] at hfuel ⊢
    have hlength : 2 * ((layout.text (depth + 1) value).length +
        (layout.membersText (depth + 1) members).length) < fuel := by omega
    have hmembers := @readMembers_text layout (depth + 1) name value members h.1 h.2 _
      (layout.isBlank_lineBreak depth) fuel hlength rest
    rw [readValue, skipBlanks_cons rfl]
    simp only
    rw [skipBlanks_append (layout.isBlank_lineBreak _), writeString_eq, List.cons_append,
      skipBlanks_cons rfl]
    rw [writeString_eq, List.cons_append] at hmembers
    exact congrArg (Option.map fun read => (object read.1, read.2)) hmembers

theorem WellFormed.readsBack {json : Json} (h : json.WellFormed) (layout : Layout) :
    ReadsBack layout json := by
  induction h with
  | null => exact .of_step (fun _ => by simp [Layout.text]) fun _ _ _ _ _ => rfl
  | bool value =>
    cases value <;> exact .of_step (fun _ => by simp [Layout.text]) fun _ _ _ _ _ => rfl
  | integer negative magnitude =>
    have hstarts := startsNumber_writeInteger negative magnitude
    refine .of_step (fun _ => ?_) fun depth fuel rest hfuel hrest => ?_
    · obtain ⟨first, others, htext, -⟩ := hstarts []
      simp [Layout.text, htext]
    · rw [Layout.text, ← writeInteger_append, readValue_of_startsNumber (hstarts rest),
        readNumber_integer hrest]
  | decimal hliteral =>
    have hstarts := startsNumber_decimal hliteral
    refine .of_step (fun _ => ?_) fun depth fuel rest hfuel hrest => ?_
    · obtain ⟨first, others, htext, -⟩ := hstarts []
      rw [List.append_nil] at htext
      rw [Layout.text, htext]
      simp
    · rw [Layout.text, readValue_of_startsNumber (hstarts rest), readNumber_decimal hliteral hrest]
  | string text =>
    refine .of_step (fun _ => by simp [Layout.text, writeString_eq]) fun depth fuel rest _ _ => ?_
    rw [Layout.text, ← writeString_append, writeString_eq, readValue, skipBlanks_cons rfl]
    simp only
    rw [readString_inner]
    rfl
  | array hitems ih => exact readsBack_array ih
  | object hmembers ih => exact readsBack_object ih

/-- Blanks behind the value are passed over. -/
theorem WellFormed.read?_of_toList_eq {json : Json} (h : json.WellFormed) {layout : Layout}
    {blanks : List Char} (hblanks : ∀ character ∈ blanks, isBlank character) {text : String}
    (htext : text.toList = layout.text 0 json ++ blanks) : read? text = some json := by
  have hstops : StopsAt isNumeric blanks := fun character hcharacter =>
    isNumeric_eq_false_of_isBlank (hblanks character (List.mem_of_mem_head? hcharacter))
  have hfuel : 2 * (layout.text 0 json).length ≤ readFuel text.toList := by
    rw [readFuel, htext, List.length_append]
    omega
  have hread := h.readsBack layout 0 (readFuel text.toList) blanks hfuel hstops
  rw [← htext] at hread
  have hskipped : skipBlanks blanks = [] := by
    simpa [skipBlanks] using hblanks
  rw [read?]
  simp only [hread, Option.bind_eq_bind, Option.bind_some, hskipped]
  rfl

/-- What either printer prints is read back. -/
theorem WellFormed.read?_print {json : Json} (h : json.WellFormed) :
    read? (print json) = some json :=
  h.read?_of_toList_eq (List.forall_mem_nil _) (by rw [toList_print, List.append_nil])

theorem WellFormed.read?_printPretty {json : Json} (h : json.WellFormed) :
    read? (printPretty json) = some json :=
  h.read?_of_toList_eq (List.forall_mem_nil _) (by rw [toList_printPretty, List.append_nil])

end HybridConsensus.Json
