import HybridConsensus.Pattern.Escape

/-!
# Classes in brackets

A class lists characters, ranges and other classes, and `&&`, `--` and `~~` join such lists. A dash
that starts or ends a list stands for itself, as does a closing bracket that starts one.
-/

namespace HybridConsensus.Pattern

def asciiClassNames : List String :=
  ["alnum", "alpha", "ascii", "blank", "cntrl", "digit", "graph", "lower", "print", "punct",
    "space", "upper", "word", "xdigit"]

/-- Reads a name as in `[:alpha:]`, which a caret negates, behind the opening bracket. -/
def readAsciiClass? : List Char → Option (Bool × List Char)
  | ':' :: text =>
    let (negated, text) := match text with
      | '^' :: rest => (true, rest)
      | text => (false, text)
    match text.dropWhile (· ≠ ':') with
    | ':' :: ']' :: rest =>
      if asciiClassNames.contains (String.ofList (text.takeWhile (· ≠ ':'))) then
        some (negated, rest)
      else none
    | _ => none
  | _ => none

/-- A character of a class, or none for a class within it. -/
def readClassItem (mode : Mode) : List Char → Option (Option Literal × List Char)
  | [] => none
  | '\\' :: rest => do
    match ← readEscape mode rest with
    | (.literal literal, rest) => return (some literal, rest)
    | (.namedClass negated, rest) => if mode.admitsNamed negated then return (none, rest) else none
    | _ => none
  | character :: rest => some (some (.plain character), rest)

def admitsItem (mode : Mode) : Option Literal → Bool
  | some literal => mode.admitsInClass literal
  | none => true

/-- Reads an item or a range. A range goes up, from one character to another. -/
def readRange (mode : Mode) (text : List Char) : Option (List Char) := do
  let (first, rest) ← readClassItem mode text
  if !admitsItem mode first then none
  else match mode.skip rest with
    | [] => none
    | '-' :: behind =>
      let ahead := mode.peek? behind
      if ahead = some ']' ∨ ahead = some '-' then return '-' :: behind
      else
        let (last, rest) ← readClassItem mode (mode.skip behind)
        match first, last with
        | some first, some last =>
          if first.value ≤ last.value ∧ mode.admitsInClass last then return rest else none
        | _, _ => none
    | rest => return rest

/-- The lists of a class so far: those that operators have joined, and the one being read. -/
structure Operands where
  joined : Option Nat
  current : Level
deriving DecidableEq, Repr

namespace Operands

def empty : Operands :=
  { joined := none, current := .empty }

def add (operands : Operands) (depth : Nat) : Operands :=
  { operands with current := operands.current.add depth }

def total (operands : Operands) : Nat :=
  match operands.joined with
  | some depth => max depth operands.current.total + 1
  | none => operands.current.total

def next (operands : Operands) : Operands :=
  { joined := some operands.total, current := .empty }

end Operands

/-- The dashes, or the bracket, that start a list. -/
def readLeading (mode : Mode) : (fuel : Nat) → Operands → List Char → Operands × List Char
  | 0, operands, text => (operands, text)
  | fuel + 1, operands, text =>
    match mode.skip text with
    | '-' :: rest => readLeading mode fuel (operands.add 0) rest
    | ']' :: rest =>
      if operands.current.items = 0 then (operands.add 0, rest) else (operands, ']' :: rest)
    | rest => (operands, rest)

def Mode.admitsAsciiClass (mode : Mode) (negated : Bool) : Bool :=
  if mode.unicode then !mode.caseless else !negated

mutual

/-- Reads a class behind its opening bracket and returns how deep it is nested. -/
def readBracket (mode : Mode) : (fuel : Nat) → List Char → Option (Nat × List Char)
  | 0, _ => none
  | fuel + 1, text => do
    let (negated, text) := match mode.skip text with
      | '^' :: rest => (true, rest)
      | rest => (false, rest)
    let (operands, text) := readLeading mode text.length .empty text
    let (depth, rest) ← readOperands mode fuel operands text
    let leads := 0 < operands.current.items
    if mode.admitsNegation negated && (!leads || mode.admitsInClass (.plain '-')) then
      return (depth + 1, rest)
    else none

def readOperands (mode : Mode) : (fuel : Nat) → Operands → List Char → Option (Nat × List Char)
  | 0, _, _ => none
  | fuel + 1, operands, text =>
    match mode.skip text with
    | [] => none
    | ']' :: rest => some (operands.total, rest)
    | '&' :: '&' :: rest | '-' :: '-' :: rest | '~' :: '~' :: rest =>
      readOperands mode fuel operands.next rest
    | '[' :: rest =>
      match readAsciiClass? rest with
      | some (negated, rest) =>
        if mode.admitsAsciiClass negated then readOperands mode fuel (operands.add 0) rest
        else none
      | none => do
        let (depth, rest) ← readBracket mode fuel rest
        readOperands mode fuel (operands.add depth) rest
    | text => do
      let rest ← readRange mode text
      readOperands mode fuel (operands.add 0) rest

end

end HybridConsensus.Pattern
