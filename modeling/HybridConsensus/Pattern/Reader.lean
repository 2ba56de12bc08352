import HybridConsensus.Pattern.Bracket

/-!
# Reading patterns

A pattern is a choice between sequences of characters, classes, conditions and groups, each of which
a sign behind it may repeat. Flags hold from where they stand to the end of their group. The texts
read here hold no closing brace, so a count in braces, which would need one, is refused where it
opens.
-/

namespace HybridConsensus.Pattern

/-- What has been met anywhere in a pattern. -/
structure Found where
  groupNames : List (List Char)
  wordBoundary : Bool
deriving DecidableEq, Repr

def Found.nothing : Found :=
  { groupNames := [], wordBoundary := false }

/-- The sequences of a group so far, and the depth of the item that a sign would repeat. -/
structure Choice where
  others : Option Nat
  current : Level
  last : Option Nat
deriving DecidableEq, Repr

namespace Choice

def empty : Choice :=
  { others := none, current := .empty, last := none }

def add (choice : Choice) (depth : Nat) : Choice :=
  { choice with current := choice.current.add depth, last := some depth }

/-- Flags are an item that cannot be repeated. -/
def addFlags (choice : Choice) : Choice :=
  { choice with current := choice.current.add 0, last := none }

def repeatLast? (choice : Choice) : Option Choice := do
  let depth := (← choice.last) + 1
  let current := { choice.current with depth := max choice.current.depth depth }
  return { choice with current, last := some depth }

def nextSequence (choice : Choice) : Choice :=
  let depth := choice.current.total
  { others := some (match choice.others with | some other => max other depth | none => depth)
    current := .empty
    last := none }

def total (choice : Choice) : Nat :=
  match choice.others with
  | some depth => max depth choice.current.total + 1
  | none => choice.current.total

end Choice

/-! ### Groups -/

def startsName (character : Char) : Bool :=
  character = '_' || isAlphabetic character

def continuesName (character : Char) : Bool :=
  character = '_' || character = '.' || character = '[' || character = ']' ||
    isAlphanumeric character

def isGroupName : List Char → Bool
  | [] => false
  | first :: rest => startsName first && rest.all continuesName

/-- Reads a name and the sign behind it. No two groups have one name. -/
def readGroupName (found : Found) (text : List Char) : Option (Found × List Char) :=
  let name := text.takeWhile (· ≠ '>')
  match text.dropWhile (· ≠ '>') with
  | [] => none
  | _ :: rest =>
    if isGroupName name && !found.groupNames.contains name then
      some ({ found with groupNames := name :: found.groupNames }, rest)
    else none

/-- Reads flags up to a colon or a closing parenthesis, each at most once. A dash among them may not
be the last. -/
def readFlags (given : List Char) : List Char → Option (List Char × Char × List Char)
  | [] => none
  | character :: rest =>
    if character = ':' ∨ character = ')' then
      if given.getLast? = some '-' then none else some (given, character, rest)
    else if ['i', 'm', 's', 'U', 'u', 'R', 'x', '-'].contains character &&
        !given.contains character then
      readFlags (given ++ [character]) rest
    else none

/-- Flags before a dash are switched on, those behind it off. -/
def switched (given : List Char) (flag : Char) (current : Bool) : Bool :=
  if (given.takeWhile (· ≠ '-')).contains flag then true
  else if given.contains flag then false
  else current

def Mode.switch (mode : Mode) (given : List Char) : Mode where
  ignoresBlanks := switched given 'x' mode.ignoresBlanks
  caseless := switched given 'i' mode.caseless
  unicode := switched given 'u' mode.unicode

inductive Opening
  | flags (mode : Mode)
  | group (mode : Mode) (found : Found)

/-- Reads what follows an opening parenthesis. A look around is no part of a pattern. -/
def readOpening (mode : Mode) (found : Found) (text : List Char) :
    Option (Opening × List Char) :=
  match mode.skip text with
  | '?' :: '=' :: _ | '?' :: '!' :: _ | '?' :: '<' :: '=' :: _ | '?' :: '<' :: '!' :: _ => none
  | '?' :: 'P' :: '<' :: rest | '?' :: '<' :: rest => do
    let (found, rest) ← readGroupName found rest
    return (.group mode found, rest)
  | '?' :: rest => do
    let (given, closing, rest) ← readFlags [] rest
    let mode := mode.switch given
    if closing = ':' then return (.group mode found, rest)
    else if given.isEmpty then none
    else return (.flags mode, rest)
  | rest => some (.group mode found, rest)

/-! ### The whole -/

/-- What an escape adds to a pattern, if it may stand outside a class. -/
def admitEscape? (mode : Mode) (found : Found) : Escape → Option Found
  | .literal literal => if mode.admits literal then some found else none
  | .namedClass negated => if mode.admitsNamed negated then some found else none
  | .textEdge => some found
  | .wordBoundary => some { found with wordBoundary := found.wordBoundary || mode.unicode }

/-- Reads up to the closing parenthesis of a group or the end, and returns how deep the group is
nested. -/
def readChoice : (fuel : Nat) → Mode → Choice → Found → List Char →
    Option (Nat × Found × List Char)
  | 0, _, _, _, _ => none
  | fuel + 1, mode, choice, found, text =>
    match mode.skip text with
    | [] => some (choice.total, found, [])
    | ')' :: rest => some (choice.total, found, ')' :: rest)
    | '|' :: rest => readChoice fuel mode choice.nextSequence found rest
    | '(' :: rest => do
      match ← readOpening mode found rest with
      | (.flags mode, rest) => readChoice fuel mode choice.addFlags found rest
      | (.group inner found, rest) =>
        match ← readChoice fuel inner .empty found rest with
        | (depth, found, _ :: rest) => readChoice fuel mode (choice.add (depth + 1)) found rest
        | _ => none
    | '[' :: rest => do
      let (depth, rest) ← readBracket mode fuel rest
      readChoice fuel mode (choice.add depth) found rest
    | '?' :: rest | '*' :: rest | '+' :: rest => do
      let choice ← choice.repeatLast?
      match rest with
      | '?' :: rest => readChoice fuel mode choice found rest
      | rest => readChoice fuel mode choice found rest
    | '{' :: _ => none
    | '\\' :: rest => do
      let (escape, rest) ← readEscape mode rest
      readChoice fuel mode (choice.add 0) (← admitEscape? mode found escape) rest
    | '^' :: rest | '$' :: rest => readChoice fuel mode (choice.add 0) found rest
    | '.' :: rest =>
      if mode.unicode then readChoice fuel mode (choice.add 0) found rest else none
    | character :: rest =>
      if mode.admits (.plain character) then readChoice fuel mode (choice.add 0) found rest
      else none

/-- Each item takes at least one character and at most two steps of fuel. -/
def readFuel (text : List Char) : Nat :=
  2 * text.length + 2

def check (text : List Char) : Except PatternError Unit :=
  match readChoice (readFuel text) .start .empty .nothing text with
  | some (depth, found, []) =>
    if deepest < depth then .error .malformed
    else if found.wordBoundary then .error .wordBoundary
    else .ok ()
  | _ => .error .malformed

end HybridConsensus.Pattern
