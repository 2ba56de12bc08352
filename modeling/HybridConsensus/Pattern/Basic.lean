import HybridConsensus.Text.Numeric

/-!
# Patterns

A pattern is a regular expression over text. Only its form matters here: whether it can be made into
an automaton at all. Classes of characters beyond ASCII are only to be had by listing them, so a
class with a name, a caseless match and a boundary between words need the mode in which a pattern
speaks of ASCII alone. In that mode it has to match whole characters all the same, and nothing that
reaches beyond ASCII by leaving characters out is allowed.
-/

namespace HybridConsensus

inductive PatternError
  | malformed
  | wordBoundary
deriving DecidableEq, Repr

def PatternError.message : PatternError → String
  | .malformed => "error building NFA"
  | .wordBoundary =>
    "unsupported regex feature for DFAs: cannot build DFAs for regexes with Unicode word " ++
      "boundaries; switch to ASCII word boundaries, or heuristically enable Unicode word " ++
      "boundaries or use a different regex engine"

namespace Pattern

/-- What flags have switched on at a place in a pattern. -/
structure Mode where
  ignoresBlanks : Bool
  caseless : Bool
  unicode : Bool
deriving DecidableEq, Repr

def Mode.start : Mode :=
  { ignoresBlanks := false, caseless := false, unicode := true }

/-- The text behind white space and comments. A comment runs from a number sign to the end of its
line. -/
def dropBlanks (inComment : Bool) : List Char → List Char
  | [] => []
  | character :: rest =>
    if inComment then dropBlanks (character ≠ '\n') rest
    else if isWhiteSpace character then dropBlanks false rest
    else if character = '#' then dropBlanks true rest
    else character :: rest

def Mode.skip (mode : Mode) (text : List Char) : List Char :=
  if mode.ignoresBlanks then dropBlanks false text else text

/-- The character behind blanks, for a look ahead that goes into a comment. -/
def Mode.peek? (mode : Mode) (text : List Char) : Option Char :=
  if mode.ignoresBlanks then
    match text.dropWhile isWhiteSpace with
    | '#' :: comment => (comment.dropWhile isWhiteSpace).head?
    | rest => rest.head?
  else text.head?

/-- Items on one level, and how deep the deepest is nested. Two or more make a level of their
own. -/
structure Level where
  items : Nat
  depth : Nat
deriving DecidableEq, Repr

namespace Level

def empty : Level :=
  { items := 0, depth := 0 }

def add (level : Level) (depth : Nat) : Level :=
  { items := level.items + 1, depth := max level.depth depth }

def total (level : Level) : Nat :=
  if 1 < level.items then level.depth + 1 else level.depth

end Level

/-- No pattern may be nested deeper. -/
def deepest : Nat := 250

end Pattern

end HybridConsensus
