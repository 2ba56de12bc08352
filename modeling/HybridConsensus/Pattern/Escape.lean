import HybridConsensus.Hex
import HybridConsensus.Pattern.Basic

/-!
# Escapes

What a backslash makes of the characters behind it: a character, a class with a name, or a condition
on a place in the text. Octal numbers and references to groups are refused, as is a number in
braces.
-/

namespace HybridConsensus.Pattern

/-- A character of a pattern. Two digits behind `\x` name a byte when the pattern is about ASCII. -/
structure Literal where
  value : Char
  isByte : Bool
deriving DecidableEq, Repr

inductive Escape
  | literal (literal : Literal)
  | namedClass (negated : Bool)
  | textEdge
  | wordBoundary
deriving DecidableEq, Repr

def Literal.plain (value : Char) : Literal :=
  { value, isByte := false }

def Literal.isAscii (literal : Literal) : Bool :=
  literal.value.toNat < 0x80

/-- Caseless matches beyond ASCII are not to be had. A byte beyond ASCII is no character. -/
def Mode.admits (mode : Mode) (literal : Literal) : Bool :=
  if mode.unicode then !mode.caseless else literal.isAscii || !literal.isByte

/-- In a class about ASCII every character is one of ASCII. -/
def Mode.admitsInClass (mode : Mode) (literal : Literal) : Bool :=
  if mode.unicode then !mode.caseless else literal.isAscii

/-- What a class leaves out reaches beyond ASCII. -/
def Mode.admitsNegation (mode : Mode) (negated : Bool) : Bool :=
  mode.unicode || !negated

def Mode.admitsNamed (mode : Mode) (negated : Bool) : Bool :=
  !mode.unicode && !negated

def controlOf? : Char → Option Char
  | 'a' => some '\x07'
  | 'f' => some '\x0c'
  | 't' => some '\t'
  | 'n' => some '\n'
  | 'r' => some '\r'
  | 'v' => some '\x0b'
  | _ => none

/-- Signs of ASCII may be escaped, whether they have a meaning or not. -/
def isEscapable (character : Char) : Bool :=
  character.toNat < 0x80 && !character.isAlphanum && character ≠ '<' && character ≠ '>'

/-- Reads the digits of a code point; `value` is that of the digits before. -/
def readCode (mode : Mode) : (digits value : Nat) → List Char → Option (Nat × List Char)
  | 0, value, text => some (value, text)
  | digits + 1, value, text =>
    match mode.skip text with
    | [] => none
    | character :: rest => do
      let digit ← Hex.charValue? character
      readCode mode digits (16 * value + digit) rest

def readHexLiteral (mode : Mode) (digits : Nat) (text : List Char) :
    Option (Escape × List Char) := do
  let (code, rest) ← readCode mode digits 0 text
  if code.isValidChar then
    return (.literal { value := Char.ofNat code, isByte := digits = 2 }, rest)
  else none

/-- Reads what follows a backslash. -/
def readEscape (mode : Mode) : List Char → Option (Escape × List Char)
  | [] => none
  | 'x' :: rest => readHexLiteral mode 2 rest
  | 'u' :: rest => readHexLiteral mode 4 rest
  | 'U' :: rest => readHexLiteral mode 8 rest
  | 'd' :: rest | 's' :: rest | 'w' :: rest => some (.namedClass false, rest)
  | 'D' :: rest | 'S' :: rest | 'W' :: rest => some (.namedClass true, rest)
  | 'A' :: rest | 'z' :: rest => some (.textEdge, rest)
  | 'b' :: rest | 'B' :: rest | '<' :: rest | '>' :: rest => some (.wordBoundary, rest)
  | character :: rest =>
    if isEscapable character then some (.literal (.plain character), rest)
    else (controlOf? character).map fun control => (.literal (.plain control), rest)

end HybridConsensus.Pattern
