import HybridConsensus.Hex
import HybridConsensus.Json.Value

/-!
# Printing JSON

The compact form has no blanks. The pretty form puts each item and member on a line of its own and
indents by two blanks. Each function writes in front of a text that is given.
-/

namespace HybridConsensus.Json

/-- Only quotes, backslashes and control characters are escaped. -/
def escape (character : Char) : List Char :=
  if character = '"' then ['\\', '"']
  else if character = '\\' then ['\\', '\\']
  else if character = '\x08' then ['\\', 'b']
  else if character = '\x0c' then ['\\', 'f']
  else if character = '\n' then ['\\', 'n']
  else if character = '\r' then ['\\', 'r']
  else if character = '\t' then ['\\', 't']
  else if character.toNat < 0x20 then '\\' :: 'u' :: Hex.digits 4 character.toNat
  else [character]

/-- A string without a text is written as one unpaired half. -/
def writeString (text : Option String) (rest : List Char) : List Char :=
  let inner := match text with
    | some text => text.toList.flatMap escape
    | none => "\\ud800".toList
  '"' :: (inner ++ '"' :: rest)

def writeNat (value : Nat) (rest : List Char) : List Char :=
  Nat.toDigits 10 value ++ rest

def writeInteger (negative : Bool) (magnitude : Nat) (rest : List Char) : List Char :=
  if negative then '-' :: writeNat magnitude rest else writeNat magnitude rest

mutual

def write : Json → List Char → List Char
  | .null, rest => 'n' :: 'u' :: 'l' :: 'l' :: rest
  | .bool true, rest => 't' :: 'r' :: 'u' :: 'e' :: rest
  | .bool false, rest => 'f' :: 'a' :: 'l' :: 's' :: 'e' :: rest
  | .integer negative magnitude, rest => writeInteger negative magnitude rest
  | .decimal literal, rest => literal.toList ++ rest
  | .string text, rest => writeString text rest
  | .array [], rest => '[' :: ']' :: rest
  | .array (item :: items), rest => '[' :: write item (writeItems items (']' :: rest))
  | .object [], rest => '{' :: '}' :: rest
  | .object ((name, value) :: members), rest =>
    '{' :: writeString name (':' :: write value (writeMembers members ('}' :: rest)))

def writeItems : List Json → List Char → List Char
  | [], rest => rest
  | item :: items, rest => ',' :: write item (writeItems items rest)

def writeMembers : List (Option String × Json) → List Char → List Char
  | [], rest => rest
  | (name, value) :: members, rest =>
    ',' :: writeString name (':' :: write value (writeMembers members rest))

end

def newLine (depth : Nat) (rest : List Char) : List Char :=
  '\n' :: (List.replicate (2 * depth) ' ' ++ rest)

mutual

def writePretty (depth : Nat) : Json → List Char → List Char
  | .array (item :: items), rest =>
    '[' :: newLine (depth + 1) (writePretty (depth + 1) item
      (writePrettyItems (depth + 1) items (newLine depth (']' :: rest))))
  | .object ((name, value) :: members), rest =>
    '{' :: newLine (depth + 1) (writeString name (':' :: ' ' :: writePretty (depth + 1) value
      (writePrettyMembers (depth + 1) members (newLine depth ('}' :: rest)))))
  | .array [], rest => '[' :: ']' :: rest
  | .object [], rest => '{' :: '}' :: rest
  | .null, rest => write .null rest
  | .bool value, rest => write (.bool value) rest
  | .integer negative magnitude, rest => writeInteger negative magnitude rest
  | .decimal literal, rest => literal.toList ++ rest
  | .string text, rest => writeString text rest

def writePrettyItems (depth : Nat) : List Json → List Char → List Char
  | [], rest => rest
  | item :: items, rest =>
    ',' :: newLine depth (writePretty depth item (writePrettyItems depth items rest))

def writePrettyMembers (depth : Nat) : List (Option String × Json) → List Char → List Char
  | [], rest => rest
  | (name, value) :: members, rest =>
    ',' :: newLine depth (writeString name (':' :: ' ' :: writePretty depth value
      (writePrettyMembers depth members rest)))

end

def print (value : Json) : String :=
  String.ofList (write value [])

def printPretty (value : Json) : String :=
  String.ofList (writePretty 0 value [])

end HybridConsensus.Json
