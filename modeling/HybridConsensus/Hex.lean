import HybridConsensus.Bytes

/-!
# Hexadecimal text

Bytes are written as two lower-case digits each. Reading takes digits of either case and looks at
the bytes of the text, so the position in an error counts bytes and a character outside ASCII is
refused at its first byte.
-/

namespace HybridConsensus

inductive HexError
  | invalidCharacter (byte : UInt8) (position : Nat)
  | oddLength
  | invalidLength
deriving DecidableEq, Repr

namespace Hex

def ofByte (byte : UInt8) : List Char :=
  [Nat.digitChar (byte.toNat / 16), Nat.digitChar (byte.toNat % 16)]

def ofBytes (bytes : List UInt8) : String :=
  String.ofList (bytes.flatMap ofByte)

/-- The last `width` digits of `value`. -/
def digits : (width value : Nat) → List Char
  | 0, _ => []
  | width + 1, value => digits width (value / 16) ++ [Nat.digitChar (value % 16)]

def ofNat (width value : Nat) : String :=
  String.ofList (digits width value)

def digitValue? (byte : UInt8) : Option Nat :=
  let code := byte.toNat
  if 48 ≤ code ∧ code ≤ 57 then some (code - 48)
  else if 97 ≤ code ∧ code ≤ 102 then some (code - 87)
  else if 65 ≤ code ∧ code ≤ 70 then some (code - 55)
  else none

def charValue? (character : Char) : Option Nat :=
  if character.toNat < 128 then digitValue? (UInt8.ofNat character.toNat) else none

def readDigit (position : Nat) (byte : UInt8) : Except HexError Nat :=
  match digitValue? byte with
  | some value => .ok value
  | none => .error (.invalidCharacter byte position)

/-- Reads the digits in pairs; `position` is that of the first digit in the whole text. -/
def readPairs (position : Nat) : List UInt8 → Except HexError (List UInt8)
  | high :: low :: rest => do
    let upper ← readDigit position high
    let lower ← readDigit (position + 1) low
    let bytes ← readPairs (position + 2) rest
    return UInt8.ofNat (16 * upper + lower) :: bytes
  | _ => .ok []

def toBytes (text : List Char) : Except HexError (List UInt8) :=
  let bytes := utf8Bytes text
  if bytes.length % 2 = 1 then .error .oddLength else readPairs 0 bytes

/-- The text behind one leading `0x`, if there is one. -/
def dropMarker : List Char → List Char
  | '0' :: 'x' :: rest => rest
  | text => text

/-- The text behind all leading `0x`. -/
def dropMarkers : List Char → List Char
  | '0' :: 'x' :: rest => dropMarkers rest
  | text => text

end Hex

/-- Letters and signs stand for themselves; a control character, a blank other than the space, the
soft hyphen, the quote and the backslash are escaped. -/
def quotedByte (byte : UInt8) : String :=
  let code := byte.toNat
  let shown :=
    if code = 0 then "\\0"
    else if code = 9 then "\\t"
    else if code = 10 then "\\n"
    else if code = 13 then "\\r"
    else if code = 39 then "\\'"
    else if code = 92 then "\\\\"
    else if code < 32 ∨ (127 ≤ code ∧ code ≤ 160) ∨ code = 173 then
      "\\u\x7b" ++ String.ofList (Nat.toDigits 16 code) ++ "\x7d"
    else (Char.ofNat code).toString
  "'" ++ shown ++ "'"

def HexError.message : HexError → String
  | .invalidCharacter byte position =>
    "Invalid character " ++ quotedByte byte ++ " at position " ++ toString position
  | .oddLength => "Odd number of digits"
  | .invalidLength => "Invalid string length"

end HybridConsensus
