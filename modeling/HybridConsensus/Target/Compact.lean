import HybridConsensus.Target.Basic

/-!
# Compact bits

A target travels in 32 bits: the high byte is a count of bytes, bit 23 a sign, and the low 23 bits
the leading part of the number, so that the target is `mantissa * 256 ^ (exponent - 3)`. Targets
need no sign, so bits that carry one are refused, as are bits of a number above `2 ^ 256`.
-/

namespace HybridConsensus

abbrev CompactBits := UInt32

structure DecodedTarget where
  target : Target
  negative : Bool
  overflow : Bool
deriving DecidableEq

/-- Bits that can bound a proof. -/
def DecodedTarget.isValid (decoded : DecodedTarget) : Bool :=
  !decoded.negative && !decoded.overflow && !decoded.target.isZero

namespace CompactBits

def exponent (bits : CompactBits) : Nat :=
  bits.toNat >>> 24

def mantissa (bits : CompactBits) : Nat :=
  bits.toNat % 0x800000

def signed (bits : CompactBits) : Bool :=
  bits.toNat.testBit 23

def overflows (bits : CompactBits) : Bool :=
  let size := bits.exponent
  let word := bits.mantissa
  word != 0 && (size > 34 || (word > 0xff && size > 33) || (word > 0xffff && size > 32))

/-- Bits that overflow decode to the zero target. -/
def decode (bits : CompactBits) : DecodedTarget where
  target :=
    if bits.overflows then .zero
    else if bits.exponent ≤ 3 then .truncate (bits.mantissa >>> (8 * (3 - bits.exponent)))
    else .truncate (bits.mantissa <<< (8 * (bits.exponent - 3)))
  negative := bits.mantissa != 0 && bits.signed
  overflow := bits.overflows

def target (bits : CompactBits) : Target :=
  bits.decode.target

/-- Eight digits. -/
def toHex (bits : CompactBits) : String :=
  Hex.ofNat 8 bits.toNat

/-- Reads digits behind an optional `0x` and an optional plus sign, if their value fits. -/
def ofHex? (text : String) : Option CompactBits :=
  let unsigned := match Hex.dropMarker text.toList with
    | '+' :: rest => rest
    | digits => digits
  match unsigned with
  | [] => none
  | digits => (digits.foldlM (readDigit? ·) 0).map UInt32.ofNat
where
  readDigit? (value : Nat) (character : Char) : Option Nat := do
    let digit ← Hex.charValue? character
    let longer := 16 * value + digit
    if longer < UInt32.size then some longer else none

end CompactBits

namespace Target

def bitLength (target : Target) : Nat :=
  if target.value = 0 then 0 else target.value.log2 + 1

def byteLength (target : Target) : Nat :=
  (target.bitLength + 7) / 8

/-- The three leading bytes. -/
def leadingWord (target : Target) : Nat :=
  if target.byteLength ≤ 3 then target.value <<< (8 * (3 - target.byteLength))
  else target.value >>> (8 * (target.byteLength - 3))

/-- The bits of a target. A leading word that would set the sign gives its last byte up. -/
def toCompact (target : Target) : CompactBits :=
  if target.leadingWord < 0x800000 then
    UInt32.ofNat (target.leadingWord + target.byteLength <<< 24)
  else
    UInt32.ofNat (target.leadingWord >>> 8 + (target.byteLength + 1) <<< 24)

end Target

end HybridConsensus
