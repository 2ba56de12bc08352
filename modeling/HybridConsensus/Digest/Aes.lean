import HybridConsensus.Digest.Words

/-!
# The AES round

One round substitutes bytes, shifts rows, mixes columns and adds a key. A column is a word, lowest
byte first, and each byte's share of a mixed column is looked up.
-/

namespace HybridConsensus.Aes

/-- The product with the polynomial `x` in the field of 256 elements. -/
def double (byte : UInt8) : UInt8 :=
  (byte <<< 1) ^^^ (if byte < 0x80 then 0 else 0x1b)

/-- Adds up the doubles of `left` that the low bits of `right` call for. -/
def product : (bits : Nat) → (left right : UInt8) → UInt8
  | 0, _, _ => 0
  | bits + 1, left, right =>
    (if right &&& 1 = 1 then left else 0) ^^^ product bits (double left) (right >>> 1)

/-- The power to `2 ^ count - 2`, which for a count of eight is the inverse. -/
def inverse : (count : Nat) → UInt8 → UInt8
  | 0, _ => 1
  | 1, _ => 1
  | count + 1, byte =>
    let square := product 8 byte byte
    product 8 square (inverse count square)

def substitute (byte : UInt8) : UInt8 :=
  let inverted := if byte = 0 then 0 else inverse 8 byte
  let turned (count : UInt8) := (inverted <<< count) ||| (inverted >>> (8 - count))
  inverted ^^^ turned 1 ^^^ turned 2 ^^^ turned 3 ^^^ turned 4 ^^^ 0x63

/-- What a byte of the first row gives to its mixed column. The other rows give it rotated. -/
def shares : Vector UInt32 256 :=
  Vector.ofFn fun byte : Fin 256 =>
    let value := substitute (UInt8.ofNat byte.val)
    wordOfBytes (double value) value value (double value ^^^ value)

@[inline]
def share (byte : UInt8) : UInt32 :=
  shares.get ⟨byte.toNat, byte.toNat_lt⟩

structure Block where
  first : UInt32
  second : UInt32
  third : UInt32
  fourth : UInt32
deriving DecidableEq, Inhabited

@[inline]
def mixedColumn (a b c d key : UInt32) : UInt32 :=
  share a.toUInt8 ^^^ rotateLeft (share (b >>> 8).toUInt8) 8 ^^^
    rotateLeft (share (c >>> 16).toUInt8) 16 ^^^ rotateLeft (share (d >>> 24).toUInt8) 24 ^^^ key

def round (key block : Block) : Block :=
  let { first, second, third, fourth } := block
  { first := mixedColumn first second third fourth key.first
    second := mixedColumn second third fourth first key.second
    third := mixedColumn third fourth first second key.third
    fourth := mixedColumn fourth first second third key.fourth }

end HybridConsensus.Aes
