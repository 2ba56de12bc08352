import HybridConsensus.Bytes

/-!
# Words of 32 bits

The hash functions work on blocks of sixteen words and states of eight. Words are read from bytes
and written to bytes in either order.
-/

namespace HybridConsensus

abbrev WordBlock := Vector UInt32 16

abbrev WordState := Vector UInt32 8

/-- Indices count around the block. -/
@[inline]
def wordAt (block : WordBlock) (place : Nat) : UInt32 :=
  block.get ⟨place % 16, Nat.mod_lt _ (by decide)⟩

@[inline]
def setWord (block : WordBlock) (place : Nat) (word : UInt32) : WordBlock :=
  block.set (place % 16) word (Nat.mod_lt _ (by decide))

@[inline]
def rotateLeft (word count : UInt32) : UInt32 :=
  (word <<< count) ||| (word >>> (32 - count))

@[inline]
def rotateRight (word count : UInt32) : UInt32 :=
  (word >>> count) ||| (word <<< (32 - count))

@[inline]
def wordOfBytes (first second third fourth : UInt8) : UInt32 :=
  first.toUInt32 ||| (second.toUInt32 <<< 8) ||| (third.toUInt32 <<< 16) |||
    (fourth.toUInt32 <<< 24)

def swapBytes (word : UInt32) : UInt32 :=
  wordOfBytes (word >>> 24).toUInt8 (word >>> 16).toUInt8 (word >>> 8).toUInt8 word.toUInt8

/-- Sixteen words from `start` on, lowest byte first, with zeros behind the end. -/
def littleWords (bytes : Array UInt8) (start : Nat) : WordBlock :=
  Vector.ofFn fun place : Fin 16 =>
    let first := start + 4 * place.val
    wordOfBytes (bytes.getD first 0) (bytes.getD (first + 1) 0) (bytes.getD (first + 2) 0)
      (bytes.getD (first + 3) 0)

def bigWords (bytes : Array UInt8) (start : Nat) : WordBlock :=
  (littleWords bytes start).map swapBytes

def littleDigest (state : WordState) : Digest :=
  Vector.ofFn fun place : Fin 32 =>
    (state[place.val / 4] >>> (8 * (place.val % 4)).toUInt32).toUInt8

def bigDigest (state : WordState) : Digest :=
  littleDigest (state.map swapBytes)

end HybridConsensus
