import HybridConsensus.Digest.Sha256

/-!
# BLAKE3

Input is cut into chunks of 1024 bytes and chunks into blocks of 64. Blocks are compressed in a
chain, and the chunks are the leaves of a binary tree whose root gives the digest.
-/

namespace HybridConsensus.Blake3

def chunkStart : UInt32 := 1

def chunkEnd : UInt32 := 2

def parent : UInt32 := 4

def root : UInt32 := 8

def initial : WordState :=
  Sha256.initial

/-- Mixes two message words into one column or diagonal. -/
@[inline]
def quarter (state : WordBlock) (a b c d : Fin 16) (x y : UInt32) : WordBlock :=
  let a1 := state.get a + state.get b + x
  let d1 := rotateRight (state.get d ^^^ a1) 16
  let c1 := state.get c + d1
  let b1 := rotateRight (state.get b ^^^ c1) 12
  let a2 := a1 + b1 + y
  let d2 := rotateRight (d1 ^^^ a2) 8
  let c2 := c1 + d2
  let b2 := rotateRight (b1 ^^^ c2) 7
  (((state.set a a2).set b b2).set c c2).set d d2

def round (state message : WordBlock) : WordBlock :=
  let state := quarter state 0 4 8 12 message[0] message[1]
  let state := quarter state 1 5 9 13 message[2] message[3]
  let state := quarter state 2 6 10 14 message[4] message[5]
  let state := quarter state 3 7 11 15 message[6] message[7]
  let state := quarter state 0 5 10 15 message[8] message[9]
  let state := quarter state 1 6 11 12 message[10] message[11]
  let state := quarter state 2 7 8 13 message[12] message[13]
  quarter state 3 4 9 14 message[14] message[15]

def permute (m : WordBlock) : WordBlock :=
  #v[m[2], m[6], m[3], m[10], m[7], m[0], m[4], m[13],
    m[1], m[11], m[12], m[5], m[9], m[14], m[15], m[8]]

def rounds : (count : Nat) → (state message : WordBlock) → WordBlock
  | 0, state, _ => state
  | count + 1, state, message => rounds count (round state message) (permute message)

/-- Seven rounds, and then the halves of the state are joined. -/
def mix (state message : WordBlock) : WordState :=
  let mixed := rounds 7 state message
  Vector.ofFn fun place : Fin 8 => mixed[place.val] ^^^ mixed[place.val + 8]

/-- A compression that is yet to be made: a chunk's last block, or a parent. -/
structure Node where
  chain : WordState
  block : WordBlock
  counter : UInt64
  length : UInt32
  flags : UInt32

def Node.compress (node : Node) (extra : UInt32) : WordState :=
  let settings := #v[node.counter.toUInt32, (node.counter >>> 32).toUInt32, node.length,
    node.flags ||| extra]
  mix (node.chain ++ initial.take 4 ++ settings : Vector UInt32 (8 + min 4 8 + 4)) node.block

/-- The chain value that a node hands up. -/
def Node.value (node : Node) : WordState :=
  node.compress 0

def Node.digest (node : Node) : Digest :=
  littleDigest (node.compress root)

def chunkBlocks (bytes : Array UInt8) (counter : UInt64) :
    (blocks start length : Nat) → (flags : UInt32) → WordState → Node
  | 0, start, length, flags, chain =>
    { chain, block := littleWords bytes start, counter, length := length.toUInt32,
      flags := flags ||| chunkEnd }
  | blocks + 1, start, length, flags, chain =>
    let node : Node := { chain, block := littleWords bytes start, counter, length := 64, flags }
    chunkBlocks bytes counter blocks (start + 64) (length - 64) 0 node.value

def chunk (bytes : Array UInt8) (start length : Nat) : Node :=
  chunkBlocks bytes (start / 1024).toUInt64 ((length - 1) / 64) start length chunkStart initial

def join (left right : WordState) : Node where
  chain := initial
  block := (left ++ right : Vector UInt32 (8 + 8))
  counter := 0
  length := 64
  flags := parent

/-- The left subtree takes the most chunks that are a power of two and leave something over. -/
def leftLength (length : Nat) : Nat :=
  1024 <<< ((length - 1) / 1024).log2

theorem leftLength_lt {length : Nat} (h : 1024 < length) : leftLength length < length := by
  have hpow : 2 ^ ((length - 1) / 1024).log2 ≤ (length - 1) / 1024 := Nat.log2_self_le (by omega)
  rw [leftLength, Nat.shiftLeft_eq]
  omega

theorem leftLength_pos (length : Nat) : 0 < leftLength length := by
  have : 0 < 2 ^ ((length - 1) / 1024).log2 := Nat.pow_pos (by decide)
  rw [leftLength, Nat.shiftLeft_eq]
  omega

/-- The bytes between `start` and `start + length`, which fill the input from `start` on. -/
def tree (bytes : Array UInt8) (start length : Nat) : Node :=
  if 1024 < length then
    let left := leftLength length
    join (tree bytes start left).value (tree bytes (start + left) (length - left)).value
  else chunk bytes start length
termination_by length
decreasing_by
  · exact leftLength_lt ‹_›
  · have := leftLength_pos length
    omega

def digest (bytes : List UInt8) : Digest :=
  let input := bytes.toArray
  (tree input 0 input.size).digest

end HybridConsensus.Blake3
