import HybridConsensus.Digest.Aes
import HybridConsensus.Digest.Blake3

/-!
# The universal hash

A memory-hard hash. Four chains each fill half a mebibyte with AES output, then walk through it at
places that depend on what they have read, mixing by AES, SHA-256 and BLAKE3 in turn and writing
their state back. The joined states are hashed once more.
-/

namespace HybridConsensus.Universal

def padBlocks : Nat := 8192

def walkSteps : Nat := 12288

structure Input where
  head : List UInt8
  nonce : Nat

/-- The last eight bytes are the nonce. A shorter input gives one by its digest. -/
def Input.ofBytes (bytes : List UInt8) : Input :=
  if 8 ≤ bytes.length then
    { head := bytes.take (bytes.length - 8), nonce := littleEndian (bytes.drop (bytes.length - 8)) }
  else
    { head := [], nonce := littleEndian ((Blake3.digest bytes).toList.take 8) }

def stateOfDigest (digest : Digest) : WordState :=
  (littleWords digest.toArray 0).take 8

def chainStart (input : Input) (chain : Nat) : WordState :=
  let mask := (chain.toUInt64 * 0x9e3779b97f4a7c15).toNat
  stateOfDigest (Blake3.digest (input.head ++ littleEndianBytes 8 (input.nonce ^^^ mask)))

def rounds : (count : Nat) → (key block : Aes.Block) → Aes.Block
  | 0, _, block => block
  | count + 1, key, block => rounds count key (Aes.round key block)

def pushBlock (pad : Array UInt32) (block : Aes.Block) : Array UInt32 :=
  (((pad.push block.first).push block.second).push block.third).push block.fourth

/-- Each block holds two neighbours of the sequence of AES outputs, twice. -/
def fill (key : Aes.Block) : (blocks : Nat) → Aes.Block → Array UInt32 → Array UInt32
  | 0, _, pad => pad
  | blocks + 1, low, pad =>
    let high := rounds 4 key low
    fill key blocks high (pushBlock (pushBlock (pushBlock (pushBlock pad low) high) low) high)

def lowHalf (state : WordState) : Aes.Block :=
  { first := state.get 0, second := state.get 1, third := state.get 2, fourth := state.get 3 }

def highHalf (state : WordState) : Aes.Block :=
  { first := state.get 4, second := state.get 5, third := state.get 6, fourth := state.get 7 }

def filledPad (start : WordState) : Array UInt32 :=
  let key := lowHalf start
  fill key padBlocks (rounds 4 key (highHalf start)) (Array.mkEmpty (16 * padBlocks))

def readBlock (pad : Array UInt32) (block : Nat) : WordBlock :=
  Vector.ofFn fun place : Fin 16 => pad.getD (16 * block + place.val) 0

/-- Only the first half of a block is written. -/
def writeState (pad : Array UInt32) (block : Nat) (state : WordState) : Array UInt32 :=
  Nat.fold 8 (fun place h pad => pad.setIfInBounds (16 * block + place) state[place]) pad

def mixAes (state : WordState) (block : WordBlock) : WordState :=
  let key (place : Nat) : Aes.Block :=
    { first := wordAt block place, second := wordAt block (place + 1),
      third := wordAt block (place + 2), fourth := wordAt block (place + 3) }
  let turn (half : Aes.Block) (place : Nat) : Aes.Block := Aes.round (key place) half
  let low := [0, 4, 8, 12].foldl turn (lowHalf state)
  let high := [8, 12, 0, 4].foldl turn (highHalf state)
  #v[low.first, low.second, low.third, low.fourth, high.first, high.second, high.third, high.fourth]

def mixSha (state : WordState) (block : WordBlock) : WordState :=
  (Sha256.compress (state.map swapBytes) (block.map swapBytes)).map swapBytes

def mixBlake (state : WordState) (block : WordBlock) : WordState :=
  Blake3.mix (state ++ Blake3.initial : Vector UInt32 (8 + 8)) block

def mix (turn : Nat) (state : WordState) (block : WordBlock) : WordState :=
  match turn % 3 with
  | 0 => mixAes state block
  | 1 => mixSha state block
  | _ => mixBlake state block

def address (state : WordState) (step : UInt64) : Nat :=
  let turned := (step <<< 13) ||| (step >>> 51)
  let word := (state.get 0 ^^^ state.get 2).toUInt64 ^^^ turned ^^^ (step * 0x517cc1b727220a95)
  word.toNat % padBlocks

def walk (turn : Nat) : (left step : Nat) → WordState → Array UInt32 → WordState
  | 0, _, state, _ => state
  | left + 1, step, state, pad =>
    let place := address state step.toUInt64
    let state := mix (turn + step + 1) state (readBlock pad place)
    walk turn left (step + 1) state (writeState pad place state)

def chain (input : Input) (index : Nat) : WordState :=
  let start := chainStart input index
  walk ((input.nonce + index) % 3) walkSteps 0 start (filledPad start)

def joined (input : Input) : WordState :=
  let first := chain input 0
  let second := chain input 1
  let third := chain input 2
  let fourth := chain input 3
  Vector.ofFn fun place : Fin 8 =>
    first[place.val] ^^^ second[place.val] ^^^ third[place.val] ^^^ fourth[place.val]

def digest (bytes : List UInt8) : Digest :=
  let joined := joined (.ofBytes bytes)
  Blake3.digest (Sha256.digest (littleDigest joined).toList).toList

end HybridConsensus.Universal
