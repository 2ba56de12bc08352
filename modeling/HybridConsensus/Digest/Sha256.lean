import HybridConsensus.Digest.Words

/-!
# SHA-256
-/

namespace HybridConsensus.Sha256

def initial : WordState :=
  #v[0x6a09e667, 0xbb67ae85, 0x3c6ef372, 0xa54ff53a, 0x510e527f, 0x9b05688c, 0x1f83d9ab, 0x5be0cd19]

def constants : Vector UInt32 64 :=
  #v[0x428a2f98, 0x71374491, 0xb5c0fbcf, 0xe9b5dba5, 0x3956c25b, 0x59f111f1, 0x923f82a4, 0xab1c5ed5,
    0xd807aa98, 0x12835b01, 0x243185be, 0x550c7dc3, 0x72be5d74, 0x80deb1fe, 0x9bdc06a7, 0xc19bf174,
    0xe49b69c1, 0xefbe4786, 0x0fc19dc6, 0x240ca1cc, 0x2de92c6f, 0x4a7484aa, 0x5cb0a9dc, 0x76f988da,
    0x983e5152, 0xa831c66d, 0xb00327c8, 0xbf597fc7, 0xc6e00bf3, 0xd5a79147, 0x06ca6351, 0x14292967,
    0x27b70a85, 0x2e1b2138, 0x4d2c6dfc, 0x53380d13, 0x650a7354, 0x766a0abb, 0x81c2c92e, 0x92722c85,
    0xa2bfe8a1, 0xa81a664b, 0xc24b8b70, 0xc76c51a3, 0xd192e819, 0xd6990624, 0xf40e3585, 0x106aa070,
    0x19a4c116, 0x1e376c08, 0x2748774c, 0x34b0bcb5, 0x391c0cb3, 0x4ed8aa4a, 0x5b9cca4f, 0x682e6ff3,
    0x748f82ee, 0x78a5636f, 0x84c87814, 0x8cc70208, 0x90befffa, 0xa4506ceb, 0xbef9a3f7, 0xc67178f2]

structure Registers where
  a : UInt32
  b : UInt32
  c : UInt32
  d : UInt32
  e : UInt32
  f : UInt32
  g : UInt32
  h : UInt32

def Registers.round (r : Registers) (constant word : UInt32) : Registers :=
  let first := r.h + (rotateRight r.e 6 ^^^ rotateRight r.e 11 ^^^ rotateRight r.e 25) +
    ((r.e &&& r.f) ^^^ (~~~r.e &&& r.g)) + constant + word
  let second := (rotateRight r.a 2 ^^^ rotateRight r.a 13 ^^^ rotateRight r.a 22) +
    ((r.a &&& r.b) ^^^ (r.a &&& r.c) ^^^ (r.b &&& r.c))
  { a := first + second, b := r.a, c := r.b, d := r.c,
    e := r.d + first, f := r.e, g := r.f, h := r.g }

/-- The word for round `place + 16`, given the sixteen words before it. -/
def nextWord (window : WordBlock) (place : Nat) : UInt32 :=
  let near := wordAt window (place + 14)
  let far := wordAt window (place + 1)
  wordAt window place + (rotateRight far 7 ^^^ rotateRight far 18 ^^^ (far >>> 3)) +
    wordAt window (place + 9) + (rotateRight near 17 ^^^ rotateRight near 19 ^^^ (near >>> 10))

/-- The last `left` of the 64 rounds. The word that a round has used makes room for a later one. -/
def rounds : (left : Nat) → WordBlock → Registers → Registers
  | 0, _, registers => registers
  | left + 1, window, registers =>
    let place := 63 - left
    let constant := constants.get ⟨place, by omega⟩
    rounds left (setWord window place (nextWord window place))
      (registers.round constant (wordAt window place))

def compress (state : WordState) (block : WordBlock) : WordState :=
  let start : Registers :=
    { a := state[0], b := state[1], c := state[2], d := state[3],
      e := state[4], f := state[5], g := state[6], h := state[7] }
  let final := rounds 64 block start
  #v[start.a + final.a, start.b + final.b, start.c + final.c, start.d + final.d,
    start.e + final.e, start.f + final.f, start.g + final.g, start.h + final.h]

/-- A one bit, zeros up to the end of a block, and the length in bits as its last eight bytes. -/
def pad (bytes : List UInt8) : List UInt8 :=
  let length := bytes.length
  bytes ++ 0x80 :: List.replicate ((119 - length % 64) % 64) 0 ++
    (littleEndianBytes 8 (8 * length)).reverse

def compressAll (bytes : Array UInt8) : (blocks start : Nat) → WordState → WordState
  | 0, _, state => state
  | blocks + 1, start, state =>
    compressAll bytes blocks (start + 64) (compress state (bigWords bytes start))

def digest (bytes : List UInt8) : Digest :=
  let padded := (pad bytes).toArray
  bigDigest (compressAll padded (padded.size / 64) 0 initial)

end HybridConsensus.Sha256
