import HybridConsensus.Bytes

/-!
# Fowler–Noll–Vo hashes

The 64-bit hash that takes each byte in by an exclusive or and then multiplies by a fixed prime.
-/

namespace HybridConsensus.Fnv

def offset : UInt64 := 0xcbf29ce484222325

def prime : UInt64 := 0x100000001b3

def step (state : UInt64) (byte : UInt8) : UInt64 :=
  (state ^^^ byte.toUInt64) * prime

def run (state : UInt64) (bytes : List UInt8) : UInt64 :=
  bytes.foldl step state

/-- Four steps more, each of which gives eight bytes, lowest first. -/
def spread (state : UInt64) : Digest :=
  let first := step state 0
  let second := step first 1
  let third := step second 2
  let fourth := step third 3
  let words := #v[first, second, third, fourth]
  Vector.ofFn fun place : Fin 32 =>
    (words[place.val / 8] >>> (8 * (place.val % 8)).toUInt64).toUInt8

def digest (bytes : List UInt8) : Digest :=
  spread (run offset bytes)

end HybridConsensus.Fnv
