import HybridConsensus.Engine.Universal

/-!
# The benchmark

Each thread hashes headers of its own with an engine of its own, all under one seed.
-/

namespace HybridConsensus.CommandLine

structure Benchmark where
  count : Nat
  threads : Nat
deriving DecidableEq, Repr

namespace Benchmark

def total (benchmark : Benchmark) : Nat :=
  benchmark.count * benchmark.threads

def seed : BlockHash :=
  ⟨Vector.replicate 32 0x5a⟩

def header (thread index : Nat) : List UInt8 :=
  utf8Bytes "rx2 benchmark header".toList ++ littleEndianBytes 4 thread ++ littleEndianBytes 4 index

/-- Makes the last `left` hashes of a thread and returns how many there were in all. -/
def hashFrom (benchmark : Benchmark) (thread : Nat) :
    (left : Nat) → HashEngine UniversalCache UniversalVm → Except EngineError Nat
  | 0, _ => .ok benchmark.count
  | left + 1, engine =>
    let input := header thread (benchmark.count - (left + 1))
    match engine.hash universalLibrary false input seed () with
    | (.ok _, engine, _) => hashFrom benchmark thread left engine
    | (.error error, _, _) => .error error

def runThread (benchmark : Benchmark) (thread : Nat) : Except EngineError Nat :=
  benchmark.hashFrom thread benchmark.count .idle

end Benchmark

end HybridConsensus.CommandLine
