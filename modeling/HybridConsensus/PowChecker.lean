import HybridConsensus.Engine.Basic
import HybridConsensus.ProofCheck
import HybridConsensus.Seed

/-!
# Checking a header

A checker selects the seed for a height, hashes the header under it and holds the hash against the
bits. It keeps the seeds it has selected and the context of its engine from one check to the next.
-/

namespace HybridConsensus

structure PowCheck where
  seed : BlockHash
  hash : BlockHash
  valid : Bool
deriving DecidableEq

structure PowChecker (Cache Vm : Type) where
  params : ConsensusParams
  seeds : SeedSelector
  engine : HashEngine Cache Vm
  memoize : Bool

namespace PowChecker

variable {World Flags Cache Vm : Type}

def ofParams (params : ConsensusParams) (policy : SeedCachePolicy) (memoize : Bool) :
    PowChecker Cache Vm where
  params := params
  seeds := .ofParams params policy
  engine := .idle
  memoize := memoize

def forgetSeed (checker : PowChecker Cache Vm) : PowChecker Cache Vm :=
  { checker with seeds := checker.seeds.forget }

/-- The seed for `height`, and the hash of `header` under it. -/
def powHash (library : HashLibrary World Flags Cache Vm) (checker : PowChecker Cache Vm)
    (store : ChainStore) (height : Nat) (header : List UInt8) (world : World) :
    Except EngineError (BlockHash × BlockHash) × PowChecker Cache Vm × World :=
  let (seed, seeds) := checker.seeds.seedFor store height
  let (answer, engine, world) := checker.engine.hash library checker.memoize header seed world
  (answer.map fun output => (seed, ⟨output⟩), { checker with seeds, engine }, world)

def check (library : HashLibrary World Flags Cache Vm) (checker : PowChecker Cache Vm)
    (store : ChainStore) (height : Nat) (header : List UInt8) (bits : CompactBits) (world : World) :
    Except EngineError PowCheck × PowChecker Cache Vm × World :=
  let (answer, checker, world) := checker.powHash library store height header world
  (answer.map fun (seed, hash) => { seed, hash, valid := hash.meets bits checker.params },
    checker, world)

end PowChecker

end HybridConsensus
