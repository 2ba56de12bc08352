import HybridConsensus.Digest.Universal
import HybridConsensus.Engine.Basic

/-!
# The universal hash as a library

A cache holds a key made from the seed, and a machine hashes the key followed by the data. The
library has no state.
-/

namespace HybridConsensus

structure UniversalCache where
  key : Option Digest

structure UniversalVm where
  key : Digest

def universalLibrary : HashLibrary Unit Unit UniversalCache UniversalVm where
  flags world := ((), world)
  allocateCache _ world := (.ok { key := none }, world)
  initCache _ seed world :=
    if seed.isEmpty then (.error (.cacheInit "empty seed"), world)
    else (.ok { key := some (Blake3.digest seed) }, world)
  createVm _ cache world :=
    match cache.key with
    | some key => (.ok { key }, world)
    | none => (.error (.vmCreation "cache not initialised"), world)
  compute vm data world := (.ok (Universal.digest (vm.key.toList ++ data)), world)
  destroyVm _ world := world
  releaseCache _ world := world

end HybridConsensus
