import HybridConsensus.Block

/-!
# Hash libraries

A memory-hard hash function is computed by a machine that works on a cache made from a seed. A
library hands out caches and machines and takes them back. What it does depends on a state of its
own, and any request may be refused.
-/

namespace HybridConsensus

inductive HashLibraryError
  | cacheAllocation (reason : String)
  | cacheInit (reason : String)
  | vmCreation (reason : String)
  | compute (reason : String)
deriving DecidableEq, Repr

def HashLibraryError.message : HashLibraryError → String
  | .cacheAllocation reason => "Cache allocation failed: " ++ reason
  | .cacheInit reason => "Cache initialisation failed: " ++ reason
  | .vmCreation reason => "VM creation failed: " ++ reason
  | .compute reason => "Hash computation failed: " ++ reason

structure HashLibrary (World Flags Cache Vm : Type) where
  flags : World → Flags × World
  allocateCache : Flags → World → Except HashLibraryError Cache × World
  initCache : Cache → (seed : List UInt8) → World → Except HashLibraryError Cache × World
  createVm : Flags → Cache → World → Except HashLibraryError Vm × World
  compute : Vm → (data : List UInt8) → World → Except HashLibraryError Digest × World
  destroyVm : Vm → World → World
  releaseCache : Cache → World → World

end HybridConsensus
