import HybridConsensus.Engine.Basic

/-!
# Calls to a hash engine

What an engine is asked, as data, and what becomes of it and of its library when it is asked one
thing after the other. A refused call leaves both as they are then, and the next call goes on there.
-/

namespace HybridConsensus

structure HashCall where
  memoize : Bool
  data : List UInt8
  seed : BlockHash
deriving DecidableEq

namespace HashEngine

variable {World Flags Cache Vm : Type}

/-- The answer to a call, and the engine and the library after it. -/
def ask (library : HashLibrary World Flags Cache Vm) (engine : HashEngine Cache Vm)
    (call : HashCall) (world : World) : Except EngineError Digest × HashEngine Cache Vm × World :=
  engine.hash library call.memoize call.data call.seed world

/-- A new engine and its library after `calls`. -/
def after (library : HashLibrary World Flags Cache Vm) (calls : List HashCall) (world : World) :
    HashEngine Cache Vm × World :=
  calls.foldl (fun state call => (state.1.ask library call state.2).2) (idle, world)

end HashEngine

end HybridConsensus
