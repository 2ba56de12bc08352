import HybridConsensus.Engine.Library

/-!
# The hash engine

An engine holds at most one context, a machine on a cache for one seed. It builds the context when a
hash is first asked for and builds it anew when the seed changes. A memoized call answers from the
last memoized call if that had the same input.
-/

namespace HybridConsensus

inductive EngineError
  | context (seed : BlockHash) (cause : HashLibraryError)
  | compute (cause : HashLibraryError)
deriving DecidableEq

def EngineError.message : EngineError → String
  | .context seed cause =>
    "Hash context unavailable for seed " ++ seed.toHex ++ ": " ++ cause.message
  | .compute cause => "Hash computation failed: " ++ cause.message

structure HashContext (Cache Vm : Type) where
  seed : BlockHash
  cache : Cache
  vm : Vm
  memo : Option (List UInt8 × Digest)

structure HashEngine (Cache Vm : Type) where
  context : Option (HashContext Cache Vm)

variable {World Flags Cache Vm : Type}

/-- A cache whose machine cannot be had is given back. -/
def HashContext.build (library : HashLibrary World Flags Cache Vm) (seed : BlockHash)
    (world : World) : Except HashLibraryError (HashContext Cache Vm) × World :=
  let (flags, world) := library.flags world
  match library.allocateCache flags world with
  | (.error error, world) => (.error error, world)
  | (.ok blank, world) =>
    match library.initCache blank seed.seedText world with
    | (.error error, world) => (.error error, library.releaseCache blank world)
    | (.ok cache, world) =>
      match library.createVm flags cache world with
      | (.error error, world) => (.error error, library.releaseCache cache world)
      | (.ok vm, world) => (.ok { seed, cache, vm, memo := none }, world)

def HashContext.close (library : HashLibrary World Flags Cache Vm) (context : HashContext Cache Vm)
    (world : World) : World :=
  library.releaseCache context.cache (library.destroyVm context.vm world)

def HashContext.recall? (context : HashContext Cache Vm) (data : List UInt8) : Option Digest :=
  match context.memo with
  | some (input, output) => if input = data then some output else none
  | none => none

namespace HashEngine

def idle : HashEngine Cache Vm :=
  ⟨none⟩

def currentSeed (engine : HashEngine Cache Vm) : Option BlockHash :=
  engine.context.map (·.seed)

/-- Ends the engine and gives back what it holds. -/
def close (library : HashLibrary World Flags Cache Vm) (engine : HashEngine Cache Vm)
    (world : World) : World :=
  match engine.context with
  | some context => context.close library world
  | none => world

/-- The context for `seed`. One for another seed is closed first. -/
def ready (library : HashLibrary World Flags Cache Vm) (engine : HashEngine Cache Vm)
    (seed : BlockHash) (world : World) :
    Except HashLibraryError (HashContext Cache Vm) × World :=
  match engine.context with
  | some context =>
    if context.seed = seed then (.ok context, world)
    else HashContext.build library seed (context.close library world)
  | none => HashContext.build library seed world

/-- The hash of `data` under `seed`. A refused computation keeps the context and its memo. -/
def hash (library : HashLibrary World Flags Cache Vm) (memoize : Bool)
    (engine : HashEngine Cache Vm) (data : List UInt8) (seed : BlockHash) (world : World) :
    Except EngineError Digest × HashEngine Cache Vm × World :=
  match engine.ready library seed world with
  | (.error error, world) => (.error (.context seed error), idle, world)
  | (.ok context, world) =>
    match if memoize then context.recall? data else none with
    | some output => (.ok output, ⟨some context⟩, world)
    | none =>
      match library.compute context.vm data world with
      | (.error error, world) => (.error (.compute error), ⟨some context⟩, world)
      | (.ok output, world) =>
        let memo := if memoize then some (data, output) else none
        (.ok output, ⟨some { context with memo }⟩, world)

end HashEngine

end HybridConsensus
