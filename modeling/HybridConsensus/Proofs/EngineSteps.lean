import HybridConsensus.Engine.Calls

/-!
# What one call to an engine can do

A call makes up to six calls to the library, and each but the last can be the one that ends it. Here
is every way it can go, once: a context is there or is built, and then the memo answers or the
library computes. What an engine keeps follows from these cases and never looks into the engine
again.
-/

namespace HybridConsensus

/-! ### Answers -/

section Answers

variable {ε α β : Type} {answer : Except ε α}

theorem exists_of_isOk (h : answer.isOk = true) : ∃ found, answer = .ok found := by
  cases answer with
  | error error => cases h
  | ok found => exact ⟨found, rfl⟩

theorem exists_of_isOk_eq_false (h : answer.isOk = false) : ∃ error, answer = .error error := by
  cases answer with
  | error error => exact ⟨error, rfl⟩
  | ok found => cases h

end Answers

/-! ### Contexts -/

variable {World Flags Cache Vm : Type} {library : HashLibrary World Flags Cache Vm}

namespace HashContext

/-- The ways in which building a context can end. A cache is given back whenever no context comes
of it. -/
inductive Building (library : HashLibrary World Flags Cache Vm) (seed : BlockHash) (world : World) :
    Except HashLibraryError (HashContext Cache Vm) → World → Prop
  | noCache {flags asked error after} (hflags : library.flags world = (flags, asked))
      (hcache : library.allocateCache flags asked = (.error error, after)) :
      Building library seed world (.error error) after
  | noSeed {flags asked blank allocated error after} (hflags : library.flags world = (flags, asked))
      (hcache : library.allocateCache flags asked = (.ok blank, allocated))
      (hseed : library.initCache blank seed.seedText allocated = (.error error, after)) :
      Building library seed world (.error error) (library.releaseCache blank after)
  | noVm {flags asked blank allocated cache seeded error after}
      (hflags : library.flags world = (flags, asked))
      (hcache : library.allocateCache flags asked = (.ok blank, allocated))
      (hseed : library.initCache blank seed.seedText allocated = (.ok cache, seeded))
      (hvm : library.createVm flags cache seeded = (.error error, after)) :
      Building library seed world (.error error) (library.releaseCache cache after)
  | built {flags asked blank allocated cache seeded vm after}
      (hflags : library.flags world = (flags, asked))
      (hcache : library.allocateCache flags asked = (.ok blank, allocated))
      (hseed : library.initCache blank seed.seedText allocated = (.ok cache, seeded))
      (hvm : library.createVm flags cache seeded = (.ok vm, after)) :
      Building library seed world (.ok { seed, cache, vm, memo := none }) after

theorem build_eq_iff {seed : BlockHash} {world after : World}
    {built : Except HashLibraryError (HashContext Cache Vm)} :
    build library seed world = (built, after) ↔ Building library seed world built after := by
  constructor
  · intro h
    unfold build at h
    rcases hflags : library.flags world with ⟨flags, asked⟩
    rw [hflags] at h
    rcases hcache : library.allocateCache flags asked with ⟨error | blank, allocated⟩
    · simp only [hcache] at h
      cases h
      exact .noCache hflags hcache
    rcases hseed : library.initCache blank seed.seedText allocated with ⟨error | cache, seeded⟩
    · simp only [hcache, hseed] at h
      cases h
      exact .noSeed hflags hcache hseed
    rcases hvm : library.createVm flags cache seeded with ⟨error | vm, created⟩
    · simp only [hcache, hseed, hvm] at h
      cases h
      exact .noVm hflags hcache hseed hvm
    · simp only [hcache, hseed, hvm] at h
      cases h
      exact .built hflags hcache hseed hvm
  · intro h
    unfold build
    cases h with
    | noCache hflags hcache => simp only [hflags, hcache]
    | noSeed hflags hcache hseed => simp only [hflags, hcache, hseed]
    | noVm hflags hcache hseed hvm => simp only [hflags, hcache, hseed, hvm]
    | built hflags hcache hseed hvm => simp only [hflags, hcache, hseed, hvm]

end HashContext

/-! ### Calls -/

namespace HashEngine

variable {engine : HashEngine Cache Vm} {context : HashContext Cache Vm} {seed : BlockHash}
  {world : World}

theorem ready_of_seed_eq (hcontext : engine.context = some context) (hseed : context.seed = seed) :
    engine.ready library seed world = (.ok context, world) := by
  simp [ready, hcontext, hseed]

theorem ready_of_seed_ne (h : engine.currentSeed ≠ some seed) :
    engine.ready library seed world =
      HashContext.build library seed (engine.close library world) := by
  unfold ready close
  cases hcontext : engine.context with
  | none => rfl
  | some context =>
    have hseed : context.seed ≠ seed := by
      intro hseed
      simp [currentSeed, hcontext, hseed] at h
    simp only [if_neg hseed]

/-- A context is ready either because it was there or because it was built after what was there had
been closed. -/
theorem ready_cases (library : HashLibrary World Flags Cache Vm) (engine : HashEngine Cache Vm)
    (seed : BlockHash) (world : World) :
    (∃ context, engine.context = some context ∧ context.seed = seed ∧
      engine.ready library seed world = (.ok context, world)) ∨
    engine.currentSeed ≠ some seed ∧ engine.ready library seed world =
      HashContext.build library seed (engine.close library world) := by
  by_cases hseed : engine.currentSeed = some seed
  · obtain ⟨context, hcontext, hcurrent⟩ := Option.map_eq_some_iff.mp hseed
    exact .inl ⟨context, hcontext, hcurrent, ready_of_seed_eq hcontext hcurrent⟩
  · exact .inr ⟨hseed, ready_of_seed_ne hseed⟩

/-- The ways in which a call can end. Only the first leaves no context. -/
inductive Asking (library : HashLibrary World Flags Cache Vm) (engine : HashEngine Cache Vm)
    (call : HashCall) (world : World) :
    Except EngineError Digest → HashEngine Cache Vm → World → Prop
  | unavailable {error after}
      (hready : engine.ready library call.seed world = (.error error, after)) :
      Asking library engine call world (.error (.context call.seed error)) idle after
  | recalled {context after output}
      (hready : engine.ready library call.seed world = (.ok context, after))
      (hrecall : (if call.memoize then context.recall? call.data else none) = some output) :
      Asking library engine call world (.ok output) ⟨some context⟩ after
  | refused {context before error after}
      (hready : engine.ready library call.seed world = (.ok context, before))
      (hrecall : (if call.memoize then context.recall? call.data else none) = none)
      (hcompute : library.compute context.vm call.data before = (.error error, after)) :
      Asking library engine call world (.error (.compute error)) ⟨some context⟩ after
  | computed {context before output after}
      (hready : engine.ready library call.seed world = (.ok context, before))
      (hrecall : (if call.memoize then context.recall? call.data else none) = none)
      (hcompute : library.compute context.vm call.data before = (.ok output, after)) :
      Asking library engine call world (.ok output)
        ⟨some { context with memo := if call.memoize then some (call.data, output) else none }⟩
        after

theorem ask_eq_iff {call : HashCall} {answer : Except EngineError Digest}
    {next : HashEngine Cache Vm} {after : World} :
    engine.ask library call world = (answer, next, after) ↔
      Asking library engine call world answer next after := by
  constructor
  · intro h
    unfold ask hash at h
    rcases hready : engine.ready library call.seed world with ⟨error | context, before⟩
    · simp only [hready] at h
      cases h
      exact .unavailable hready
    cases hrecall : if call.memoize then context.recall? call.data else none with
    | some output =>
      simp only [hready, hrecall] at h
      cases h
      exact .recalled hready hrecall
    | none =>
      rcases hcompute : library.compute context.vm call.data before with ⟨error | output, computed⟩
      · simp only [hready, hrecall, hcompute] at h
        cases h
        exact .refused hready hrecall hcompute
      · simp only [hready, hrecall, hcompute] at h
        cases h
        exact .computed hready hrecall hcompute
  · intro h
    unfold ask hash
    cases h with
    | unavailable hready => simp only [hready]
    | recalled hready hrecall => simp only [hready, hrecall]
    | refused hready hrecall hcompute => simp only [hready, hrecall, hcompute]
    | computed hready hrecall hcompute => simp only [hready, hrecall, hcompute]

/-- What holds of a new engine and its library, and of them after each further call, holds after all
calls. -/
theorem after_induction {motive : HashEngine Cache Vm → World → Prop} (start : motive idle world)
    (step : ∀ engine world call answer next after,
      Asking library engine call world answer next after → motive engine world →
      motive next after)
    (calls : List HashCall) :
    motive (HashEngine.after library calls world).1 (HashEngine.after library calls world).2 := by
  refine List.foldlRecOn (motive := fun state : HashEngine Cache Vm × World =>
    motive state.1 state.2) calls _ start ?_
  intro state hstate call _
  exact step state.1 state.2 call _ _ _ (ask_eq_iff.mp rfl) hstate

end HashEngine

end HybridConsensus
