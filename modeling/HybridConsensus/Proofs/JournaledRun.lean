import HybridConsensus.Engine.Journaled
import HybridConsensus.Proofs.EngineSteps
import Mathlib.Data.List.Infix

/-!
# Writing calls down changes no answer

An engine on a journaled library gives the answers that it gives on the library itself: without the
numbers, its context is the same after every call. What the journal adds is why a call failed, for
the library refused a call made in it.
-/

namespace HybridConsensus

variable {World Flags Cache Vm : Type} {library : HashLibrary World Flags Cache Vm}

/-! ### Calls to the library -/

section Library

variable {state after : World × Journal} {flags : Flags}

theorem journaled_flags (h : library.journaled.flags state = (flags, after)) :
    library.flags state.1 = (flags, after.1) ∧ after.2 = state.2.note .flags := by
  cases h
  exact ⟨rfl, rfl⟩

theorem journaled_allocateCache {answer : Except HashLibraryError (Numbered Cache)}
    (h : library.journaled.allocateCache flags state = (answer, after)) :
    library.allocateCache flags state.1 = (answer.map (·.item), after.1) ∧
      after.2 = state.2.allocate answer.isOk ∧
      ∀ cache, answer = .ok cache → cache.number = state.2.allocated + 1 := by
  unfold HashLibrary.journaled at h
  rcases hcall : library.allocateCache flags state.1 with ⟨error | cache, world⟩
  · simp only [hcall] at h
    cases h
    exact ⟨rfl, rfl, fun _ h => nomatch h⟩
  · simp only [hcall] at h
    cases h
    exact ⟨rfl, rfl, fun _ h => by cases h; rfl⟩

theorem journaled_initCache {cache : Numbered Cache} {seed : List UInt8}
    {answer : Except HashLibraryError (Numbered Cache)}
    (h : library.journaled.initCache cache seed state = (answer, after)) :
    library.initCache cache.item seed state.1 = (answer.map (·.item), after.1) ∧
      after.2 = state.2.initialise cache.number seed answer.isOk ∧
      ∀ seeded, answer = .ok seeded → seeded.number = cache.number := by
  unfold HashLibrary.journaled at h
  rcases hcall : library.initCache cache.item seed state.1 with ⟨error | seeded, world⟩
  · simp only [hcall] at h
    cases h
    exact ⟨rfl, rfl, fun _ h => nomatch h⟩
  · simp only [hcall] at h
    cases h
    exact ⟨rfl, rfl, fun _ h => by cases h; rfl⟩

theorem journaled_createVm {cache : Numbered Cache}
    {answer : Except HashLibraryError (Numbered Vm)}
    (h : library.journaled.createVm flags cache state = (answer, after)) :
    library.createVm flags cache.item state.1 = (answer.map (·.item), after.1) ∧
      after.2 = state.2.createVm cache.number answer.isOk ∧
      ∀ vm, answer = .ok vm → vm.number = state.2.created + 1 := by
  unfold HashLibrary.journaled at h
  rcases hcall : library.createVm flags cache.item state.1 with ⟨error | vm, world⟩
  · simp only [hcall] at h
    cases h
    exact ⟨rfl, rfl, fun _ h => nomatch h⟩
  · simp only [hcall] at h
    cases h
    exact ⟨rfl, rfl, fun _ h => by cases h; rfl⟩

theorem journaled_compute {vm : Numbered Vm} {data : List UInt8}
    {answer : Except HashLibraryError Digest}
    (h : library.journaled.compute vm data state = (answer, after)) :
    library.compute vm.item data state.1 = (answer, after.1) ∧
      after.2 = state.2.compute vm.number data.length answer.isOk := by
  cases h
  exact ⟨rfl, rfl⟩

end Library

/-! ### The same answers -/

theorem HashContext.build_erase {seed : BlockHash} {state after : World × Journal}
    {built : Except HashLibraryError (HashContext (Numbered Cache) (Numbered Vm))}
    (h : build library.journaled seed state = (built, after)) :
    build library seed state.1 = (built.map (·.erase), after.1) := by
  rw [build_eq_iff] at h ⊢
  cases h with
  | noCache hflags hcache =>
    exact .noCache (journaled_flags hflags).1 (journaled_allocateCache hcache).1
  | noSeed hflags hcache hseed =>
    exact .noSeed (journaled_flags hflags).1 (journaled_allocateCache hcache).1
      (journaled_initCache hseed).1
  | noVm hflags hcache hseed hvm =>
    exact .noVm (journaled_flags hflags).1 (journaled_allocateCache hcache).1
      (journaled_initCache hseed).1 (journaled_createVm hvm).1
  | built hflags hcache hseed hvm =>
    exact .built (journaled_flags hflags).1 (journaled_allocateCache hcache).1
      (journaled_initCache hseed).1 (journaled_createVm hvm).1

namespace HashEngine

variable {engine : HashEngine (Numbered Cache) (Numbered Vm)} {seed : BlockHash} {call : HashCall}
  {state : World × Journal}

@[simp]
theorem currentSeed_erase (engine : HashEngine (Numbered Cache) (Numbered Vm)) :
    engine.erase.currentSeed = engine.currentSeed := by
  unfold erase currentSeed
  cases engine.context <;> rfl

theorem close_erase (library : HashLibrary World Flags Cache Vm)
    (engine : HashEngine (Numbered Cache) (Numbered Vm)) (state : World × Journal) :
    engine.erase.close library state.1 = (engine.close library.journaled state).1 := by
  unfold erase close
  cases engine.context <;> rfl

theorem ready_erase {after : World × Journal}
    {context : Except HashLibraryError (HashContext (Numbered Cache) (Numbered Vm))}
    (h : engine.ready library.journaled seed state = (context, after)) :
    engine.erase.ready library seed state.1 = (context.map (·.erase), after.1) := by
  rcases ready_cases library.journaled engine seed state with
    ⟨held, hheld, hseed, hready⟩ | ⟨hseed, hready⟩
  · rw [hready] at h
    cases h
    refine ready_of_seed_eq ?_ hseed
    rw [erase, hheld]
    rfl
  · rw [hready] at h
    rw [ready_of_seed_ne (by rwa [currentSeed_erase]), close_erase]
    exact HashContext.build_erase h

theorem asking_erase {answer : Except EngineError Digest}
    {next : HashEngine (Numbered Cache) (Numbered Vm)} {after : World × Journal}
    (h : Asking library.journaled engine call state answer next after) :
    Asking library engine.erase call state.1 answer next.erase after.1 := by
  cases h with
  | unavailable hready => exact .unavailable (ready_erase hready)
  | recalled hready hrecall => exact .recalled (ready_erase hready) hrecall
  | refused hready hrecall hcompute =>
    exact .refused (ready_erase hready) hrecall (journaled_compute hcompute).1
  | computed hready hrecall hcompute =>
    exact .computed (ready_erase hready) hrecall (journaled_compute hcompute).1

/-- The journal only listens: a call on the journaled library is answered as on the library itself,
and leaves the same context behind. -/
theorem ask_erase (library : HashLibrary World Flags Cache Vm)
    (engine : HashEngine (Numbered Cache) (Numbered Vm)) (call : HashCall)
    (state : World × Journal) :
    engine.erase.ask library call state.1 =
      ((engine.ask library.journaled call state).1,
        (engine.ask library.journaled call state).2.1.erase,
        (engine.ask library.journaled call state).2.2.1) :=
  ask_eq_iff.mpr (asking_erase (ask_eq_iff.mp rfl))

theorem after_erase (library : HashLibrary World Flags Cache Vm) (calls : List HashCall)
    (world : World) (journal : Journal) :
    HashEngine.after library calls world =
      ((HashEngine.after library.journaled calls (world, journal)).1.erase,
        (HashEngine.after library.journaled calls (world, journal)).2.1) := by
  let forget (state : HashEngine (Numbered Cache) (Numbered Vm) × World × Journal) :
      HashEngine Cache Vm × World := (state.1.erase, state.2.1)
  change List.foldl _ (forget (idle, world, journal)) calls = forget (List.foldl _ _ calls)
  refine List.foldl_hom forget ?_
  intro state call
  rw [ask_erase]

end HashEngine

/-! ### Refusals -/

namespace Journal

variable {before middle after : Journal}

theorem Refused.of_suffix (hsuffix : before.events <:+ middle.events)
    (h : middle.Refused after) : before.Refused after := by
  obtain ⟨earlier, hearlier⟩ := hsuffix
  obtain ⟨later, hlater, hrefusal⟩ := h
  refine ⟨later ++ earlier, ?_, ?_⟩
  · rw [hlater, ← hearlier, List.append_assoc]
  · rw [List.any_append, hrefusal, Bool.true_or]

end Journal

section Refusals

variable {engine : HashEngine (Numbered Cache) (Numbered Vm)} {seed : BlockHash} {call : HashCall}
  {state after : World × Journal}

/-- Building a context writes behind what was written before, and failing to build one writes down a
refusal. -/
theorem journal_of_build
    {built : Except HashLibraryError (HashContext (Numbered Cache) (Numbered Vm))}
    (h : HashContext.build library.journaled seed state = (built, after)) :
    state.2.events <:+ after.2.events ∧
      ∀ error, built = .error error → state.2.Refused after.2 := by
  rw [HashContext.build_eq_iff] at h
  cases h with
  | noCache hflags hcache =>
    rw [(journaled_allocateCache hcache).2.1, (journaled_flags hflags).2]
    exact ⟨⟨[_, _], rfl⟩, fun _ _ => ⟨[_, _], rfl, rfl⟩⟩
  | noSeed hflags hcache hseed =>
    have hjournal := (journaled_initCache hseed).2.1
    rw [(journaled_allocateCache hcache).2.1, (journaled_flags hflags).2] at hjournal
    simp only [HashLibrary.journaled, hjournal]
    exact ⟨⟨[_, _, _, _], rfl⟩, fun _ _ => ⟨[_, _, _, _], rfl, rfl⟩⟩
  | noVm hflags hcache hseed hvm =>
    have hjournal := (journaled_createVm hvm).2.1
    rw [(journaled_initCache hseed).2.1, (journaled_allocateCache hcache).2.1,
      (journaled_flags hflags).2] at hjournal
    simp only [HashLibrary.journaled, hjournal]
    exact ⟨⟨[_, _, _, _, _], rfl⟩, fun _ _ => ⟨[_, _, _, _, _], rfl, rfl⟩⟩
  | built hflags hcache hseed hvm =>
    rw [(journaled_createVm hvm).2.1, (journaled_initCache hseed).2.1,
      (journaled_allocateCache hcache).2.1, (journaled_flags hflags).2]
    exact ⟨⟨[_, _, _, _], rfl⟩, fun _ h => nomatch h⟩

theorem suffix_close (library : HashLibrary World Flags Cache Vm)
    (engine : HashEngine (Numbered Cache) (Numbered Vm)) (state : World × Journal) :
    state.2.events <:+ (engine.close library.journaled state).2.events := by
  unfold HashEngine.close
  cases engine.context with
  | none => exact List.suffix_refl _
  | some context => exact ⟨[_, _], rfl⟩

theorem journal_of_ready
    {context : Except HashLibraryError (HashContext (Numbered Cache) (Numbered Vm))}
    (h : engine.ready library.journaled seed state = (context, after)) :
    state.2.events <:+ after.2.events ∧
      ∀ error, context = .error error → state.2.Refused after.2 := by
  rcases HashEngine.ready_cases library.journaled engine seed state with
    ⟨held, -, -, hready⟩ | ⟨-, hready⟩
  · rw [hready] at h
    cases h
    exact ⟨List.suffix_refl _, fun _ h => nomatch h⟩
  · rw [hready] at h
    have hclose := suffix_close library engine state
    obtain ⟨hsuffix, hrefused⟩ := journal_of_build h
    exact ⟨hclose.trans hsuffix, fun error herror => (hrefused error herror).of_suffix hclose⟩

/-- A call fails only if the library refused a call made during it. -/
theorem refused_of_ask_eq_error {error : EngineError}
    (h : (engine.ask library.journaled call state).1 = .error error) :
    state.2.Refused (engine.ask library.journaled call state).2.2.2 := by
  generalize hasked : engine.ask library.journaled call state = asked at h ⊢
  obtain ⟨answer, next, after⟩ := asked
  rw [HashEngine.ask_eq_iff] at hasked
  cases hasked with
  | unavailable hready => exact (journal_of_ready hready).2 _ rfl
  | recalled => cases h
  | refused hready _ hcompute =>
    refine Journal.Refused.of_suffix (journal_of_ready hready).1 ?_
    rw [(journaled_compute hcompute).2]
    exact ⟨[_], rfl, rfl⟩
  | computed => cases h

end Refusals

end HybridConsensus
