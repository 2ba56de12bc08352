import HybridConsensus.Proofs.JournaledRun

/-!
# What a call to an engine writes down

The journal of a call is read by its sorts of events: how often a cache was asked for, how often a
hash was computed, and whether what was refused was a part of a context or a hash. All of it is
settled by two questions, whether the context for the seed was there and what became of the call.
-/

namespace HybridConsensus

namespace LibraryEvent

def isAllocation : LibraryEvent → Bool
  | .allocate _ _ => true
  | _ => false

def isComputation : LibraryEvent → Bool
  | .compute _ _ _ _ => true
  | _ => false

/-- A refusal of a cache, of its seeding or of a machine. -/
def refusesContext : LibraryEvent → Bool
  | .allocate _ granted => !granted
  | .initialise _ _ granted => !granted
  | .createVm _ _ granted => !granted
  | _ => false

def refusesHash : LibraryEvent → Bool
  | .compute _ _ _ granted => !granted
  | _ => false

end LibraryEvent

/-- How much of each sort is among the events of a call. -/
structure Tallies (events : List LibraryEvent) (allocations computations : Nat)
    (contextRefused hashRefused : Bool) : Prop where
  allocations_eq : events.countP (·.isAllocation) = allocations
  computations_eq : events.countP (·.isComputation) = computations
  contextRefused_eq : events.any (·.refusesContext) = contextRefused
  hashRefused_eq : events.any (·.refusesHash) = hashRefused

theorem Tallies.append {later earlier : List LibraryEvent}
    {allocations allocations' computations computations' : Nat}
    {contextRefused contextRefused' hashRefused hashRefused' : Bool}
    (hlater : Tallies later allocations computations contextRefused hashRefused)
    (hearlier : Tallies earlier allocations' computations' contextRefused' hashRefused') :
    Tallies (later ++ earlier) (allocations + allocations') (computations + computations')
      (contextRefused || contextRefused') (hashRefused || hashRefused') where
  allocations_eq := by rw [List.countP_append, hlater.allocations_eq, hearlier.allocations_eq]
  computations_eq := by rw [List.countP_append, hlater.computations_eq, hearlier.computations_eq]
  contextRefused_eq := by rw [List.any_append, hlater.contextRefused_eq, hearlier.contextRefused_eq]
  hashRefused_eq := by rw [List.any_append, hlater.hashRefused_eq, hearlier.hashRefused_eq]

theorem tallies_nil : Tallies [] 0 0 false false :=
  ⟨rfl, rfl, rfl, rfl⟩

theorem tallies_compute (call vm length : Nat) (granted : Bool) :
    Tallies [.compute call vm length granted] 0 1 false (!granted) :=
  ⟨rfl, rfl, rfl, by cases granted <;> rfl⟩

variable {World Flags Cache Vm : Type} {library : HashLibrary World Flags Cache Vm}
  {engine : HashEngine (Numbered Cache) (Numbered Vm)} {seed : BlockHash}
  {state after : World × Journal}

/-- Building asks for one cache, and something is refused exactly if no context comes of it. -/
theorem exists_events_of_build
    {built : Except HashLibraryError (HashContext (Numbered Cache) (Numbered Vm))}
    (h : HashContext.build library.journaled seed state = (built, after)) :
    ∃ events, after.2.events = events ++ state.2.events ∧
      Tallies events 1 0 (!built.isOk) false := by
  rw [HashContext.build_eq_iff] at h
  cases h with
  | noCache hflags hcache =>
    rw [(journaled_allocateCache hcache).2.1, (journaled_flags hflags).2]
    exact ⟨[_, _], rfl, rfl, rfl, rfl, rfl⟩
  | noSeed hflags hcache hseed =>
    have hjournal := (journaled_initCache hseed).2.1
    rw [(journaled_allocateCache hcache).2.1, (journaled_flags hflags).2] at hjournal
    simp only [HashLibrary.journaled, hjournal]
    exact ⟨[_, _, _, _], rfl, rfl, rfl, rfl, rfl⟩
  | noVm hflags hcache hseed hvm =>
    have hjournal := (journaled_createVm hvm).2.1
    rw [(journaled_initCache hseed).2.1, (journaled_allocateCache hcache).2.1,
      (journaled_flags hflags).2] at hjournal
    simp only [HashLibrary.journaled, hjournal]
    exact ⟨[_, _, _, _, _], rfl, rfl, rfl, rfl, rfl⟩
  | built hflags hcache hseed hvm =>
    rw [(journaled_createVm hvm).2.1, (journaled_initCache hseed).2.1,
      (journaled_allocateCache hcache).2.1, (journaled_flags hflags).2]
    exact ⟨[_, _, _, _], rfl, rfl, rfl, rfl, rfl⟩

/-- Closing gives back and asks for nothing. -/
theorem exists_events_of_close (library : HashLibrary World Flags Cache Vm)
    (engine : HashEngine (Numbered Cache) (Numbered Vm)) (state : World × Journal) :
    ∃ events, (engine.close library.journaled state).2.events = events ++ state.2.events ∧
      Tallies events 0 0 false false := by
  unfold HashEngine.close
  cases engine.context with
  | none => exact ⟨[], rfl, tallies_nil⟩
  | some context => exact ⟨[_, _], rfl, rfl, rfl, rfl, rfl⟩

/-- A cache is asked for exactly if the context for the seed is not there. -/
theorem exists_events_of_ready
    {context : Except HashLibraryError (HashContext (Numbered Cache) (Numbered Vm))}
    (h : engine.ready library.journaled seed state = (context, after)) :
    ∃ events, after.2.events = events ++ state.2.events ∧
      Tallies events (if engine.currentSeed = some seed then 0 else 1) 0 (!context.isOk) false := by
  rcases HashEngine.ready_cases library.journaled engine seed state with
    ⟨held, hheld, hseed, hready⟩ | ⟨hseed, hready⟩
  · rw [hready] at h
    cases h
    have hcurrent : engine.currentSeed = some seed := by
      rw [HashEngine.currentSeed, hheld, Option.map_some, hseed]
    rw [if_pos hcurrent]
    exact ⟨[], rfl, tallies_nil⟩
  · rw [hready] at h
    obtain ⟨closing, hclosing, hclosed⟩ := exists_events_of_close library engine state
    obtain ⟨building, hbuilding, hbuilt⟩ := exists_events_of_build h
    refine ⟨building ++ closing, ?_, ?_⟩
    · rw [hbuilding, hclosing, List.append_assoc]
    · rw [if_neg hseed]
      simpa using hbuilt.append hclosed

end HybridConsensus
