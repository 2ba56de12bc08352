import HybridConsensus.Proofs.JournaledRun
import HybridConsensus.Proofs.LiveResources

/-!
# An engine neither leaks nor frees twice

The numbers in a journal are new whenever the library grants something, because they count its
calls. So what a call does to the live caches and machines is to add one number, to take one away,
or nothing. Every path through an engine call, with a refusal at any of its library calls, is a
sequence of such changes. It ends with one cache and one machine live, those of the context, or with
none.
-/

namespace HybridConsensus

/-! ### The journal -/

namespace Journal

variable {journal later : Journal} {event : LibraryEvent} {caches vms caches' vms' : List Nat}
  {cache vm : Nat} {seed : List UInt8} {granted : Bool}

/-- The later journal is the earlier one and the event, and it counts what the event asks for. -/
structure Records (journal : Journal) (event : LibraryEvent) (later : Journal) : Prop where
  events_eq : later.events = event :: journal.events
  allocated_le : journal.allocated ≤ later.allocated
  created_le : journal.created ≤ later.created
  cache_le : ∀ cache granted, .allocate cache granted = event → cache ≤ later.allocated
  vm_le : ∀ vm cache granted, .createVm vm cache granted = event → vm ≤ later.created

theorem records_note (hcache : ∀ cache granted, .allocate cache granted ≠ event)
    (hvm : ∀ vm cache granted, .createVm vm cache granted ≠ event) :
    journal.Records event (journal.note event) where
  events_eq := rfl
  allocated_le := Nat.le_refl _
  created_le := Nat.le_refl _
  cache_le cache granted heq := absurd heq (hcache cache granted)
  vm_le vm cache granted heq := absurd heq (hvm vm cache granted)

theorem records_allocate (journal : Journal) (granted : Bool) :
    journal.Records (.allocate (journal.allocated + 1) granted) (journal.allocate granted) where
  events_eq := rfl
  allocated_le := Nat.le_succ _
  created_le := Nat.le_refl _
  cache_le := by
    rintro _ _ ⟨⟩
    exact Nat.le_refl _
  vm_le := nofun

theorem records_initialise (journal : Journal) (cache : Nat) (seed : List UInt8) (granted : Bool) :
    journal.Records (.initialise cache seed granted) (journal.initialise cache seed granted) where
  events_eq := rfl
  allocated_le := Nat.le_refl _
  created_le := Nat.le_refl _
  cache_le := nofun
  vm_le := nofun

theorem records_createVm (journal : Journal) (cache : Nat) (granted : Bool) :
    journal.Records (.createVm (journal.created + 1) cache granted)
      (journal.createVm cache granted) where
  events_eq := rfl
  allocated_le := Nat.le_refl _
  created_le := Nat.le_succ _
  cache_le := nofun
  vm_le := by
    rintro _ _ _ ⟨⟩
    exact Nat.le_refl _

theorem records_compute (journal : Journal) (vm length : Nat) (granted : Bool) :
    journal.Records (.compute (journal.computed + 1) vm length granted)
      (journal.compute vm length granted) where
  events_eq := rfl
  allocated_le := Nat.le_refl _
  created_le := Nat.le_refl _
  cache_le := nofun
  vm_le := nofun

/-- An ordered journal that has these caches and machines live, and counts what it was asked for. -/
structure Holds (journal : Journal) (caches vms : List Nat) : Prop where
  orderly : Orderly journal.events
  liveCaches_eq : liveCaches journal.events = caches
  liveVms_eq : liveVms journal.events = vms
  cache_le : ∀ cache granted, .allocate cache granted ∈ journal.events → cache ≤ journal.allocated
  vm_le : ∀ vm cache granted, .createVm vm cache granted ∈ journal.events → vm ≤ journal.created

theorem holds_empty : Journal.empty.Holds [] [] where
  orderly := trivial
  liveCaches_eq := rfl
  liveVms_eq := rfl
  cache_le _ _ hmem := nomatch hmem
  vm_le _ _ _ hmem := nomatch hmem

theorem Holds.cons (h : journal.Holds caches vms) (hrecords : journal.Records event later)
    (hpermitted : event.Permitted journal.events)
    (hcaches : liveCaches (event :: journal.events) = caches')
    (hvms : liveVms (event :: journal.events) = vms') : later.Holds caches' vms' where
  orderly := by
    rw [hrecords.events_eq]
    exact ⟨hpermitted, h.orderly⟩
  liveCaches_eq := by rw [hrecords.events_eq, hcaches]
  liveVms_eq := by rw [hrecords.events_eq, hvms]
  cache_le cache granted hmem := by
    rw [hrecords.events_eq] at hmem
    rcases List.mem_cons.mp hmem with heq | hearlier
    · exact hrecords.cache_le cache granted heq
    · exact (h.cache_le cache granted hearlier).trans hrecords.allocated_le
  vm_le vm cache granted hmem := by
    rw [hrecords.events_eq] at hmem
    rcases List.mem_cons.mp hmem with heq | hearlier
    · exact hrecords.vm_le vm cache granted heq
    · exact (h.vm_le vm cache granted hearlier).trans hrecords.created_le

/-- A call that leaves the live caches and machines as they are. -/
theorem Holds.other (h : journal.Holds caches vms) (hrecords : journal.Records event later)
    (hpermitted : event.Permitted journal.events)
    (hgranted : event.cache? = none ∧ event.vm? = none)
    (hgone : (∀ cache, .releaseCache cache ≠ event) ∧ ∀ vm, .destroyVm vm ≠ event) :
    later.Holds caches vms := by
  refine h.cons hrecords hpermitted ?_ ?_
  · rw [liveCaches_cons_of_other hgranted.1 hgone.1, h.liveCaches_eq]
  · rw [liveVms_cons_of_other hgranted.2 hgone.2, h.liveVms_eq]

theorem Holds.not_allocated (h : journal.Holds caches vms) (hnew : journal.allocated < cache) :
    .allocate cache granted ∉ journal.events :=
  fun hmem => absurd (h.cache_le cache granted hmem) (by omega)

theorem Holds.not_created (h : journal.Holds caches vms) (hnew : journal.created < vm) :
    .createVm vm cache granted ∉ journal.events :=
  fun hmem => absurd (h.vm_le vm cache granted hmem) (by omega)

theorem Holds.not_released (h : journal.Holds caches vms) (hnew : journal.allocated < cache) :
    .releaseCache cache ∉ journal.events := by
  intro hmem
  obtain ⟨event, hevent, hgranted⟩ := h.orderly.exists_granted mem_liveCaches_of_permitted hmem
  rw [cache?_eq_some_iff.mp hgranted] at hevent
  exact h.not_allocated hnew hevent

theorem Holds.not_destroyed (h : journal.Holds caches vms) (hnew : journal.created < vm) :
    .destroyVm vm ∉ journal.events := by
  intro hmem
  obtain ⟨event, hevent, hgranted⟩ := h.orderly.exists_granted mem_liveVms_of_permitted hmem
  obtain ⟨cache, rfl⟩ := vm?_eq_some_iff.mp hgranted
  exact h.not_created hnew hevent

theorem Holds.not_initialised (h : journal.Holds caches vms) (hnew : journal.allocated < cache) :
    .initialise cache seed true ∉ journal.events :=
  fun hmem => h.not_allocated hnew (h.orderly.allocate_mem_of_initialise hmem)

theorem Holds.mem_liveCaches (h : journal.Holds caches vms) (hlive : cache ∈ caches) :
    cache ∈ liveCaches journal.events := by
  rwa [h.liveCaches_eq]

theorem Holds.mem_liveVms (h : journal.Holds caches vms) (hlive : vm ∈ vms) :
    vm ∈ liveVms journal.events := by
  rwa [h.liveVms_eq]

/-! What each call does to the live caches and machines. -/

theorem Holds.flags (h : journal.Holds caches vms) : (journal.note .flags).Holds caches vms :=
  h.other (records_note nofun nofun) trivial ⟨rfl, rfl⟩ ⟨nofun, nofun⟩

theorem Holds.allocate_permitted (h : journal.Holds [] vms) (granted : Bool) :
    (LibraryEvent.allocate (journal.allocated + 1) granted).Permitted journal.events :=
  ⟨h.liveCaches_eq, fun _ => h.not_allocated (Nat.lt_succ_self _)⟩

theorem Holds.allocate_refused (h : journal.Holds [] vms) :
    (journal.allocate false).Holds [] vms :=
  h.other (records_allocate _ _) (h.allocate_permitted false) ⟨rfl, rfl⟩ ⟨nofun, nofun⟩

theorem Holds.allocate (h : journal.Holds [] vms) :
    (journal.allocate true).Holds [journal.allocated + 1] vms := by
  refine h.cons (records_allocate _ _) (h.allocate_permitted true) ?_ ?_
  · rw [liveCaches_cons_allocate (h.not_released (Nat.lt_succ_self _)), h.liveCaches_eq]
  · rw [liveVms_cons_of_other rfl (by nofun), h.liveVms_eq]

theorem Holds.initialise (h : journal.Holds caches vms) (hlive : cache ∈ caches)
    (seed : List UInt8) (granted : Bool) :
    (journal.initialise cache seed granted).Holds caches vms :=
  h.other (records_initialise _ _ _ _) (h.mem_liveCaches hlive) ⟨rfl, rfl⟩ ⟨nofun, nofun⟩

theorem Holds.createVm_permitted (h : journal.Holds caches vms) (hlive : cache ∈ caches)
    (hseed : .initialise cache seed true ∈ journal.events) (granted : Bool) :
    (LibraryEvent.createVm (journal.created + 1) cache granted).Permitted journal.events :=
  ⟨h.mem_liveCaches hlive, ⟨seed, hseed⟩, fun _ _ => h.not_created (Nat.lt_succ_self _)⟩

theorem Holds.createVm_refused (h : journal.Holds caches vms) (hlive : cache ∈ caches)
    (hseed : .initialise cache seed true ∈ journal.events) :
    (journal.createVm cache false).Holds caches vms :=
  h.other (records_createVm _ _ _) (h.createVm_permitted hlive hseed false) ⟨rfl, rfl⟩
    ⟨nofun, nofun⟩

theorem Holds.createVm (h : journal.Holds caches vms) (hlive : cache ∈ caches)
    (hseed : .initialise cache seed true ∈ journal.events) :
    (journal.createVm cache true).Holds caches ((journal.created + 1) :: vms) := by
  refine h.cons (records_createVm _ _ _) (h.createVm_permitted hlive hseed true) ?_ ?_
  · rw [liveCaches_cons_of_other rfl (by nofun), h.liveCaches_eq]
  · rw [liveVms_cons_createVm (h.not_destroyed (Nat.lt_succ_self _)), h.liveVms_eq]

theorem Holds.compute (h : journal.Holds caches vms) (hlive : vm ∈ vms) (length : Nat)
    (granted : Bool) : (journal.compute vm length granted).Holds caches vms :=
  h.other (records_compute _ _ _ _) (h.mem_liveVms hlive) ⟨rfl, rfl⟩ ⟨nofun, nofun⟩

theorem Holds.destroyVm (h : journal.Holds caches [vm]) :
    (journal.note (.destroyVm vm)).Holds caches [] := by
  refine h.cons (records_note nofun nofun) (h.mem_liveVms (List.mem_singleton_self vm)) ?_ ?_
  · rw [liveCaches_cons_of_other rfl (by nofun), h.liveCaches_eq]
  · rw [liveVms_cons_destroyVm, h.liveVms_eq]
    simp

/-- With no machine live, every machine on the cache is gone. -/
theorem Holds.releaseCache (h : journal.Holds [cache] []) :
    (journal.note (.releaseCache cache)).Holds [] [] := by
  have hlive := h.mem_liveCaches (List.mem_singleton_self cache)
  have hdestroyed : ∀ vm, LibraryEvent.createVm vm cache true ∈ journal.events →
      LibraryEvent.destroyVm vm ∈ journal.events := by
    intro vm hmem
    by_contra hleft
    have hvm : vm ∈ liveVms journal.events := mem_live.mpr ⟨⟨_, hmem, rfl⟩, hleft⟩
    rw [h.liveVms_eq] at hvm
    exact List.not_mem_nil hvm
  refine h.cons (records_note nofun nofun) ⟨hlive, hdestroyed⟩ ?_ ?_
  · rw [liveCaches_cons_releaseCache, h.liveCaches_eq]
    simp
  · rw [liveVms_cons_of_other rfl (by nofun), h.liveVms_eq]

end Journal

/-! ### The engine -/

variable {World Flags Cache Vm : Type} {library : HashLibrary World Flags Cache Vm}

/-- The cache and the machine of the context are what is live, and the cache was seeded with the
text of the seed that the context names and no other. -/
structure HashContext.Held (context : HashContext (Numbered Cache) (Numbered Vm))
    (journal : Journal) : Prop where
  holds : journal.Holds [context.cache.number] [context.vm.number]
  seeded : ∀ text, .initialise context.cache.number text true ∈ journal.events ↔
    text = context.seed.seedText

def HashEngine.Balanced (engine : HashEngine (Numbered Cache) (Numbered Vm)) (journal : Journal) :
    Prop :=
  match engine.context with
  | some context => context.Held journal
  | none => journal.Holds [] []

section

variable {engine next : HashEngine (Numbered Cache) (Numbered Vm)}
  {context : HashContext (Numbered Cache) (Numbered Vm)} {seed : BlockHash} {call : HashCall}
  {state after : World × Journal}

theorem HashContext.Held.close (h : context.Held state.2) :
    (context.close library.journaled state).2.Holds [] [] :=
  h.holds.destroyVm.releaseCache

theorem HashEngine.Balanced.close (h : engine.Balanced state.2) :
    (engine.close library.journaled state).2.Holds [] [] := by
  unfold HashEngine.close
  unfold HashEngine.Balanced at h
  cases hcontext : engine.context with
  | none => rwa [hcontext] at h
  | some context =>
    rw [hcontext] at h
    exact h.close

/-- A new cache is live and blank. -/
theorem Journal.Holds.of_allocateCache {flags : Flags} {asked : World × Journal}
    {blank : Numbered Cache} (hstate : state.2.Holds [] [])
    (hflags : library.journaled.flags state = (flags, asked))
    (hcache : library.journaled.allocateCache flags asked = (.ok blank, after)) :
    after.2.Holds [blank.number] [] ∧
      ∀ text, .initialise blank.number text true ∉ after.2.events := by
  obtain ⟨-, hasked⟩ := journaled_flags hflags
  obtain ⟨-, hafter, hnumber⟩ := journaled_allocateCache hcache
  have hblank : blank.number = state.2.allocated + 1 := by rw [hnumber blank rfl, hasked]; rfl
  rw [hafter, hasked]
  constructor
  · rw [hblank]
    exact hstate.flags.allocate
  · intro text hmem
    -- What was seeded before had been asked for under a counted number, and this number is new.
    have hearlier : .initialise blank.number text true ∈ state.2.events := by
      simpa [Journal.allocate, Journal.note, Except.isOk, Except.toBool] using hmem
    exact hstate.not_initialised (by omega) hearlier

/-- Seeding a blank cache is the one time it is seeded. -/
theorem Journal.Holds.of_initCache {blank cache : Numbered Cache} {text : List UInt8}
    (hstate : state.2.Holds [blank.number] [])
    (hblank : ∀ text, .initialise blank.number text true ∉ state.2.events)
    (hseed : library.journaled.initCache blank text state = (.ok cache, after)) :
    after.2.Holds [cache.number] [] ∧
      ∀ other, .initialise cache.number other true ∈ after.2.events ↔ other = text := by
  obtain ⟨-, hafter, hnumber⟩ := journaled_initCache hseed
  rw [hafter, hnumber cache rfl]
  constructor
  · exact hstate.initialise (List.mem_singleton_self _) text _
  · intro other
    simp [Journal.initialise, Except.isOk, Except.toBool, hblank]

/-- Building starts with nothing live and ends with nothing live or with a context. -/
theorem HashContext.balanced_of_build
    {built : Except HashLibraryError (HashContext (Numbered Cache) (Numbered Vm))}
    (hstate : state.2.Holds [] []) (h : build library.journaled seed state = (built, after)) :
    HashEngine.Balanced ⟨built.toOption⟩ after.2 := by
  rw [build_eq_iff] at h
  cases h with
  | noCache hflags hcache =>
    rw [(journaled_allocateCache hcache).2.1, (journaled_flags hflags).2]
    exact hstate.flags.allocate_refused
  | noSeed hflags hcache hseed =>
    obtain ⟨hallocated, -⟩ := hstate.of_allocateCache hflags hcache
    refine Journal.Holds.releaseCache ?_
    rw [(journaled_initCache hseed).2.1]
    exact hallocated.initialise (List.mem_singleton_self _) _ _
  | noVm hflags hcache hseed hvm =>
    obtain ⟨hallocated, hblank⟩ := hstate.of_allocateCache hflags hcache
    obtain ⟨hinitialised, hseeded⟩ := hallocated.of_initCache hblank hseed
    -- The refused machine was never live, so the cache can go at once.
    refine Journal.Holds.releaseCache ?_
    rw [(journaled_createVm hvm).2.1]
    exact hinitialised.createVm_refused (List.mem_singleton_self _) ((hseeded _).mpr rfl)
  | built hflags hcache hseed hvm =>
    obtain ⟨hallocated, hblank⟩ := hstate.of_allocateCache hflags hcache
    obtain ⟨hinitialised, hseeded⟩ := hallocated.of_initCache hblank hseed
    obtain ⟨-, hafter, hnumber⟩ := journaled_createVm hvm
    change HashContext.Held _ _
    rw [hafter]
    constructor
    · simp only [hnumber _ rfl]
      exact hinitialised.createVm (List.mem_singleton_self _) ((hseeded _).mpr rfl)
    · intro text
      simpa [Journal.createVm] using hseeded text

theorem HashEngine.Balanced.ready
    {context : Except HashLibraryError (HashContext (Numbered Cache) (Numbered Vm))}
    (h : engine.Balanced state.2)
    (hready : engine.ready library.journaled seed state = (context, after)) :
    HashEngine.Balanced ⟨context.toOption⟩ after.2 := by
  rcases ready_cases library.journaled engine seed state with
    ⟨held, hheld, -, hkept⟩ | ⟨-, hbuilt⟩
  · rw [hkept] at hready
    cases hready
    unfold Balanced at h
    rwa [hheld] at h
  · rw [hbuilt] at hready
    exact HashContext.balanced_of_build h.close hready

theorem HashContext.Held.compute {answer : Except HashLibraryError Digest} {data : List UInt8}
    (h : context.Held state.2)
    (hcompute : library.journaled.compute context.vm data state = (answer, after)) :
    context.Held after.2 := by
  rw [(journaled_compute hcompute).2]
  constructor
  · exact h.holds.compute (List.mem_singleton_self _) _ _
  · intro text
    simpa [Journal.compute] using h.seeded text

/-- What one call keeps. The memo is not among what is held. -/
theorem HashEngine.Balanced.asking {answer : Except EngineError Digest}
    (h : engine.Balanced state.2)
    (hasking : Asking library.journaled engine call state answer next after) :
    next.Balanced after.2 := by
  cases hasking with
  | unavailable hready => exact h.ready hready
  | recalled hready => exact h.ready hready
  | refused hready hrecall hcompute => exact HashContext.Held.compute (h.ready hready) hcompute
  | computed hready hrecall hcompute =>
    have hheld := HashContext.Held.compute (h.ready hready) hcompute
    exact ⟨hheld.holds, hheld.seeded⟩

theorem HashEngine.balanced_after (library : HashLibrary World Flags Cache Vm)
    (calls : List HashCall) (world : World) :
    (HashEngine.after library.journaled calls (world, .empty)).1.Balanced
      (HashEngine.after library.journaled calls (world, .empty)).2.2 := by
  refine after_induction (motive := fun engine (state : World × Journal) =>
    engine.Balanced state.2) ?_ ?_ calls
  · exact Journal.holds_empty
  · intro engine state call answer next after hasking hbalanced
    exact hbalanced.asking hasking

end

namespace HashEngine

/-- **Every cache is released once and every machine destroyed once.** For every library, whatever
it refuses, and whatever is asked of an engine before it ends: every library call was in order when
it was made, and by the end what was granted has gone exactly once. After every engine call the
current seed tells what is live. With a seed, it is one machine and one cache, which was seeded with
the text of that seed and no other; without one, nothing is live. Writing the calls down changes
neither the engine nor what becomes of the library. -/
theorem resources_balanced (library : HashLibrary World Flags Cache Vm) (calls : List HashCall)
    (world : World) :
    let engine := (after library.journaled calls (world, .empty)).1
    let state := (after library.journaled calls (world, .empty)).2
    let ended := engine.close library.journaled state
    (after library calls world = (engine.erase, state.1) ∧
      engine.erase.close library state.1 = ended.1) ∧
    Orderly ended.2.events ∧
    (∀ cache, .allocate cache true ∈ ended.2.events →
      ended.2.events.count (.releaseCache cache) = 1) ∧
    (∀ vm cache, .createVm vm cache true ∈ ended.2.events →
      ended.2.events.count (.destroyVm vm) = 1) ∧
    match (after library calls world).1.currentSeed with
    | some seed => ∃ cache vm, liveCaches state.2.events = [cache] ∧ liveVms state.2.events = [vm] ∧
        ∀ text, .initialise cache text true ∈ state.2.events ↔ text = seed.seedText
    | none => liveCaches state.2.events = [] ∧ liveVms state.2.events = [] := by
  intro engine state ended
  have hbalanced : engine.Balanced state.2 := balanced_after library calls world
  have hended : ended.2.Holds [] [] := hbalanced.close
  have hsame := after_erase library calls world .empty
  refine ⟨⟨hsame, close_erase library engine state⟩, hended.orderly, ?_, ?_, ?_⟩
  · intro cache hcache
    exact hended.orderly.count_gone_eq_one mem_liveCaches_of_permitted hended.liveCaches_eq
      hcache rfl
  · intro vm cache hvm
    exact hended.orderly.count_gone_eq_one mem_liveVms_of_permitted hended.liveVms_eq hvm rfl
  · have hcurrent : (after library calls world).1.currentSeed = engine.currentSeed := by
      rw [hsame, currentSeed_erase]
    rw [hcurrent, currentSeed]
    unfold Balanced at hbalanced
    cases hcontext : engine.context with
    | none =>
      rw [hcontext] at hbalanced
      exact ⟨hbalanced.liveCaches_eq, hbalanced.liveVms_eq⟩
    | some context =>
      rw [hcontext] at hbalanced
      exact ⟨_, _, hbalanced.holds.liveCaches_eq, hbalanced.holds.liveVms_eq, hbalanced.seeded⟩

/-- A rotation to a second seed is refused when its cache has been allocated. That cache goes once,
as do the first one and its machine, and nothing is live until the first seed is asked for again. -/
theorem resources_balanced_of_refused_rotation :
    let library := RecordingRules.secondSeedRefused.library
    let first : HashCall := { memoize := true, data := [1, 2], seed := ⟨Vector.replicate 32 1⟩ }
    let other : HashCall := { memoize := false, data := [3], seed := ⟨Vector.replicate 32 2⟩ }
    let refused := after library.journaled [first, other] (.empty, .empty)
    let rebuilt := after library.journaled [first, other, first] (.empty, .empty)
    let ended := rebuilt.1.close library.journaled rebuilt.2
    (liveCaches refused.2.2.events = [] ∧ liveVms refused.2.2.events = []) ∧
      (LibraryEvent.allocate 2 true ∈ ended.2.events ∧
        ended.2.events.count (.releaseCache 2) = 1) ∧
      LibraryEvent.createVm 1 1 true ∈ ended.2.events ∧
        ended.2.events.count (.destroyVm 1) = 1 := by
  intro library first other refused rebuilt ended
  have hnone : (after library [first, other] .empty).1.currentSeed = none := by decide +kernel
  have hrefused := (resources_balanced library [first, other] .empty).2.2.2.2
  rw [hnone] at hrefused
  obtain ⟨-, -, hcaches, hvms, -⟩ := resources_balanced library [first, other, first] .empty
  have hallocated : LibraryEvent.allocate 2 true ∈ ended.2.events := by decide +kernel
  have hcreated : LibraryEvent.createVm 1 1 true ∈ ended.2.events := by decide +kernel
  exact ⟨hrefused, ⟨hallocated, hcaches 2 hallocated⟩, hcreated, hvms 1 1 hcreated⟩

end HashEngine

end HybridConsensus
