import HybridConsensus.Engine.SeedLaw
import HybridConsensus.Proofs.JournaledRun

/-!
# An engine is a function of seed and data

The memo of an engine is looked up by the data alone, and the seed it was computed under stands
nowhere in it. It is the right one only because a context and its memo never outlive each other: a
context for another seed is closed before anything is asked of it, and a new one has an empty memo.
So the invariant is on the context as a whole. Its machine works for the seed the context names, and
what its memo recalls is the hash under that seed.
-/

namespace HybridConsensus

variable {World Flags Cache Vm : Type} {library : HashLibrary World Flags Cache Vm}
  {output : (seed data : List UInt8) → Digest}

/-- The law holds of the library with its calls written down as it holds of the library. -/
def HashLibrary.SeedLaw.journaled (law : library.SeedLaw output) :
    library.journaled.SeedLaw output where
  blank state cache := law.blank state.1 cache.item
  made state cache seed := law.made state.1 cache.item seed
  works state vm seed := law.works state.1 vm.item seed
  blank_of_allocateCache h := law.blank_of_allocateCache (journaled_allocateCache h).1
  made_of_initCache hblank h := law.made_of_initCache hblank (journaled_initCache h).1
  works_of_createVm hmade h := law.works_of_createVm hmade (journaled_createVm h).1
  works_after_compute hworks h := law.works_after_compute hworks (journaled_compute h).1
  output_of_compute hworks h := law.output_of_compute hworks (journaled_compute h).1

/-- A context that answers for the seed it names. -/
structure HashContext.Serves (law : library.SeedLaw output) (context : HashContext Cache Vm)
    (world : World) : Prop where
  works : law.works world context.vm context.seed.seedText
  recalls : ∀ data hash, context.recall? data = some hash →
    hash = output context.seed.seedText data

def HashEngine.Serves (law : library.SeedLaw output) (engine : HashEngine Cache Vm)
    (world : World) : Prop :=
  ∀ context ∈ engine.context, context.Serves law world

section

variable {law : library.SeedLaw output} {engine : HashEngine Cache Vm}
  {context : HashContext Cache Vm} {seed : BlockHash} {world after : World}

theorem HashContext.serves_of_build (law : library.SeedLaw output)
    (h : build library seed world = (.ok context, after)) :
    context.seed = seed ∧ context.Serves law after := by
  rw [build_eq_iff] at h
  cases h with
  | built hflags hcache hseed hvm =>
    have hblank := law.blank_of_allocateCache hcache
    have hmade := law.made_of_initCache hblank hseed
    exact ⟨rfl, law.works_of_createVm hmade hvm, fun _ _ h => nomatch h⟩

theorem HashEngine.Serves.ready (h : engine.Serves law world)
    (hready : engine.ready library seed world = (.ok context, after)) :
    context.seed = seed ∧ context.Serves law after := by
  rcases ready_cases library engine seed world with ⟨held, hheld, hseed, hkept⟩ | ⟨-, hbuilt⟩
  · rw [hkept] at hready
    cases hready
    exact ⟨hseed, h context hheld⟩
  · rw [hbuilt] at hready
    exact HashContext.serves_of_build law hready

/-- The memo after a computation recalls that computation or nothing. -/
theorem HashContext.recall?_memo (context : HashContext Cache Vm) (memoize : Bool)
    {data input : List UInt8} {hash result : Digest}
    (h : { context with memo := if memoize then some (data, hash) else none }.recall? input =
      some result) : input = data ∧ result = hash := by
  cases memoize with
  | false => cases h
  | true =>
    simp only [HashContext.recall?, ↓reduceIte, Option.ite_none_right_eq_some,
      Option.some.injEq] at h
    exact ⟨h.1.symm, h.2.symm⟩

/-- What one call keeps, and what it answers. -/
theorem HashEngine.Serves.asking {call : HashCall} {answer : Except EngineError Digest}
    {next : HashEngine Cache Vm} (h : engine.Serves law world)
    (hasking : Asking library engine call world answer next after) :
    next.Serves law after ∧
      ∀ hash, answer = .ok hash → hash = output call.seed.seedText call.data := by
  cases hasking with
  | unavailable => exact ⟨fun _ hnone => (nomatch hnone), fun _ herror => nomatch herror⟩
  | @recalled context after result hready hrecall =>
    obtain ⟨hseed, hserves⟩ := h.ready hready
    rw [Option.ite_none_right_eq_some] at hrecall
    constructor
    · rintro _ ⟨⟩
      exact hserves
    · rintro _ ⟨⟩
      rw [← hseed]
      exact hserves.recalls _ _ hrecall.2
  | refused hready hrecall hcompute =>
    obtain ⟨hseed, hserves⟩ := h.ready hready
    constructor
    · rintro _ ⟨⟩
      exact ⟨law.works_after_compute hserves.works hcompute, hserves.recalls⟩
    · exact fun _ h => nomatch h
  | computed hready hrecall hcompute =>
    obtain ⟨hseed, hserves⟩ := h.ready hready
    have hhash := law.output_of_compute hserves.works hcompute
    constructor
    · rintro _ ⟨⟩
      refine ⟨law.works_after_compute hserves.works hcompute, ?_⟩
      -- The new memo is that of this call or empty, so the old one does not matter.
      intro input result hresult
      obtain ⟨rfl, rfl⟩ := HashContext.recall?_memo _ _ hresult
      exact hhash
    · rintro _ ⟨⟩
      rw [← hseed]
      exact hhash

theorem HashEngine.serves_after (law : library.SeedLaw output) (calls : List HashCall)
    (world : World) :
    (HashEngine.after library calls world).1.Serves law
      (HashEngine.after library calls world).2 := by
  refine after_induction (motive := fun engine world => engine.Serves law world) ?_ ?_ calls
  · exact fun _ h => nomatch h
  · intro engine world call answer next after hasking hserves
    exact (hserves.asking hasking).1

end

namespace HashEngine

/-- **An engine gives the hash of the seed and the data, or its library refused.** Whatever calls it
has answered and failed before, and whether the memo, the live context or a rebuilt one answers: a
call that succeeds gives the library's function of the seed text and the data, and a call that fails
does so because the library refused a call made in it. Writing the library's calls down, which the
second half needs, changes no answer. -/
theorem answer_eq_output_or_refused (law : library.SeedLaw output) (earlier : List HashCall)
    (call : HashCall) (world : World) :
    let answered := (after library earlier world).1.ask library call (after library earlier world).2
    let engine := (after library.journaled earlier (world, .empty)).1
    let before := (after library.journaled earlier (world, .empty)).2
    let recorded := engine.ask library.journaled call before
    (∀ hash, answered.1 = .ok hash → hash = output call.seed.seedText call.data) ∧
      recorded.1 = answered.1 ∧
      ∀ error, answered.1 = .error error → before.2.Refused recorded.2.2.2 := by
  intro answered engine before recorded
  have hsame : answered = (recorded.1, recorded.2.1.erase, recorded.2.2.1) := by
    have hafter := after_erase library earlier world .empty
    simp only [answered, hafter]
    exact ask_erase library engine call before
  have hanswer : recorded.1 = answered.1 := by rw [hsame]
  refine ⟨?_, hanswer, ?_⟩
  · intro hash hhash
    exact ((serves_after law earlier world).asking (ask_eq_iff.mp rfl)).2 hash hhash
  · intro error herror
    rw [← hanswer] at herror
    exact refused_of_ask_eq_error herror

/-- A memoized call is repeated, a call under another seed is refused after the context has been
closed for it, and the first call is answered as before. -/
theorem answer_eq_output_or_refused_of_rotation :
    let library := RecordingRules.secondSeedRefused.library
    let first : HashCall := { memoize := true, data := [1, 2], seed := ⟨Vector.replicate 32 1⟩ }
    let other : HashCall := { memoize := false, data := [3], seed := ⟨Vector.replicate 32 2⟩ }
    let held := after library.journaled [first, first] (.empty, .empty)
    let state := after library [first, first, other] .empty
    held.2.2.Refused (held.1.ask library.journaled other held.2).2.2.2 ∧
      (state.1.ask library first state.2).1 = .ok (mixedOutput first.seed.seedText first.data) := by
  intro library first other held state
  have law := RecordingRules.secondSeedRefused.seedLaw
  have hbefore := answer_eq_output_or_refused law [first, first] other .empty
  have hafter := answer_eq_output_or_refused law [first, first, other] first .empty
  constructor
  · let before := after library [first, first] .empty
    have hfailed : (before.1.ask library other before.2).1.isOk = false := by decide +kernel
    obtain ⟨error, herror⟩ := exists_of_isOk_eq_false hfailed
    exact hbefore.2.2 error herror
  · have hanswered : (state.1.ask library first state.2).1.isOk = true := by decide +kernel
    obtain ⟨hash, hhash⟩ := exists_of_isOk hanswered
    rw [hhash, hafter.1 hash hhash]
    rfl

end HashEngine

end HybridConsensus
