import HybridConsensus.Proofs.CallEvents

/-!
# An engine works only where it must

A memo outlives the calls that fail, as long as they leave its context alone, and no call that
succeeds but the same one. So what a memo holds is told by the past alone: by the last call that
succeeded and by the seeds that were asked for since. A call for another seed closes the context
before anything is refused, which is why the seeds of failed calls count and their data does not.
-/

namespace HybridConsensus

/-! ### The past -/

structure AnsweredCall where
  call : HashCall
  answer : Except EngineError Digest

/-- The call is memoized, the last call that succeeded was the same, and all calls since then asked
for its seed. -/
def Recalled (past : List AnsweredCall) (call : HashCall) : Prop :=
  call.memoize = true ∧ ∃ earlier last failed, past = earlier ++ last :: failed ∧
    last.call = call ∧ last.answer.isOk = true ∧
    ∀ asked ∈ failed, asked.answer.isOk = false ∧ asked.call.seed = call.seed

section Past

variable {past earlier failed : List AnsweredCall} {newest last : AnsweredCall} {call : HashCall}

theorem not_recalled_nil : ¬Recalled [] call := by
  rintro ⟨-, earlier, last, failed, hpast, -⟩
  simp at hpast

/-- A call of a past that has a newest one is that one, or the newest stands behind it. -/
theorem concat_eq_append_cons (h : past ++ [newest] = earlier ++ last :: failed) :
    failed = [] ∧ last = newest ∨
      ∃ before, failed = before ++ [newest] ∧ past = earlier ++ last :: before := by
  rcases List.eq_nil_or_concat failed with rfl | ⟨before, other, rfl⟩
  · obtain ⟨-, hlast⟩ := List.append_inj' h rfl
    exact .inl ⟨rfl, (List.head_eq_of_cons_eq hlast).symm⟩
  · have hsplit : past ++ [newest] = (earlier ++ last :: before) ++ [other] := by simpa using h
    obtain ⟨hpast, hother⟩ := List.append_inj' hsplit rfl
    refine .inr ⟨before, ?_, hpast⟩
    rw [List.concat_eq_append, List.head_eq_of_cons_eq hother]

theorem recalled_concat_of_ok (hok : newest.answer.isOk = true) :
    Recalled (past ++ [newest]) call ↔ call.memoize = true ∧ newest.call = call := by
  refine and_congr_right fun _ => ?_
  constructor
  · rintro ⟨earlier, last, failed, hpast, hcall, -, hsince⟩
    rcases concat_eq_append_cons hpast with ⟨-, rfl⟩ | ⟨before, rfl, -⟩
    · exact hcall
    · -- The newest call would be among those that failed.
      obtain ⟨hfailed, -⟩ := hsince newest (by simp)
      rw [hok] at hfailed
      cases hfailed
  · intro hcall
    exact ⟨past, newest, [], rfl, hcall, hok, fun _ hnone => nomatch hnone⟩

theorem recalled_concat_of_failed (hfailed : newest.answer.isOk = false) :
    Recalled (past ++ [newest]) call ↔ newest.call.seed = call.seed ∧ Recalled past call := by
  constructor
  · rintro ⟨hmemoize, earlier, last, failed, hpast, hcall, hok, hsince⟩
    rcases concat_eq_append_cons hpast with ⟨-, rfl⟩ | ⟨before, rfl, hbefore⟩
    · rw [hfailed] at hok
      cases hok
    · obtain ⟨-, hseed⟩ := hsince newest (by simp)
      refine ⟨hseed, hmemoize, earlier, last, before, hbefore, hcall, hok, ?_⟩
      exact fun asked hasked => hsince asked (List.mem_append_left _ hasked)
  · rintro ⟨hseed, hmemoize, earlier, last, before, rfl, hcall, hok, hsince⟩
    refine ⟨hmemoize, earlier, last, before ++ [newest], by simp, hcall, hok, ?_⟩
    intro asked hasked
    rcases List.mem_append.mp hasked with hbefore | hnewest
    · exact hsince asked hbefore
    · rw [List.mem_singleton.mp hnewest]
      exact ⟨hfailed, hseed⟩

end Past

/-! ### The memo -/

variable {World Flags Cache Vm : Type} {library : HashLibrary World Flags Cache Vm}

theorem HashContext.recall?_eq_some_iff {context : HashContext Cache Vm} {data : List UInt8}
    {output : Digest} :
    context.recall? data = some output ↔ context.memo = some (data, output) := by
  unfold HashContext.recall?
  split <;> simp_all

theorem HashContext.isSome_recall?_iff {context : HashContext Cache Vm} {data : List UInt8} :
    (context.recall? data).isSome = true ↔ ∃ output, context.memo = some (data, output) := by
  rw [Option.isSome_iff_exists]
  exact exists_congr fun output => HashContext.recall?_eq_some_iff

namespace HashEngine

section Memo

variable {engine next : HashEngine Cache Vm} {context : HashContext Cache Vm}
  {call asked : HashCall} {seed : BlockHash} {world after : World}
  {answer : Except EngineError Digest}

/-- The memo of the engine answers the call. -/
def Recalls (engine : HashEngine Cache Vm) (call : HashCall) : Prop :=
  call.memoize = true ∧ ∃ context ∈ engine.context, context.seed = call.seed ∧
    (context.recall? call.data).isSome = true

theorem recalls_of_context (hcontext : engine.context = some context) :
    engine.Recalls call ↔ call.memoize = true ∧ context.seed = call.seed ∧
      (context.recall? call.data).isSome = true := by
  simp [Recalls, hcontext]

theorem Recalls.currentSeed_eq (h : engine.Recalls call) :
    engine.currentSeed = some call.seed := by
  obtain ⟨-, context, hcontext, hseed, -⟩ := h
  rw [currentSeed, Option.mem_def.mp hcontext, Option.map_some, hseed]

/-- A context that is ready is one for the seed. It was there, or it is new and has no memo. -/
theorem ready_eq_ok (h : engine.ready library seed world = (.ok context, after)) :
    context.seed = seed ∧ (engine.context = some context ∨
      engine.currentSeed ≠ some seed ∧ context.memo = none) := by
  rcases ready_cases library engine seed world with ⟨held, hheld, hseed, hkept⟩ | ⟨hseed, hbuilt⟩
  · rw [hkept] at h
    cases h
    exact ⟨hseed, .inl hheld⟩
  · rw [hbuilt, HashContext.build_eq_iff] at h
    cases h
    exact ⟨rfl, .inr ⟨hseed, rfl⟩⟩

/-- A ready context recalls what the engine recalled. -/
theorem recalls_iff_of_ready (h : engine.ready library asked.seed world = (.ok context, after))
    (hseed : asked.seed = call.seed) :
    engine.Recalls call ↔ call.memoize = true ∧ (context.recall? call.data).isSome = true := by
  obtain ⟨hcontext, hheld | ⟨hother, hempty⟩⟩ := ready_eq_ok h
  · rw [recalls_of_context hheld, hcontext, hseed]
    simp
  · constructor
    · intro hrecalls
      rw [hseed] at hother
      exact absurd hrecalls.currentSeed_eq hother
    · rintro ⟨-, hsome⟩
      simp [HashContext.recall?, hempty] at hsome

/-- The engine recalls what the memo of the ready context is asked for. -/
theorem recalls_iff_isSome (h : engine.ready library call.seed world = (.ok context, after)) :
    engine.Recalls call ↔
      (if call.memoize then context.recall? call.data else none).isSome = true := by
  rw [recalls_iff_of_ready h rfl]
  cases call.memoize <;> simp

theorem eq_of_ready (h : engine.ready library seed world = (.ok context, after))
    (hcurrent : engine.currentSeed = some seed) : ⟨some context⟩ = engine := by
  obtain ⟨-, hheld | ⟨hother, -⟩⟩ := ready_eq_ok h
  · exact congrArg HashEngine.mk hheld.symm
  · exact absurd hcurrent hother

theorem not_recalls_of_unavailable {cause : HashLibraryError}
    (h : engine.ready library asked.seed world = (.error cause, after))
    (hseed : asked.seed = call.seed) : ¬engine.Recalls call := by
  rintro ⟨-, context, hcontext, hcall, -⟩
  rw [ready_of_seed_eq hcontext (hcall.trans hseed.symm)] at h
  cases h

theorem not_recalls_of_no_memo (hempty : context.memo = none) :
    ¬Recalls ⟨some context⟩ call := by
  simp [Recalls, HashContext.recall?, hempty]

/-- A memo answers the one call it was made by. -/
theorem recalls_iff_of_memo {output : Digest} (hseed : context.seed = asked.seed)
    (hmemoize : asked.memoize = true) (hmemo : context.memo = some (asked.data, output)) :
    Recalls ⟨some context⟩ call ↔ call.memoize = true ∧ asked = call := by
  rw [recalls_of_context rfl, HashContext.isSome_recall?_iff, hmemo, hseed]
  refine and_congr_right fun hcall => ?_
  constructor
  · rintro ⟨hseed, other, hsame⟩
    have hdata : asked.data = call.data := congrArg Prod.fst (Option.some.inj hsame)
    cases asked; cases call
    simp_all
  · rintro rfl
    exact ⟨rfl, output, rfl⟩

/-- What a memo answers after a call that succeeded. -/
theorem recalls_iff_of_ok (hasking : Asking library engine asked world answer next after)
    (hok : answer.isOk = true) : next.Recalls call ↔ call.memoize = true ∧ asked = call := by
  cases hasking with
  | unavailable => cases hok
  | refused => cases hok
  | recalled hready hrecall =>
    obtain ⟨hmemoize, hmemo⟩ := Option.ite_none_right_eq_some.mp hrecall
    exact recalls_iff_of_memo (ready_eq_ok hready).1 hmemoize
      (HashContext.recall?_eq_some_iff.mp hmemo)
  | computed hready hrecall hcompute =>
    by_cases hmemoize : asked.memoize = true
    · exact recalls_iff_of_memo (ready_eq_ok hready).1 hmemoize (if_pos hmemoize)
    · refine iff_of_false (not_recalls_of_no_memo (if_neg hmemoize)) ?_
      rintro ⟨hcall, rfl⟩
      exact hmemoize hcall

/-- What a memo answers after a call that failed. -/
theorem recalls_iff_of_failed (hasking : Asking library engine asked world answer next after)
    (hfailed : answer.isOk = false) :
    next.Recalls call ↔ asked.seed = call.seed ∧ engine.Recalls call := by
  cases hasking with
  | recalled => cases hfailed
  | computed => cases hfailed
  | unavailable hready =>
    constructor
    · rintro ⟨-, context, hnone, -⟩
      cases hnone
    · rintro ⟨hseed, hrecalls⟩
      exact absurd hrecalls (not_recalls_of_unavailable hready hseed)
  | refused hready hrecall hcompute =>
    rw [recalls_of_context rfl, (ready_eq_ok hready).1]
    constructor
    · rintro ⟨hmemoize, hseed, hsome⟩
      exact ⟨hseed, (recalls_iff_of_ready hready hseed).mpr ⟨hmemoize, hsome⟩⟩
    · rintro ⟨hseed, hrecalls⟩
      obtain ⟨hmemoize, hsome⟩ := (recalls_iff_of_ready hready hseed).mp hrecalls
      exact ⟨hmemoize, hseed, hsome⟩

end Memo

/-! ### Runs -/

/-- The calls to an engine with its answers, oldest first. -/
def answersTo (library : HashLibrary World Flags Cache Vm) (engine : HashEngine Cache Vm)
    (world : World) : List HashCall → List AnsweredCall
  | [] => []
  | call :: later =>
    let (answer, next, after) := engine.ask library call world
    { call, answer } :: answersTo library next after later

/-- What a new engine has been asked and has answered. -/
def history (library : HashLibrary World Flags Cache Vm) (calls : List HashCall) (world : World) :
    List AnsweredCall :=
  answersTo library idle world calls

theorem answersTo_concat (library : HashLibrary World Flags Cache Vm)
    (engine : HashEngine Cache Vm) (world : World) (calls : List HashCall) (call : HashCall) :
    answersTo library engine world (calls ++ [call]) =
      answersTo library engine world calls ++
        let state := calls.foldl (fun state call => (state.1.ask library call state.2).2)
          (engine, world)
        [{ call, answer := (state.1.ask library call state.2).1 }] := by
  induction calls generalizing engine world with
  | nil => rfl
  | cons first calls ih => exact congrArg (_ :: ·) (ih _ _)

theorem history_concat (library : HashLibrary World Flags Cache Vm) (calls : List HashCall)
    (call : HashCall) (world : World) :
    history library (calls ++ [call]) world = history library calls world ++
      [{ call, answer := ((after library calls world).1.ask library call
          (after library calls world).2).1 }] :=
  answersTo_concat library idle world calls call

theorem after_concat (library : HashLibrary World Flags Cache Vm) (calls : List HashCall)
    (call : HashCall) (world : World) :
    after library (calls ++ [call]) world =
      ((after library calls world).1.ask library call (after library calls world).2).2 := by
  simp [after]

/-- The memo is told by the past. -/
theorem recalls_after_iff (library : HashLibrary World Flags Cache Vm) (calls : List HashCall)
    (world : World) (call : HashCall) :
    (after library calls world).1.Recalls call ↔ Recalled (history library calls world) call := by
  induction calls using List.reverseRecOn with
  | nil =>
    refine iff_of_false ?_ not_recalled_nil
    rintro ⟨-, context, hnone, -⟩
    cases hnone
  | append_singleton calls asked ih =>
    rcases hasked : (after library calls world).1.ask library asked
      (after library calls world).2 with ⟨answer, next, later⟩
    have hasking := ask_eq_iff.mp hasked
    rw [after_concat, history_concat, hasked]
    cases hanswer : answer.isOk with
    | true => rw [recalls_iff_of_ok hasking hanswer, recalled_concat_of_ok hanswer]
    | false => rw [recalls_iff_of_failed hasking hanswer, recalled_concat_of_failed hanswer, ih]

/-! ### The work of a call -/

/-- What a call does, read off its events, and what becomes of it and of the engine. -/
structure NecessaryWork (engine next : HashEngine Cache Vm) (call : HashCall)
    (answer : Except EngineError Digest) (past : List AnsweredCall) (events : List LibraryEvent) :
    Prop where
  allocations_eq : events.countP (·.isAllocation) =
    if engine.currentSeed = some call.seed then 0 else 1
  unavailable : events.any (·.refusesContext) = true → next.currentSeed = none ∧
    (∃ cause, answer = .error (.context call.seed cause)) ∧ events.countP (·.isComputation) = 0
  available : events.any (·.refusesContext) = false → next.currentSeed = some call.seed
  refused : events.any (·.refusesHash) = true → next.currentSeed = some call.seed ∧
    (∃ cause, answer = .error (.compute cause)) ∧
    (engine.currentSeed = some call.seed → next = engine)
  answered : events.any (·.refusesContext) = false → events.any (·.refusesHash) = false →
    answer.isOk = true
  skipped : events.any (·.refusesContext) = false → Recalled past call →
    events.countP (·.isComputation) = 0
  computed : events.any (·.refusesContext) = false → ¬Recalled past call →
    events.countP (·.isComputation) = 1

section Work

variable {engine next : HashEngine (Numbered Cache) (Numbered Vm)} {call : HashCall}
  {state after : World × Journal} {answer : Except EngineError Digest} {past : List AnsweredCall}
  {events : List LibraryEvent}

theorem recalls_erase (engine : HashEngine (Numbered Cache) (Numbered Vm)) (call : HashCall) :
    engine.erase.Recalls call ↔ engine.Recalls call := by
  unfold Recalls erase
  cases engine.context with
  | none => simp
  | some context => simp [HashContext.erase, HashContext.recall?]

theorem NecessaryWork.erase (h : NecessaryWork engine next call answer past events) :
    NecessaryWork engine.erase next.erase call answer past events := by
  constructor
  case allocations_eq => simpa using h.allocations_eq
  case unavailable => simpa using h.unavailable
  case available => simpa using h.available
  case refused =>
    intro hrefused
    obtain ⟨hseed, hanswer, hkept⟩ := h.refused hrefused
    rw [currentSeed_erase, currentSeed_erase]
    exact ⟨hseed, hanswer, fun hcurrent => congrArg HashEngine.erase (hkept hcurrent)⟩
  case answered => exact h.answered
  case skipped => exact h.skipped
  case computed => exact h.computed

/-- The events of a call that leaves a context. -/
theorem NecessaryWork.of_tallies {allocations computations : Nat} {refused : Bool}
    (htallies : Tallies events allocations computations false refused)
    (hallocations : allocations = if engine.currentSeed = some call.seed then 0 else 1)
    (hseed : next.currentSeed = some call.seed)
    (hrefused : refused = true → (∃ cause, answer = .error (.compute cause)) ∧
      (engine.currentSeed = some call.seed → next = engine))
    (hanswered : refused = false → answer.isOk = true)
    (hskipped : Recalled past call → computations = 0)
    (hcomputed : ¬Recalled past call → computations = 1) :
    NecessaryWork engine next call answer past events := by
  obtain ⟨hcaches, hhashes, hcontext, hhash⟩ := htallies
  constructor
  case allocations_eq => rw [hcaches, hallocations]
  case unavailable =>
    intro hunavailable
    rw [hcontext] at hunavailable
    cases hunavailable
  case available => exact fun _ => hseed
  case refused => exact fun h => ⟨hseed, hrefused (hhash.symm.trans h)⟩
  case answered => exact fun _ h => hanswered (hhash.symm.trans h)
  case skipped => exact fun _ h => hhashes.trans (hskipped h)
  case computed => exact fun _ h => hhashes.trans (hcomputed h)

/-- What one call does. -/
theorem exists_necessaryWork
    (hasking : Asking library.journaled engine call state answer next after)
    (hmemo : engine.Recalls call ↔ Recalled past call) :
    ∃ events, after.2.events = events ++ state.2.events ∧
      NecessaryWork engine next call answer past events := by
  cases hasking with
  | unavailable hready =>
    obtain ⟨events, hevents, hcaches, hhashes, hcontext, hhash⟩ := exists_events_of_ready hready
    have hrefused : events.any (·.refusesContext) ≠ false := Bool.ne_false_iff.mpr hcontext
    refine ⟨events, hevents, hcaches, fun _ => ⟨rfl, ⟨_, rfl⟩, hhashes⟩, ?_, ?_, ?_, ?_, ?_⟩
    · exact fun h => absurd h hrefused
    · intro h
      rw [hhash] at h
      cases h
    all_goals exact fun h => absurd h hrefused
  | recalled hready hrecall =>
    obtain ⟨events, hevents, htallies⟩ := exists_events_of_ready hready
    have hrecalled : Recalled past call := by
      rw [← hmemo, recalls_iff_isSome hready, hrecall, Option.isSome_some]
    refine ⟨events, hevents, .of_tallies htallies rfl ?_ nofun (fun _ => rfl) (fun _ => rfl) ?_⟩
    · exact congrArg some (ready_eq_ok hready).1
    · exact fun h => absurd hrecalled h
  | refused hready hrecall hcompute =>
    obtain ⟨events, hevents, htallies⟩ := exists_events_of_ready hready
    have hrecalled : ¬Recalled past call := by
      rw [← hmemo, recalls_iff_isSome hready, hrecall]
      simp
    rw [(journaled_compute hcompute).2]
    refine ⟨_ :: events, congrArg (_ :: ·) hevents,
      .of_tallies ((tallies_compute _ _ _ _).append htallies) (Nat.zero_add _) ?_ ?_ nofun ?_ ?_⟩
    · exact congrArg some (ready_eq_ok hready).1
    · exact fun _ => ⟨⟨_, rfl⟩, eq_of_ready hready⟩
    · exact fun h => absurd h hrecalled
    · exact fun _ => rfl
  | computed hready hrecall hcompute =>
    obtain ⟨events, hevents, htallies⟩ := exists_events_of_ready hready
    have hrecalled : ¬Recalled past call := by
      rw [← hmemo, recalls_iff_isSome hready, hrecall]
      simp
    rw [(journaled_compute hcompute).2]
    refine ⟨_ :: events, congrArg (_ :: ·) hevents,
      .of_tallies ((tallies_compute _ _ _ _).append htallies) (Nat.zero_add _) ?_ nofun
        (fun _ => rfl) ?_ ?_⟩
    · exact congrArg some (ready_eq_ok hready).1
    · exact fun h => absurd h hrecalled
    · exact fun _ => rfl

end Work

/-- **An engine does no more than it must.** For every library, whatever it refuses, and whatever
was asked of the engine before: a call asks for a cache exactly if the current seed is another.
After it the current seed is that of the call, unless a part of the context was refused in it. Then
there is none and the call fails for want of the context of its seed. A refused computation is
another error and leaves the context as it was. With the context there, a hash is computed once, or
not at all exactly if the call is memoized, the last call that succeeded was the same, and all calls
since then asked for its seed. Writing the calls to the library down changes no answer. -/
theorem works_where_needed (library : HashLibrary World Flags Cache Vm) (earlier : List HashCall)
    (call : HashCall) (world : World) :
    let engine := (after library earlier world).1
    let answered := engine.ask library call (after library earlier world).2
    let before := after library.journaled earlier (world, .empty)
    let recorded := before.1.ask library.journaled call before.2
    recorded.1 = answered.1 ∧
      ∃ events, recorded.2.2.2.events = events ++ before.2.2.events ∧
        NecessaryWork engine answered.2.1 call answered.1 (history library earlier world)
          events := by
  intro engine answered before recorded
  have hbefore : after library earlier world = (before.1.erase, before.2.1) :=
    after_erase library earlier world .empty
  have hsame : answered = (recorded.1, recorded.2.1.erase, recorded.2.2.1) := by
    simp only [answered, engine, hbefore]
    exact ask_erase library before.1 call before.2
  have hengine : engine = before.1.erase := congrArg Prod.fst hbefore
  have hmemo : before.1.Recalls call ↔ Recalled (history library earlier world) call := by
    rw [← recalls_erase, ← hengine]
    exact recalls_after_iff library earlier world call
  obtain ⟨events, hevents, hwork⟩ := exists_necessaryWork (ask_eq_iff.mp rfl) hmemo
  rw [hsame, hengine]
  exact ⟨rfl, events, hevents, hwork.erase⟩

end HashEngine

end HybridConsensus
