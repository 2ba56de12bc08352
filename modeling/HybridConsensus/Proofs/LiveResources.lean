import HybridConsensus.Engine.Journaled
import Mathlib.Tactic.Common

/-!
# What a log of library calls has live

A cache is live from the call that grants it to the call that gives it back, and so is a machine.
Which are live can be read off the log, and so can whether each call was in order when it was made:
no cache is asked for while one is live, a machine only on a seeded cache, and a cache goes only
after every machine on it. In an ordered log nothing goes twice, and if nothing is live at its end,
everything that was granted has gone exactly once.
-/

namespace HybridConsensus

/-! ### Live resources

Events are in the order of a journal, newest first. -/

/-- The numbers of what events have granted and no event has taken back. -/
def live (granted? : LibraryEvent → Option Nat) (gone : Nat → LibraryEvent)
    (events : List LibraryEvent) : List Nat :=
  (events.filterMap granted?).filter fun number => gone number ∉ events

def LibraryEvent.cache? : LibraryEvent → Option Nat
  | .allocate cache true => some cache
  | _ => none

def LibraryEvent.vm? : LibraryEvent → Option Nat
  | .createVm vm _ true => some vm
  | _ => none

def liveCaches (events : List LibraryEvent) : List Nat :=
  live LibraryEvent.cache? .releaseCache events

def liveVms (events : List LibraryEvent) : List Nat :=
  live LibraryEvent.vm? .destroyVm events

section Live

variable {granted? : LibraryEvent → Option Nat} {gone : Nat → LibraryEvent}
  {event : LibraryEvent} {events : List LibraryEvent} {number : Nat}

theorem mem_live : number ∈ live granted? gone events ↔
    (∃ event ∈ events, granted? event = some number) ∧ gone number ∉ events := by
  simp [live]

theorem live_cons_of_other (hgranted : granted? event = none)
    (hgone : ∀ number, gone number ≠ event) :
    live granted? gone (event :: events) = live granted? gone events := by
  simp [live, hgranted, hgone]

theorem live_cons_of_granted (hgranted : granted? event = some number)
    (hgone : ∀ number, gone number ≠ event) (hnew : gone number ∉ events) :
    live granted? gone (event :: events) = number :: live granted? gone events := by
  simp [live, hgranted, hgone, hnew]

theorem live_cons_of_gone (hgranted : granted? (gone number) = none)
    (hgone : ∀ other, gone other = gone number → other = number) :
    live granted? gone (gone number :: events) =
      (live granted? gone events).filter (· ≠ number) := by
  unfold live
  rw [List.filterMap_cons_none hgranted, List.filter_filter]
  -- Only the number that goes is judged anew by the longer log.
  refine List.filter_congr fun other _ => ?_
  by_cases hother : other = number
  · simp [hother]
  · have hne : gone other ≠ gone number := fun heq => hother (hgone other heq)
    simp [hother, hne]

theorem liveCaches_cons_of_other (hgranted : event.cache? = none)
    (hgone : ∀ cache, .releaseCache cache ≠ event) :
    liveCaches (event :: events) = liveCaches events :=
  live_cons_of_other hgranted hgone

theorem liveVms_cons_of_other (hgranted : event.vm? = none) (hgone : ∀ vm, .destroyVm vm ≠ event) :
    liveVms (event :: events) = liveVms events :=
  live_cons_of_other hgranted hgone

theorem liveCaches_cons_allocate {cache : Nat} (hnew : .releaseCache cache ∉ events) :
    liveCaches (.allocate cache true :: events) = cache :: liveCaches events :=
  live_cons_of_granted rfl (fun _ => nofun) hnew

theorem liveVms_cons_createVm {vm cache : Nat} (hnew : .destroyVm vm ∉ events) :
    liveVms (.createVm vm cache true :: events) = vm :: liveVms events :=
  live_cons_of_granted rfl (fun _ => nofun) hnew

theorem liveCaches_cons_releaseCache (cache : Nat) (events : List LibraryEvent) :
    liveCaches (.releaseCache cache :: events) = (liveCaches events).filter (· ≠ cache) :=
  live_cons_of_gone rfl fun _ => LibraryEvent.releaseCache.inj

theorem liveVms_cons_destroyVm (vm : Nat) (events : List LibraryEvent) :
    liveVms (.destroyVm vm :: events) = (liveVms events).filter (· ≠ vm) :=
  live_cons_of_gone rfl fun _ => LibraryEvent.destroyVm.inj

end Live

/-! ### Ordered logs -/

/-- The call is in order after the earlier events. What it asks for goes by a number that no earlier
call has asked under. -/
def LibraryEvent.Permitted (earlier : List LibraryEvent) : LibraryEvent → Prop
  | .flags => True
  | .allocate cache _ =>
    liveCaches earlier = [] ∧ ∀ granted, LibraryEvent.allocate cache granted ∉ earlier
  | .initialise cache _ _ => cache ∈ liveCaches earlier
  | .createVm vm cache _ =>
    cache ∈ liveCaches earlier ∧ (∃ seed, LibraryEvent.initialise cache seed true ∈ earlier) ∧
      ∀ other granted, LibraryEvent.createVm vm other granted ∉ earlier
  | .compute _ vm _ _ => vm ∈ liveVms earlier
  | .destroyVm vm => vm ∈ liveVms earlier
  | .releaseCache cache =>
    cache ∈ liveCaches earlier ∧
      ∀ vm, LibraryEvent.createVm vm cache true ∈ earlier → LibraryEvent.destroyVm vm ∈ earlier

/-- Every call was in order when it was made. -/
def Orderly : List LibraryEvent → Prop
  | [] => True
  | event :: earlier => event.Permitted earlier ∧ Orderly earlier

section Orderly

variable {granted? : LibraryEvent → Option Nat} {gone : Nat → LibraryEvent}
  {event : LibraryEvent} {events : List LibraryEvent} {number : Nat}

/-- What has gone had been granted. -/
theorem Orderly.exists_granted
    (hgone : ∀ number earlier, (gone number).Permitted earlier →
      number ∈ live granted? gone earlier)
    (h : Orderly events) (hmem : gone number ∈ events) :
    ∃ event ∈ events, granted? event = some number := by
  induction events with
  | nil => cases hmem
  | cons event earlier ih =>
    have hfound : ∃ event ∈ earlier, granted? event = some number := by
      rcases List.mem_cons.mp hmem with rfl | hearlier
      · exact (mem_live.mp (hgone number earlier h.1)).1
      · exact ih h.2 hearlier
    obtain ⟨found, hfound, hgranted⟩ := hfound
    exact ⟨found, List.mem_cons_of_mem _ hfound, hgranted⟩

/-- Nothing goes twice. -/
theorem Orderly.count_gone_le_one
    (hgone : ∀ number earlier, (gone number).Permitted earlier →
      number ∈ live granted? gone earlier)
    (h : Orderly events) (number : Nat) : events.count (gone number) ≤ 1 := by
  induction events with
  | nil => exact Nat.zero_le _
  | cons event earlier ih =>
    by_cases heq : event = gone number
    · subst heq
      have hfirst : gone number ∉ earlier := (mem_live.mp (hgone number earlier h.1)).2
      have hnone : earlier.count (gone number) = 0 := List.count_eq_zero_of_not_mem hfirst
      rw [List.count_cons_self]
      omega
    · rw [List.count_cons_of_ne heq]
      exact ih h.2

/-- If nothing is live in the end, what was granted has gone exactly once. -/
theorem Orderly.count_gone_eq_one
    (hgone : ∀ number earlier, (gone number).Permitted earlier →
      number ∈ live granted? gone earlier)
    (h : Orderly events) (hlive : live granted? gone events = []) (hmem : event ∈ events)
    (hgranted : granted? event = some number) : events.count (gone number) = 1 := by
  have hnotLive : number ∉ live granted? gone events := by
    rw [hlive]
    exact List.not_mem_nil
  have hwent : gone number ∈ events := by
    by_contra hnever
    exact hnotLive (mem_live.mpr ⟨⟨event, hmem, hgranted⟩, hnever⟩)
  have hmost := h.count_gone_le_one hgone number
  have hleast := List.count_pos_iff.mpr hwent
  omega

theorem mem_liveCaches_of_permitted (cache : Nat) (earlier : List LibraryEvent)
    (h : (LibraryEvent.releaseCache cache).Permitted earlier) : cache ∈ liveCaches earlier :=
  h.1

theorem mem_liveVms_of_permitted (vm : Nat) (earlier : List LibraryEvent)
    (h : (LibraryEvent.destroyVm vm).Permitted earlier) : vm ∈ liveVms earlier :=
  h

theorem cache?_eq_some_iff {cache : Nat} :
    event.cache? = some cache ↔ event = .allocate cache true := by
  unfold LibraryEvent.cache?
  split <;> simp_all

theorem vm?_eq_some_iff {vm : Nat} :
    event.vm? = some vm ↔ ∃ cache, event = .createVm vm cache true := by
  unfold LibraryEvent.vm?
  split <;> simp_all

/-- Only a granted cache is ever seeded. -/
theorem Orderly.allocate_mem_of_initialise {cache : Nat} {seed : List UInt8} {granted : Bool}
    (h : Orderly events) (hmem : .initialise cache seed granted ∈ events) :
    .allocate cache true ∈ events := by
  induction events with
  | nil => cases hmem
  | cons event earlier ih =>
    refine List.mem_cons_of_mem _ ?_
    rcases List.mem_cons.mp hmem with rfl | hearlier
    · obtain ⟨⟨found, hfound, hgranted⟩, -⟩ := mem_live.mp h.1
      rwa [cache?_eq_some_iff.mp hgranted] at hfound
    · exact ih h.2 hearlier

end Orderly

end HybridConsensus
