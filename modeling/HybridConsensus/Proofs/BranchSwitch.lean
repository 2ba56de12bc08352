import HybridConsensus.Proofs.HeightLookup
import Mathlib.Data.List.Basic

/-!
# Switching the active branch

A reorganisation keeps a stump of the active branch and puts the blocks of the other branch on it,
and whatever was on the stump before is gone. Nothing is lost by that, because the active branch of
a well-formed store is the path down from its tip and no more: it is known once the tip is known. So
the branch that is built up is the path to the new tip, however often it has been cut before, and
switching back to the old tip gives the old branch entry by entry.
-/

namespace HybridConsensus.ChainStore

variable {store : ChainStore} {block older other fork found : BlockRecord} {height : Nat}

/-! ### Parts of a branch -/

/-- A walk splits a branch into what it passes and the branch of the block it stops at. -/
theorem Rooted.lineage_eq_append (h : Rooted store.records) (hmem : block ∈ store.records)
    {stop : BlockRecord → Bool} (hfind : (store.lineage block).find? stop = some found) :
    store.lineage block =
      (store.lineage block).takeWhile (!stop ·) ++ store.lineage found := by
  induction block, hmem using h.descent with
  | genesis block hmem hnone =>
    have hlineage := lineage_of_predecessor_none hnone
    have hfound := List.mem_of_find?_eq_some hfind
    have hstop := List.find?_some hfind
    rw [hlineage, List.mem_singleton] at hfound
    subst hfound
    rw [hlineage, List.takeWhile_cons_of_neg (by simp [hstop]), List.nil_append]
  | step block hmem under hunder hsome ih =>
    rw [lineage_of_predecessor_some hsome] at hfind ⊢
    by_cases hstop : stop block = true
    · rw [List.find?_cons_of_pos hstop, Option.some.injEq] at hfind
      rw [← hfind, List.takeWhile_cons_of_neg (by simp [hstop]), List.nil_append,
        lineage_of_predecessor_some hsome]
    · rw [List.find?_cons_of_neg hstop] at hfind
      rw [List.takeWhile_cons_of_pos (by simp [hstop]), List.cons_append, ← ih hfind]

theorem Rooted.lineage_subset (h : Rooted store.records) (hmem : block ∈ store.records)
    (holder : older ∈ store.lineage block) : store.lineage older ⊆ store.lineage block := by
  induction block, hmem using h.descent with
  | genesis block hmem hnone =>
    rw [lineage_of_predecessor_none hnone, List.mem_singleton] at holder
    rw [holder]
    exact List.Subset.refl _
  | step block hmem under hunder hsome ih =>
    have hlineage := lineage_of_predecessor_some hsome
    rw [hlineage, List.mem_cons] at holder
    rcases holder with rfl | holder
    · exact List.Subset.refl _
    · rw [hlineage]
      exact List.Subset.trans (ih holder) (List.subset_cons_self _ _)

/-! ### The active branch, entry by entry -/

theorem WellFormed.take_active (h : store.WellFormed) (hmem : block ∈ store.records)
    (hactive : store.isActive block = true) :
    store.active.toList.take (block.height + 1) = (store.lineage block).reverse.map (·.id) := by
  induction block, hmem using h.rooted.descent with
  | genesis block hmem hnone =>
    have hgenesis := (h.rooted.predecessor?_eq_none_iff hmem).mp hnone
    have hzero := (h.rooted.isGenesis_iff_height hmem).mp hgenesis
    rw [isActive_iff] at hactive
    rw [List.take_add_one, Array.getElem?_toList, hactive, hzero, lineage_of_predecessor_none hnone]
    rfl
  | step block hmem under hunder hsome ih =>
    have hheight := (h.rooted.of_predecessor? hmem hsome).2.2
    have hlineage := lineage_of_predecessor_some hsome
    have hbelow : under ∈ store.lineage block := by
      rw [hlineage]
      exact List.mem_cons_of_mem _ (store.self_mem_lineage under)
    have hkept := ih (h.isActive_of_mem_lineage hmem hactive under hbelow)
    rw [isActive_iff] at hactive
    rw [List.take_add_one, Array.getElem?_toList, hactive, hheight, hkept, hlineage,
      List.reverse_cons, List.map_append]
    rfl

/-- The tip determines the active branch. -/
theorem WellFormed.active_eq (h : store.WellFormed) :
    store.active.toList = (store.lineage store.tip).reverse.map (·.id) := by
  obtain ⟨htip, hactive⟩ := h.tip_mem_and_isActive
  rw [← h.take_active htip hactive, ← h.active_size, ← Array.length_toList, List.take_length]

theorem WellFormed.activeBlocks_eq (h : store.WellFormed) :
    store.activeBlocks = (store.lineage store.tip).reverse := by
  have hstored : ∀ block ∈ (store.lineage store.tip).reverse,
      store.records[block.id]? = some block := by
    intro block hblock
    have htip := h.tip_mem_and_isActive.1
    exact h.rooted.getElem?_id
      (h.rooted.mem_of_mem_lineage htip block (List.mem_reverse.mp hblock)).1
  calc store.activeBlocks
      = (store.lineage store.tip).reverse.filterMap (fun block => store.records[block.id]?) := by
        rw [activeBlocks, h.active_eq, List.filterMap_map]
        rfl
    _ = (store.lineage store.tip).reverse.filterMap some := List.filterMap_congr hstored
    _ = (store.lineage store.tip).reverse := List.filterMap_some

theorem WellFormed.mem_lineage_tip_iff (h : store.WellFormed) (hmem : block ∈ store.records) :
    block ∈ store.lineage store.tip ↔ store.isActive block = true := by
  obtain ⟨htip, hactive⟩ := h.tip_mem_and_isActive
  constructor
  · exact h.isActive_of_mem_lineage htip hactive block
  · intro hblock
    have hfound := h.atHeight?_of_isActive hmem hblock
    rw [h.atHeight?_eq_ancestor?_tip, h.ancestor?_eq_some_iff htip] at hfound
    exact hfound.1

/-- A well-formed store whose entries are the path to a block has that block for its tip. -/
theorem WellFormed.tip_eq_of_active_eq (h : store.WellFormed) (hmem : block ∈ store.records)
    (hactive : store.active.toList = (store.lineage block).reverse.map (·.id)) :
    store.tip = block := by
  have hpaths := h.active_eq.symm.trans hactive
  rw [List.map_reverse, List.map_reverse, List.reverse_inj, lineage, lineage, List.map_cons,
    List.map_cons] at hpaths
  have hid := (List.cons.inj hpaths).1
  have htip := h.rooted.getElem?_id h.tip_mem_and_isActive.1
  rw [hid, h.rooted.getElem?_id hmem, Option.some.injEq] at htip
  exact htip.symm

/-! ### Forks -/

theorem IsFork.symm {left right : BlockRecord} (hfork : store.IsFork left right fork) :
    store.IsFork right left fork :=
  ⟨hfork.mem_right, hfork.mem_left, fun common hright hleft => hfork.highest common hleft hright⟩

theorem IsFork.height_eq {left right : BlockRecord} (hfork : store.IsFork left right fork)
    (hother : store.IsFork left right other) : fork.height = other.height :=
  Nat.le_antisymm (hother.highest fork hfork.mem_left hfork.mem_right)
    (hfork.highest other hother.mem_left hother.mem_right)

/-- The blocks that two branches share are those up to the fork. -/
theorem Rooted.mem_lineage_iff_of_isFork (h : Rooted store.records) {left right : BlockRecord}
    (hleft : left ∈ store.records) (hright : right ∈ store.records)
    (hfork : store.IsFork left right fork) (hother : other ∈ store.lineage left) :
    other ∈ store.lineage right ↔ other.height ≤ fork.height := by
  constructor
  · exact hfork.highest other hother
  · intro hle
    have hmemFork := (h.mem_of_mem_lineage hleft fork hfork.mem_left).1
    obtain ⟨shared, hshared, hheight⟩ := h.exists_mem_lineage hmemFork hle
    have heq : shared = other :=
      h.eq_of_height_eq hleft (h.lineage_subset hleft hfork.mem_left hshared) hother hheight
    exact h.lineage_subset hright hfork.mem_right (heq ▸ hshared)

/-- The first active block on the way down is the fork with the old tip. -/
theorem WellFormed.isFork_of_find? (h : store.WellFormed) (hmem : block ∈ store.records)
    (hfind : (store.lineage block).find? store.isActive = some found) :
    store.IsFork store.tip block found := by
  have hbelow := List.mem_of_find?_eq_some hfind
  have hfound := (h.rooted.mem_of_mem_lineage hmem found hbelow).1
  refine ⟨(h.mem_lineage_tip_iff hfound).mpr (List.find?_some hfind), hbelow, ?_⟩
  intro common htip hcommon
  have hmemCommon := (h.rooted.mem_of_mem_lineage hmem common hcommon).1
  exact h.rooted.height_le_of_find?_lineage hmem hfind common hcommon
    ((h.mem_lineage_tip_iff hmemCommon).mp htip)

/-! ### What a switch does -/

attribute [ext] ChainStore

theorem switchTo_places (store : ChainStore) (block : BlockRecord) :
    (store.switchTo block).1.places = store.places := by
  unfold switchTo
  split <;> rfl

theorem WellFormed.switchTo_active (h : store.WellFormed) (hmem : block ∈ store.records) :
    (store.switchTo block).1.active.toList = (store.lineage block).reverse.map (·.id) := by
  obtain ⟨stump, hstump, hmoved⟩ := h.switchTo_eq hmem
  have hbelow := List.mem_of_find?_eq_some hstump
  have hkept := h.take_active (h.rooted.mem_of_mem_lineage hmem stump hbelow).1
    (List.find?_some hstump)
  rw [hmoved, Array.toList_append, Array.toList_shrink, hkept,
    ← List.map_append, ← List.reverse_append, ← h.rooted.lineage_eq_append hmem hstump]

theorem WellFormed.lineage_switchTo (h : store.WellFormed) (hmem : block ∈ store.records)
    (hother : other ∈ store.records) :
    (store.switchTo block).1.lineage other = store.lineage other := by
  refine h.rooted.lineage_eq_of_extends (h.switchTo hmem).rooted ?_ hother
  rw [switchTo_records]
  exact Extends.refl _

theorem WellFormed.switchTo_tip (h : store.WellFormed) (hmem : block ∈ store.records) :
    (store.switchTo block).1.tip = block := by
  have hkept : block ∈ (store.switchTo block).1.records := by rwa [switchTo_records]
  refine (h.switchTo hmem).tip_eq_of_active_eq hkept ?_
  rw [h.switchTo_active hmem, h.lineage_switchTo hmem hmem]

theorem WellFormed.switchTo_reorg (h : store.WellFormed) (hmem : block ∈ store.records)
    (hfork : store.IsFork store.tip block fork) :
    (store.switchTo block).2 =
      { disconnected := store.tip.height - fork.height
        connected := block.height - fork.height } := by
  obtain ⟨stump, hstump, -⟩ := h.switchTo_eq hmem
  have hheight := (h.isFork_of_find? hmem hstump).height_eq hfork
  have hmemStump := (h.rooted.mem_of_mem_lineage hmem stump (List.mem_of_find?_eq_some hstump)).1
  -- The branch is as long as what was passed and what lies below the stump together.
  have hlength := congrArg List.length (h.rooted.lineage_eq_append hmem hstump)
  rw [List.length_append, h.rooted.length_lineage hmem,
    h.rooted.length_lineage hmemStump] at hlength
  unfold ChainStore.switchTo pathTo
  rw [pathOnto_eq_reverse, hstump, List.append_nil, Option.toList_some, List.singleton_append]
  simp only [List.length_reverse, Reorg.mk.injEq]
  rw [h.active_size, hheight]
  omega

theorem WellFormed.atHeight?_switchTo (h : store.WellFormed) (hmem : block ∈ store.records)
    (height : Nat) :
    (store.switchTo block).1.atHeight? height = store.ancestor? block height := by
  have hmoved := h.switchTo hmem
  have hkept : block ∈ (store.switchTo block).1.records := by rwa [switchTo_records]
  ext older
  rw [hmoved.atHeight?_eq_ancestor?_tip, h.switchTo_tip hmem, hmoved.ancestor?_eq_some_iff hkept,
    h.ancestor?_eq_some_iff hmem, h.lineage_switchTo hmem hmem]

/-- `moved` is `store` with the branch of `block` for the active one, and `reorg` counts what was
taken off and put on above the fork. -/
structure Switched (store moved : ChainStore) (block fork : BlockRecord) (reorg : Reorg) :
    Prop where
  records_eq : moved.records = store.records
  places_eq : moved.places = store.places
  activeBlocks_eq : moved.activeBlocks = (store.lineage block).reverse
  tip_eq : moved.tip = block
  atHeight?_eq : ∀ height, moved.atHeight? height = store.ancestor? block height
  isFork : store.IsFork store.tip block fork
  disconnected_add : reorg.disconnected + fork.height = store.tip.height
  connected_add : reorg.connected + fork.height = block.height
  shared : ∀ other ∈ store.activeBlocks, other ∈ moved.activeBlocks ↔ other.height ≤ fork.height

theorem WellFormed.switched (h : store.WellFormed) (hmem : block ∈ store.records)
    (hfork : store.IsFork store.tip block fork) :
    store.Switched (store.switchTo block).1 block fork (store.switchTo block).2 := by
  have hmoved := h.switchTo hmem
  have htip := h.switchTo_tip hmem
  have hmemTip := h.tip_mem_and_isActive.1
  have hpath : (store.switchTo block).1.activeBlocks = (store.lineage block).reverse := by
    rw [hmoved.activeBlocks_eq, htip, h.lineage_switchTo hmem hmem]
  constructor
  case records_eq => exact store.switchTo_records block
  case places_eq => exact store.switchTo_places block
  case activeBlocks_eq => exact hpath
  case tip_eq => exact htip
  case atHeight?_eq => exact h.atHeight?_switchTo hmem
  case isFork => exact hfork
  case disconnected_add =>
    have hle := (h.rooted.mem_of_mem_lineage hmemTip fork hfork.mem_left).2
    rw [h.switchTo_reorg hmem hfork]
    exact Nat.sub_add_cancel hle
  case connected_add =>
    have hle := (h.rooted.mem_of_mem_lineage hmem fork hfork.mem_right).2
    rw [h.switchTo_reorg hmem hfork]
    exact Nat.sub_add_cancel hle
  case shared =>
    intro other hother
    rw [h.activeBlocks_eq, List.mem_reverse] at hother
    rw [hpath, List.mem_reverse]
    exact h.rooted.mem_lineage_iff_of_isFork hmemTip hmem hfork hother

/-- Switching back to the old tip gives the old store. -/
theorem WellFormed.switchTo_switchTo (h : store.WellFormed) (hmem : block ∈ store.records) :
    ((store.switchTo block).1.switchTo store.tip).1 = store := by
  have hmoved := h.switchTo hmem
  have htip := h.tip_mem_and_isActive.1
  have hkept : store.tip ∈ (store.switchTo block).1.records := by rwa [switchTo_records]
  have hrecords : ((store.switchTo block).1.switchTo store.tip).1.records = store.records := by
    rw [switchTo_records, switchTo_records]
  have hplaces : ((store.switchTo block).1.switchTo store.tip).1.places = store.places := by
    rw [switchTo_places, switchTo_places]
  have hactive : ((store.switchTo block).1.switchTo store.tip).1.active = store.active := by
    rw [← Array.toList_inj, hmoved.switchTo_active hkept, h.lineage_switchTo hmem htip, h.active_eq]
  exact ChainStore.ext hrecords hplaces hactive

theorem WellFormed.activate_activate (h : store.WellFormed) (hmem : block ∈ store.records)
    {reorg : Reorg} (hswitched : store.Switched (store.switchTo block).1 block fork reorg) :
    (store.switchTo block).1.activate store.tip.hash =
      (store, .ok { disconnected := reorg.connected, connected := reorg.disconnected }) := by
  have hmoved := h.switchTo hmem
  have htip := h.tip_mem_and_isActive.1
  have hkept : store.tip ∈ (store.switchTo block).1.records := by rwa [switchTo_records]
  have hfork : (store.switchTo block).1.IsFork (store.switchTo block).1.tip store.tip fork := by
    rw [hswitched.tip_eq]
    obtain ⟨hleft, hright, hhighest⟩ := hswitched.isFork.symm
    constructor
    · rwa [h.lineage_switchTo hmem hmem]
    · rwa [h.lineage_switchTo hmem htip]
    · rwa [h.lineage_switchTo hmem hmem, h.lineage_switchTo hmem htip]
  have hdisconnected := hswitched.disconnected_add
  have hconnected := hswitched.connected_add
  rw [hmoved.activate_hash hkept, h.switchTo_switchTo hmem, hmoved.switchTo_reorg hkept hfork,
    hswitched.tip_eq]
  congr 3 <;> omega

theorem WellFormed.activate_of_not_mem (h : store.WellFormed) {hash : BlockHash}
    (hfree : ∀ block ∈ store.records, block.hash ≠ hash) :
    store.activate hash = (store, .error (.unknownBlock hash)) := by
  unfold ChainStore.activate
  cases hfind : store.find? hash with
  | none => rfl
  | some block =>
    obtain ⟨hmem, hhash⟩ := h.find?_eq_some_iff.mp hfind
    exact absurd hhash (hfree block hmem)

/-- **What activating a block does.** The block becomes the tip and the path to it the active
branch. Above the fork the old blocks are gone and counted, and the new ones are there and counted.
Activating the old tip gives the old store, with the counts the other way round. A hash that is not
stored changes nothing. -/
theorem activate_switches_and_restores (h : store.Reachable) :
    (∀ block ∈ store.records, ∃ moved reorg fork,
      store.activate block.hash = (moved, .ok reorg) ∧ store.Switched moved block fork reorg ∧
      moved.activate store.tip.hash =
        (store, .ok { disconnected := reorg.connected, connected := reorg.disconnected })) ∧
      ∀ hash, (∀ block ∈ store.records, block.hash ≠ hash) →
        store.activate hash = (store, .error (.unknownBlock hash)) := by
  have hwell := h.wellFormed
  refine ⟨?_, fun hash => hwell.activate_of_not_mem⟩
  intro block hmem
  obtain ⟨fork, hfork⟩ := hwell.rooted.exists_isFork hwell.tip_mem_and_isActive.1 hmem
  have hswitched := hwell.switched hmem hfork
  exact ⟨_, _, fork, hwell.activate_hash hmem, hswitched, hwell.activate_activate hmem hswitched⟩

/-- Back to a shorter branch, and forth again. -/
theorem activate_switches_and_restores_of_shorter_branch :
    ∃ side ∈ withSideBranch.records, ∃ moved,
      withSideBranch.tip.height = 3 ∧ side.height = 2 ∧
      withSideBranch.activate side.hash = (moved, .ok { disconnected := 2, connected := 1 }) ∧
      moved.tip = side ∧ moved.activeBlocks = (withSideBranch.lineage side).reverse ∧
      moved.activate withSideBranch.tip.hash =
        (withSideBranch, .ok { disconnected := 1, connected := 2 }) ∧
      withSideBranch.activate (numbered 9 .work 0 0).hash =
        (withSideBranch, .error (.unknownBlock (numbered 9 .work 0 0).hash)) := by
  have hreachable : withSideBranch.Reachable := ⟨_, _, rfl⟩
  let side : BlockRecord := { numbered 2 .stake 300 0x1d00ffff with
    id := 2, height := 2, parent := some 1 }
  have hmem : side ∈ withSideBranch.records := by decide +kernel
  obtain ⟨hstored, hunknown⟩ := activate_switches_and_restores hreachable
  obtain ⟨moved, reorg, fork, hactivate, hswitched, hback⟩ := hstored side hmem
  have hcounts : (withSideBranch.activate side.hash).2 =
      .ok { disconnected := 2, connected := 1 } := by decide +kernel
  rw [hactivate, Except.ok.injEq] at hcounts
  rw [hcounts] at hactivate hback
  exact ⟨side, hmem, moved, by decide +kernel, rfl, hactivate, hswitched.tip_eq,
    hswitched.activeBlocks_eq, hback, hunknown _ (by decide +kernel)⟩

end HybridConsensus.ChainStore
