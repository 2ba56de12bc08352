import HybridConsensus.Proofs.Descent

/-!
# Forks

Two branches share the blocks from genesis up to their fork. A reorganisation walks down from the
new tip and takes the first active block it meets for the fork with the old tip, without looking at
the old tip at all. That is right because, going down, blocks only get lower, and because what lies
below the old tip is active. So whatever lies no higher than the fork stays where it was.
-/

namespace HybridConsensus.ChainStore

variable {store : ChainStore} {block left right fork : BlockRecord} {height : Nat}

/-! ### The fork of two branches -/

/-- `fork` is the highest of the blocks that lie on both branches. -/
structure IsFork (store : ChainStore) (left right fork : BlockRecord) : Prop where
  mem_left : fork ∈ store.lineage left
  mem_right : fork ∈ store.lineage right
  highest : ∀ common ∈ store.lineage left, common ∈ store.lineage right →
    common.height ≤ fork.height

theorem Rooted.genesis_mem_lineage (h : Rooted store.records) (hmem : block ∈ store.records) :
    store.genesis ∈ store.lineage block := by
  induction block, hmem using h.descent with
  | genesis block hmem hnone =>
    have hgenesis := (h.predecessor?_eq_none_iff hmem).mp hnone
    have hheight := (h.isGenesis_iff_height hmem).mp hgenesis
    rw [lineage_of_predecessor_none hnone, List.mem_singleton]
    exact ((h.eq_genesis_iff hmem).mpr hheight).symm
  | step block _ older _ hsome ih =>
    rw [lineage_of_predecessor_some hsome]
    exact List.mem_cons_of_mem _ ih

/-- Of the blocks of a branch with some property, the first on the way down is the highest. -/
theorem Rooted.height_le_of_find?_lineage (h : Rooted store.records) (hmem : block ∈ store.records)
    {test : BlockRecord → Bool} {found : BlockRecord}
    (hfind : (store.lineage block).find? test = some found) :
    ∀ older ∈ store.lineage block, test older = true → older.height ≤ found.height := by
  induction block, hmem using h.descent with
  | genesis block _ hnone =>
    intro older holder _
    rw [lineage_of_predecessor_none hnone] at hfind holder
    have hfound := List.mem_of_find?_eq_some hfind
    rw [List.mem_singleton] at holder hfound
    exact Nat.le_of_eq (by rw [holder, hfound])
  | step block hmem under hunder hsome ih =>
    intro older holder htest
    cases hblock : test block with
    | true =>
      have hle := (h.mem_of_mem_lineage hmem older holder).2
      rw [lineage_of_predecessor_some hsome, List.find?_cons_of_pos hblock,
        Option.some.injEq] at hfind
      exact hfind ▸ hle
    | false =>
      have hpassed : ¬test block = true := Bool.eq_false_iff.mp hblock
      rw [lineage_of_predecessor_some hsome, List.find?_cons_of_neg hpassed] at hfind
      rw [lineage_of_predecessor_some hsome, List.mem_cons] at holder
      rcases holder with rfl | holder
      · exact absurd htest hpassed
      · exact ih hfind older holder htest

/-- A walk down that would stop at genesis stops. -/
theorem Rooted.exists_find?_lineage (h : Rooted store.records) (hmem : block ∈ store.records)
    (test : BlockRecord → Bool) (hgenesis : test store.genesis = true) :
    ∃ found, (store.lineage block).find? test = some found := by
  rw [← Option.isSome_iff_exists, List.find?_isSome]
  exact ⟨store.genesis, h.genesis_mem_lineage hmem, hgenesis⟩

theorem Rooted.exists_isFork (h : Rooted store.records) (hleft : left ∈ store.records)
    (hright : right ∈ store.records) : ∃ fork, store.IsFork left right fork := by
  have hgenesis : decide (store.genesis ∈ store.lineage left) = true :=
    decide_eq_true (h.genesis_mem_lineage hleft)
  -- Going down from the one, the first block that is also on the branch of the other.
  obtain ⟨fork, hfork⟩ :=
    h.exists_find?_lineage hright (fun block => decide (block ∈ store.lineage left)) hgenesis
  have hshared := List.find?_some hfork
  refine ⟨fork, of_decide_eq_true hshared, List.mem_of_find?_eq_some hfork, ?_⟩
  intro common hcommonLeft hcommonRight
  exact h.height_le_of_find?_lineage hright hfork common hcommonRight (decide_eq_true hcommonLeft)

/-! ### The active branch -/

theorem WellFormed.exists_atHeight? (h : store.WellFormed) (hlt : height < store.active.size) :
    ∃ block ∈ store.records, store.atHeight? height = some block ∧ block.height = height ∧
      store.isActive block = true := by
  have hid := Array.getElem?_eq_getElem hlt
  obtain ⟨block, hblock, hheight⟩ := h.climbs.stored height _ hid
  have hmem := mem_of_getElem?_id hblock
  have hplace := h.rooted.id_eq _ _ hblock
  refine ⟨block, hmem, ?_, hheight, ?_⟩
  · unfold atHeight?
    rw [hid]
    exact hblock
  · rw [isActive_iff, hheight, hplace]
    exact hid

theorem height_lt_size_of_isActive (hactive : store.isActive block = true) :
    block.height < store.active.size :=
  (Array.getElem?_eq_some_iff.mp (isActive_iff.mp hactive)).1

theorem WellFormed.active_size_pos (h : store.WellFormed) : 0 < store.active.size :=
  (Array.getElem?_eq_some_iff.mp h.climbs.genesis).1

theorem WellFormed.atHeight?_top (h : store.WellFormed) :
    store.atHeight? (store.active.size - 1) = some store.tip := by
  obtain ⟨block, -, hblock, -⟩ := h.exists_atHeight? (Nat.sub_one_lt_of_lt h.active_size_pos)
  unfold tip
  rw [hblock, Option.getD_some]

theorem WellFormed.tip_mem_and_isActive (h : store.WellFormed) :
    store.tip ∈ store.records ∧ store.isActive store.tip = true := by
  obtain ⟨block, hmem, hblock, -, hactive⟩ :=
    h.exists_atHeight? (Nat.sub_one_lt_of_lt h.active_size_pos)
  rw [h.atHeight?_top, Option.some.injEq] at hblock
  rw [hblock]
  exact ⟨hmem, hactive⟩

theorem WellFormed.active_size (h : store.WellFormed) :
    store.active.size = store.tip.height + 1 := by
  have hpos := h.active_size_pos
  obtain ⟨block, -, hblock, hheight, -⟩ := h.exists_atHeight? (Nat.sub_one_lt_of_lt hpos)
  rw [h.atHeight?_top, Option.some.injEq] at hblock
  rw [hblock, hheight, Nat.sub_add_cancel hpos]

/-! ### Reorganisations -/

/-- A reorganisation cuts the active branch at the first active block on the way down and puts the
blocks above that one on the stump. -/
theorem WellFormed.switchTo_eq (h : store.WellFormed) (hmem : block ∈ store.records) :
    ∃ stump, (store.lineage block).find? store.isActive = some stump ∧
      (store.switchTo block).1.active = store.active.shrink (stump.height + 1) ++
        (((store.lineage block).takeWhile (!store.isActive ·)).reverse.map (·.id)).toArray := by
  have hgenesis : store.isActive store.genesis = true := by
    have hfirst := mem_of_getElem?_id store.getElem?_zero
    exact h.isActive_of_isGenesis hfirst
      (isGenesis_iff.mpr (h.rooted.genesis _ store.getElem?_zero).1)
  obtain ⟨stump, hstump⟩ := h.rooted.exists_find?_lineage hmem store.isActive hgenesis
  refine ⟨stump, hstump, ?_⟩
  unfold ChainStore.switchTo pathTo
  rw [pathOnto_eq_reverse, hstump, List.append_nil, Option.toList_some, List.singleton_append]

theorem WellFormed.activate_hash (h : store.WellFormed) (hmem : block ∈ store.records) :
    store.activate block.hash = ((store.switchTo block).1, .ok (store.switchTo block).2) := by
  have hfind := h.find?_eq_some_iff.mpr ⟨hmem, rfl⟩
  unfold ChainStore.activate
  rw [hfind]

/-- Each active block up to the fork with the tip stays the active one of its height. -/
theorem WellFormed.atHeight?_activate (h : store.WellFormed) (hmem : block ∈ store.records)
    (hfork : store.IsFork store.tip block fork) (hle : height ≤ fork.height) :
    ∃ kept, store.atHeight? height = some kept ∧
      (store.activate block.hash).1.atHeight? height = some kept := by
  obtain ⟨htip, hactiveTip⟩ := h.tip_mem_and_isActive
  have hactive := h.isActive_of_mem_lineage htip hactiveTip fork hfork.mem_left
  obtain ⟨stump, hstump, hmoved⟩ := h.switchTo_eq hmem
  have hcut : fork.height ≤ stump.height :=
    h.rooted.height_le_of_find?_lineage hmem hstump fork hfork.mem_right hactive
  have hlt : height < store.active.size :=
    Nat.lt_of_le_of_lt hle (height_lt_size_of_isActive hactive)
  -- The cut is above `height`, so the look-up does not reach what was put on the stump.
  have hsame : (store.switchTo block).1.active[height]? = store.active[height]? := by
    have hstump : height < (store.active.shrink (stump.height + 1)).size := by
      rw [Array.size_shrink]
      omega
    rw [hmoved, Array.getElem?_append_left hstump, getElem?_shrink, if_pos (by omega)]
  obtain ⟨kept, -, hkept, -, -⟩ := h.exists_atHeight? hlt
  refine ⟨kept, hkept, ?_⟩
  rw [h.activate_hash hmem]
  unfold atHeight? at hkept ⊢
  rw [hsame, switchTo_records]
  exact hkept

end HybridConsensus.ChainStore
