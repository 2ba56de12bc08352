import HybridConsensus.Proofs.Forks

/-!
# Looking up by height

A block is asked for by its height on the branch of another. If the other block is active, the
answer is read off the active branch, which knows nothing of the block that was asked about: one
entry is compared, and the whole branch below it is taken on trust. That is sound because in a
well-formed store a branch has exactly one block of each height up to its top, and below an active
block all of them are active. So the indexed look-up and the plain walk down find the same block.
-/

namespace HybridConsensus.ChainStore

variable {store : ChainStore} {block older other : BlockRecord} {height : Nat}

/-! ### One block of each height -/

theorem self_mem_lineage (store : ChainStore) (block : BlockRecord) :
    block ∈ store.lineage block := by
  rw [lineage]
  exact List.mem_cons_self

/-- No two blocks of a branch have the same height. -/
theorem Rooted.eq_of_height_eq (h : Rooted store.records) (hmem : block ∈ store.records)
    (holder : older ∈ store.lineage block) (hother : other ∈ store.lineage block)
    (hheight : older.height = other.height) : older = other := by
  have hfirst := h.find?_lineage hmem older holder
  have hsecond := h.find?_lineage hmem other hother
  rw [hheight, hsecond, Option.some.injEq] at hfirst
  exact hfirst.symm

theorem Rooted.exists_mem_lineage (h : Rooted store.records) (hmem : block ∈ store.records)
    (hle : height ≤ block.height) : ∃ older ∈ store.lineage block, older.height = height := by
  induction block, hmem using h.descent with
  | genesis block hmem hnone =>
    have hgenesis := (h.predecessor?_eq_none_iff hmem).mp hnone
    have hzero := (h.isGenesis_iff_height hmem).mp hgenesis
    exact ⟨block, store.self_mem_lineage block, by omega⟩
  | step block hmem under hunder hsome ih =>
    have hlower := (h.of_predecessor? hmem hsome).2.2
    by_cases htop : height = block.height
    · exact ⟨block, store.self_mem_lineage block, htop.symm⟩
    · obtain ⟨older, holder, hheight⟩ := ih (by omega)
      refine ⟨older, ?_, hheight⟩
      rw [lineage_of_predecessor_some hsome]
      exact List.mem_cons_of_mem _ holder

/-! ### The look-up and the walk -/

theorem Rooted.walkToHeight?_of_mem_lineage (h : Rooted store.records)
    (hmem : block ∈ store.records) (holder : older ∈ store.lineage block) :
    store.walkToHeight? block older.height = some older := by
  have hle := (h.mem_of_mem_lineage hmem older holder).2
  rw [walkToHeight?_eq_find, if_neg (Nat.not_lt_of_le hle)]
  exact h.find?_lineage hmem older holder

theorem ancestor?_eq_none (hlt : block.height < height) : store.ancestor? block height = none :=
  if_pos hlt

theorem walkToHeight?_eq_none (hlt : block.height < height) :
    store.walkToHeight? block height = none :=
  if_pos hlt

theorem WellFormed.ancestor?_eq_walkToHeight? (h : store.WellFormed) (hmem : block ∈ store.records)
    (height : Nat) : store.ancestor? block height = store.walkToHeight? block height := by
  by_cases hlt : block.height < height
  · rw [ancestor?_eq_none hlt, walkToHeight?_eq_none hlt]
  · obtain ⟨older, holder, rfl⟩ := h.rooted.exists_mem_lineage hmem (Nat.le_of_not_lt hlt)
    rw [h.ancestor?_of_mem_lineage hmem holder, h.rooted.walkToHeight?_of_mem_lineage hmem holder]

theorem WellFormed.ancestor?_eq_some_iff (h : store.WellFormed) (hmem : block ∈ store.records) :
    store.ancestor? block height = some older ↔
      older ∈ store.lineage block ∧ older.height = height := by
  constructor
  · intro hfound
    have hle : ¬block.height < height := by
      intro hlt
      rw [ancestor?_eq_none hlt] at hfound
      cases hfound
    obtain ⟨found, hmemFound, rfl⟩ := h.rooted.exists_mem_lineage hmem (Nat.le_of_not_lt hle)
    rw [h.ancestor?_of_mem_lineage hmem hmemFound, Option.some.injEq] at hfound
    exact hfound ▸ ⟨hmemFound, rfl⟩
  · rintro ⟨holder, rfl⟩
    exact h.ancestor?_of_mem_lineage hmem holder

/-! ### The active branch is the branch of the tip -/

theorem WellFormed.atHeight?_eq_ancestor?_tip (h : store.WellFormed) (height : Nat) :
    store.atHeight? height = store.ancestor? store.tip height := by
  by_cases hlt : store.tip.height < height
  · rw [ancestor?_eq_none hlt, atHeight?_eq_none (by rw [h.active_size]; omega)]
  · rw [ancestor?, if_neg hlt, if_pos h.tip_mem_and_isActive.2]

/-- **The indexed look-up is the walk.** From every stored block, on the active branch or beside it,
both find the one block of the height asked for that lies on the branch down to genesis, and nothing
where that is higher than the branch. What is active at a height is what they find from the tip. -/
theorem ancestor?_eq_walk (h : store.Reachable) :
    (∀ block ∈ store.records, ∀ height,
      store.ancestor? block height = store.walkToHeight? block height ∧
      (height ≤ block.height →
        ∃ older, older ∈ store.lineage block ∧ older.height = height ∧
          (∀ other ∈ store.lineage block, other.height = height → other = older) ∧
          store.ancestor? block height = some older) ∧
      (block.height < height → store.ancestor? block height = none)) ∧
      ∀ height, store.atHeight? height = store.ancestor? store.tip height := by
  have hwell := h.wellFormed
  refine ⟨fun block hmem height => ⟨?_, ?_, ancestor?_eq_none⟩, hwell.atHeight?_eq_ancestor?_tip⟩
  · exact hwell.ancestor?_eq_walkToHeight? hmem height
  · intro hle
    obtain ⟨older, holder, hheight⟩ := hwell.rooted.exists_mem_lineage hmem hle
    refine ⟨older, holder, hheight, ?_, (hwell.ancestor?_eq_some_iff hmem).mpr ⟨holder, hheight⟩⟩
    intro other hother hsame
    exact hwell.rooted.eq_of_height_eq hmem hother holder (hsame.trans hheight.symm)

/-- Two blocks on genesis, then a longer branch beside the second, which is made the active one. -/
def withSideBranch : ChainStore :=
  (ofGenesis (numbered 0 .work 0 0x1f00ffff)).run [
    .push (numbered 1 .work 150 0x1f00ffff), .push (numbered 2 .stake 300 0x1d00ffff),
    .insert (numbered 1 .work 0 0).hash (numbered 3 .work 310 0x1f00ffff),
    .insert (numbered 3 .work 0 0).hash (numbered 4 .work 460 0x1f00ffff),
    .activate (numbered 4 .work 0 0).hash]

/-- The block that was left behind is walked down from, and what it finds is active again. -/
theorem ancestor?_eq_walk_of_side_branch :
    ∃ side ∈ withSideBranch.records, withSideBranch.isActive side = false ∧
      withSideBranch.ancestor? side 1 = withSideBranch.walkToHeight? side 1 ∧
      (∃ older ∈ withSideBranch.lineage side, older.height = 1 ∧
        withSideBranch.ancestor? side 1 = some older) ∧
      withSideBranch.ancestor? side 3 = none ∧
      withSideBranch.atHeight? 1 = withSideBranch.ancestor? withSideBranch.tip 1 := by
  have hreachable : withSideBranch.Reachable := ⟨_, _, rfl⟩
  let side : BlockRecord := { numbered 2 .stake 300 0x1d00ffff with
    id := 2, height := 2, parent := some 1 }
  have hmem : side ∈ withSideBranch.records := by decide +kernel
  obtain ⟨hside, htip⟩ := ancestor?_eq_walk hreachable
  obtain ⟨hwalk, hfound, -⟩ := hside side hmem 1
  obtain ⟨older, holder, hheight, -, hlookUp⟩ := hfound (by decide)
  obtain ⟨-, -, hnone⟩ := hside side hmem 3
  exact ⟨side, hmem, by decide +kernel, hwalk, ⟨older, holder, hheight, hlookUp⟩,
    hnone (by decide), htip 1⟩

end HybridConsensus.ChainStore
