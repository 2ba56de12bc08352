import HybridConsensus.Chain.Window

/-!
# Walks and the lineage

A walk down from a block stops as early as it can and keeps no more than it needs. What it finds is
what a look at the whole lineage of the block finds.
-/

namespace HybridConsensus.ChainStore

theorem lineage_of_predecessor_none {store : ChainStore} {block : BlockRecord}
    (h : store.predecessor? block = none) : store.lineage block = [block] := by
  rw [lineage]
  split <;> simp_all

theorem lineage_of_predecessor_some {store : ChainStore} {block older : BlockRecord}
    (h : store.predecessor? block = some older) :
    store.lineage block = block :: store.lineage older := by
  rw [lineage]
  split <;> simp_all

theorem lineage_ne_nil (store : ChainStore) (block : BlockRecord) : store.lineage block ≠ [] := by
  rw [lineage]
  simp

theorem getLastD_lineage_cons (store : ChainStore) (newer older other : BlockRecord) :
    (newer :: store.lineage older).getLastD other = (store.lineage older).getLastD newer := by
  rw [List.getLastD_cons]

/-- The last block of a lineage does not depend on what an empty one would give. -/
theorem getLastD_lineage (store : ChainStore) (block first second : BlockRecord) :
    (store.lineage block).getLastD first = (store.lineage block).getLastD second := by
  rw [lineage]
  simp only [List.getLastD_cons]

theorem descendTo_eq_find (store : ChainStore) (stop : BlockRecord → Bool) (block : BlockRecord) :
    store.descendTo stop block =
      ((store.lineage block).find? stop).getD ((store.lineage block).getLastD block) := by
  fun_induction ChainStore.descendTo store stop block with
  | case1 block hstop =>
    rw [lineage]
    simp [hstop]
  | case2 block hstop hnone =>
    rw [lineage_of_predecessor_none hnone]
    simp [hstop]
  | case3 block hstop older hsome ih =>
    rw [ih, lineage_of_predecessor_some hsome, getLastD_lineage_cons,
      getLastD_lineage store older older block]
    simp [hstop]

/-- The blocks above the first that `stop` holds of, and that one. -/
theorem pathOnto_eq_reverse (store : ChainStore) (stop : BlockRecord → Bool) (block : BlockRecord)
    (newer : List BlockRecord) :
    store.pathOnto stop block newer =
      ((store.lineage block).find? stop).toList ++
        ((store.lineage block).takeWhile (!stop ·)).reverse ++ newer := by
  fun_induction ChainStore.pathOnto store stop block newer with
  | case1 block newer hstop =>
    rw [lineage]
    simp [hstop]
  | case2 block newer hstop hnone =>
    rw [lineage_of_predecessor_none hnone]
    simp [hstop]
  | case3 block newer hstop older hsome ih =>
    rw [ih, lineage_of_predecessor_some hsome]
    simp [hstop]

theorem getLastD_of_find?_eq_none (stop : BlockRecord → Bool) (blocks : List BlockRecord)
    (other : BlockRecord) (hne : blocks ≠ []) (hnone : blocks.find? stop = none) :
    stop (blocks.getLastD other) = false := by
  have hmem : blocks.getLastD other ∈ blocks := by
    rw [List.getLastD_eq_getLast?, List.getLast?_eq_some_getLast hne]
    exact List.getLast_mem hne
  simpa using List.find?_eq_none.mp hnone _ hmem

theorem walkToHeight?_eq_find (store : ChainStore) (block : BlockRecord) (height : Nat) :
    store.walkToHeight? block height =
      if block.height < height then none
      else (store.lineage block).find? (·.height ≤ height) := by
  unfold walkToHeight?
  rw [descendTo_eq_find]
  cases hfind : (store.lineage block).find? (·.height ≤ height) with
  | none =>
    have hlast := getLastD_of_find?_eq_none _ _ block (store.lineage_ne_nil block) hfind
    simp_all
  | some found =>
    have hfound := List.find?_some hfind
    simp_all

theorem countP_takeWhile_and (p q : BlockRecord → Bool) (blocks : List BlockRecord) :
    (blocks.takeWhile p).countP (fun block => p block && q block) =
      (blocks.takeWhile p).countP q := by
  induction blocks with
  | nil => rfl
  | cons block blocks ih =>
    cases hp : p block with
    | false => simp [hp]
    | true =>
      rw [List.takeWhile_cons_of_pos hp, List.countP_cons, List.countP_cons, ih, hp, Bool.true_and]

theorem countP_pathTo (store : ChainStore) (stop : BlockRecord → Bool) (block : BlockRecord) :
    (store.pathTo stop block).countP (fun block => !stop block && block.isStake) =
      ((store.lineage block).takeWhile (!stop ·)).countP (·.isStake) := by
  unfold pathTo
  rw [pathOnto_eq_reverse, List.append_nil, List.countP_append, List.countP_reverse,
    countP_takeWhile_and (!stop ·)]
  cases hfind : (store.lineage block).find? stop with
  | none => simp
  | some found => simp [List.find?_some hfind]

theorem countStake_eq_countP (store : ChainStore) (block : BlockRecord) (height : Nat) :
    store.countStake block height =
      ((store.lineage block).takeWhile fun block =>
        !(block.isGenesis || decide (block.height ≤ height))).countP (·.isStake) :=
  store.countP_pathTo (fun block => block.isGenesis || decide (block.height ≤ height)) block

/-- The blocks of `kind` from `start` down, without genesis, newest first. -/
def blocksOfKind (store : ChainStore) (start : BlockRecord) (kind : ProofKind) : List BlockRecord :=
  ((store.lineage start).takeWhile (!·.isGenesis)).filter (·.proof == kind)

theorem blocksOfKind_of_isGenesis {store : ChainStore} {start : BlockRecord} (kind : ProofKind)
    (h : start.isGenesis = true) : store.blocksOfKind start kind = [] := by
  unfold blocksOfKind
  rw [lineage]
  simp [h]

theorem predecessor?_of_isGenesis {store : ChainStore} {block : BlockRecord}
    (h : block.isGenesis = true) : store.predecessor? block = none := by
  unfold predecessor?
  simp only [BlockRecord.isGenesis, Option.isNone_iff_eq_none] at h
  simp [h]

/-- Going down to the newest block of a kind passes none of that kind. -/
theorem blocksOfKind_lastOfKind (store : ChainStore) (start : BlockRecord) (kind : ProofKind) :
    store.blocksOfKind (store.lastOfKind start kind) kind = store.blocksOfKind start kind := by
  unfold lastOfKind
  fun_induction ChainStore.descendTo store (·.proof == kind) start with
  | case1 => rfl
  | case2 => rfl
  | case3 block hstop older hsome ih =>
    rw [ih]
    have hgenesis : block.isGenesis = false := by
      cases h : block.isGenesis with
      | false => rfl
      | true =>
        rw [predecessor?_of_isGenesis h] at hsome
        cases hsome
    unfold blocksOfKind
    rw [lineage_of_predecessor_some hsome]
    simp [hgenesis, hstop]

theorem lastOfKind_proof (store : ChainStore) (start : BlockRecord) (kind : ProofKind) :
    (store.lastOfKind start kind).proof = kind ∨
      store.predecessor? (store.lastOfKind start kind) = none := by
  unfold lastOfKind
  fun_induction ChainStore.descendTo store (·.proof == kind) start with
  | case1 block hstop => exact .inl (by simpa using hstop)
  | case2 block hstop hnone => exact .inr hnone
  | case3 block hstop older hsome ih => exact ih

theorem samplesOnto_eq_reverse (store : ChainStore) (kind : ProofKind) (limit : Nat)
    (start : BlockRecord) (newer : List BlockRecord) :
    store.samplesOnto kind limit start newer =
      ((store.blocksOfKind start kind).take limit).reverse ++ newer := by
  induction limit generalizing start newer with
  | zero => simp [samplesOnto]
  | succ limit ih =>
    have hlast := store.lastOfKind_proof start kind
    rw [← blocksOfKind_lastOfKind]
    unfold samplesOnto
    generalize store.lastOfKind start kind = found at hlast ⊢
    cases hgenesis : found.isGenesis with
    | true =>
      rw [blocksOfKind_of_isGenesis kind hgenesis]
      simp [hgenesis]
    | false =>
      unfold blocksOfKind
      cases hbelow : store.predecessor? found with
      | none =>
        rw [lineage_of_predecessor_none hbelow]
        by_cases hkind : found.proof = kind <;> simp [hgenesis, hkind, hbelow]
      | some older =>
        have hkind : found.proof = kind := by
          rcases hlast with hkind | hnone
          · exact hkind
          · rw [hbelow] at hnone
            cases hnone
        rw [lineage_of_predecessor_some hbelow]
        simp [hgenesis, hkind, hbelow, ih, blocksOfKind]

theorem sampleWindow_heights (store : ChainStore) (start : BlockRecord) (limit : Nat)
    (kind : ProofKind) :
    (store.sampleWindow start limit kind).heights =
      ((store.blocksOfKind start kind).take limit).map (·.height) := by
  unfold sampleWindow
  rw [samplesOnto_eq_reverse]
  simp

end HybridConsensus.ChainStore
