import HybridConsensus.Proofs.BranchSwitch

/-!
# Growth of the active branch

A push takes a block in on the tip and switches to it as a reorganisation would. What it does to the
active branch is less than that: the walk down from the new block stops at the old tip, and all that
is active stays active at its height. A block taken in elsewhere leaves the active branch alone. So
what has been read off the active branch stays true until a branch is activated.
-/

namespace HybridConsensus.ChainStore

variable {store older newer : ChainStore} {block below : BlockRecord} {header : BlockHeader}

/-- What is active in the older store at a height is so in the newer. -/
def Grows (older newer : ChainStore) : Prop :=
  ∀ height block, older.atHeight? height = some block → newer.atHeight? height = some block

theorem Grows.refl (store : ChainStore) : store.Grows store :=
  fun _ _ h => h

theorem Grows.trans {last : ChainStore} (h : older.Grows newer) (k : newer.Grows last) :
    older.Grows last :=
  fun height block hblock => k height block (h height block hblock)

theorem Grows.genesis_eq (h : older.Grows newer) (holder : older.WellFormed)
    (hnewer : newer.WellFormed) : newer.genesis = older.genesis :=
  Option.some.inj (hnewer.atHeight?_zero.symm.trans (h 0 _ holder.atHeight?_zero))

theorem Grows.tip_height_le (h : older.Grows newer) (holder : older.WellFormed)
    (hnewer : newer.WellFormed) : older.tip.height ≤ newer.tip.height := by
  have htop := h _ _ holder.atHeight?_top
  by_contra hlt
  have hnone : newer.atHeight? (older.active.size - 1) = none :=
    atHeight?_eq_none (by rw [holder.active_size, hnewer.active_size]; omega)
  rw [hnone] at htop
  cases htop

/-! ### Taking a block in -/

theorem grows_putOn (store : ChainStore) (below : BlockRecord) (header : BlockHeader) :
    store.Grows (store.putOn below header) := by
  intro height block hblock
  unfold atHeight? at hblock ⊢
  rw [Option.bind_eq_bind, Option.bind_eq_some_iff] at hblock ⊢
  obtain ⟨id, hid, hrecord⟩ := hblock
  exact ⟨id, hid, extends_push _ _ _ _ hrecord⟩

theorem grows_insert (store : ChainStore) (parent : BlockHash) (header : BlockHeader) :
    store.Grows (store.insert parent header).1 := by
  unfold ChainStore.insert
  cases store.parentFor parent header with
  | error error => exact Grows.refl store
  | ok below => exact store.grows_putOn below header

/-! ### Pushes -/

/-- A switch to a block above the tip keeps what is active. -/
theorem WellFormed.grows_switchTo (h : store.WellFormed) (hmem : block ∈ store.records)
    (habove : store.tip ∈ store.lineage block) : store.Grows (store.switchTo block).1 := by
  intro height kept hkept
  rw [h.atHeight?_eq_ancestor?_tip, h.ancestor?_eq_some_iff h.tip_mem_and_isActive.1] at hkept
  rw [h.atHeight?_switchTo hmem, h.ancestor?_eq_some_iff hmem]
  exact ⟨h.rooted.lineage_subset hmem habove hkept.1, hkept.2⟩

/-- The parent of a stored block is the stored block at the place it names. -/
theorem Rooted.predecessor?_of_parent (h : Rooted store.records) (hmem : block ∈ store.records)
    (hbelow : below ∈ store.records) (hparent : block.parent = some below.id) :
    store.predecessor? block = some below := by
  cases hsome : store.predecessor? block with
  | none =>
    rw [h.predecessor?_eq_none_iff hmem, isGenesis_iff, hparent] at hsome
    cases hsome
  | some under =>
    obtain ⟨hunder, hid, -⟩ := h.of_predecessor? hmem hsome
    rw [hparent, Option.some.injEq] at hid
    have hplace := h.getElem?_id hunder
    rwa [← hid, h.getElem?_id hbelow, Option.some.injEq, eq_comm, ← Option.some.injEq] at hplace

/-- The block that `header` becomes on top of `below`. -/
def newest (store : ChainStore) (below : BlockRecord) (header : BlockHeader) : BlockRecord :=
  { header with id := store.records.size, height := below.height + 1, parent := some below.id }

theorem newest_mem_putOn (store : ChainStore) (below : BlockRecord) (header : BlockHeader) :
    store.newest below header ∈ (store.putOn below header).records :=
  Array.mem_push_self

/-- A push that is taken puts the block on the tip and switches to it. -/
theorem push_eq (hbelow : store.parentFor store.tip.hash header = .ok below) :
    store.push header =
      (((store.putOn below header).switchTo (store.newest below header)).1,
        .ok store.records.size) := by
  have hblock : (store.putOn below header).records[store.records.size]? =
      some (store.newest below header) := Array.getElem?_push_size
  unfold ChainStore.push ChainStore.insert
  simp only [hbelow, hblock]

theorem push_of_error {error : ChainError}
    (herror : store.parentFor store.tip.hash header = .error error) :
    store.push header = (store, .error error) := by
  unfold ChainStore.push ChainStore.insert
  rw [herror]

theorem WellFormed.tip_putOn (h : store.WellFormed)
    (hgrown : (store.putOn below header).WellFormed) :
    (store.putOn below header).tip = store.tip := by
  have htop := store.grows_putOn below header _ _ h.atHeight?_top
  exact Option.some.inj (hgrown.atHeight?_top.symm.trans htop)

/-- The block of a push lies on the old tip, which is the tip until the switch. -/
theorem WellFormed.predecessor?_newest (h : store.WellFormed)
    (hbelow : store.parentFor store.tip.hash header = .ok below) :
    (store.putOn below header).predecessor? (store.newest below header) =
      some (store.putOn below header).tip := by
  have hgrown := h.putOn hbelow
  have htip := h.tip_putOn hgrown
  obtain ⟨-, hfind, -⟩ := parentFor_eq_ok_iff.mp hbelow
  rw [h.find?_eq_some_iff.mpr ⟨h.tip_mem_and_isActive.1, rfl⟩, Option.some.injEq] at hfind
  have hparent : (store.newest below header).parent = some (store.putOn below header).tip.id := by
    rw [htip, hfind]
    rfl
  exact hgrown.rooted.predecessor?_of_parent (store.newest_mem_putOn below header)
    hgrown.tip_mem_and_isActive.1 hparent

theorem WellFormed.grows_push (h : store.WellFormed) (header : BlockHeader) :
    store.Grows (store.push header).1 := by
  cases hbelow : store.parentFor store.tip.hash header with
  | error error =>
    rw [push_of_error hbelow]
    exact Grows.refl store
  | ok below =>
    have hgrown := h.putOn hbelow
    have habove : (store.putOn below header).tip ∈
        (store.putOn below header).lineage (store.newest below header) := by
      rw [lineage_of_predecessor_some (h.predecessor?_newest hbelow)]
      exact List.mem_cons_of_mem _ (self_mem_lineage _ _)
    rw [push_eq hbelow]
    exact (store.grows_putOn below header).trans
      (hgrown.grows_switchTo (store.newest_mem_putOn below header) habove)

end HybridConsensus.ChainStore
