import HybridConsensus.Proofs.StoreChanges

/-!
# Going down from a stored block

Every block the consensus rules look at is found by going down, and nothing on the way checks that
there is a way. In a well-formed store there is exactly one: it passes one block of each height and
ends at genesis. So a look-up by height on the branch of a block finds the block that walking down
would have found, whether the branch is active or not.
-/

namespace HybridConsensus.ChainStore

/-- The block that many steps down from `block`. -/
def below? (store : ChainStore) (block : BlockRecord) : (steps : Nat) → Option BlockRecord
  | 0 => some block
  | steps + 1 => (store.below? block steps).bind store.predecessor?

section

variable {store : ChainStore} {block older : BlockRecord}

theorem getElem?_zero (store : ChainStore) : store.records[0]? = some store.genesis :=
  Array.getElem?_eq_getElem store.nonempty

theorem Rooted.eq_genesis_iff (h : Rooted store.records) (hmem : block ∈ store.records) :
    block = store.genesis ↔ block.height = 0 := by
  constructor
  · rintro rfl
    exact (h.genesis _ store.getElem?_zero).2
  · intro hheight
    have hblock := h.getElem?_id hmem
    rw [(h.height_eq_zero_iff hmem).mp hheight, store.getElem?_zero] at hblock
    exact (Option.some.inj hblock).symm

/-- Induction along a branch, from genesis up. -/
theorem Rooted.descent (h : Rooted store.records)
    {motive : (block : BlockRecord) → block ∈ store.records → Prop}
    (genesis : ∀ block hmem, store.predecessor? block = none → motive block hmem)
    (step : ∀ block hmem older holder, store.predecessor? block = some older →
      motive older holder → motive block hmem)
    (block : BlockRecord) (hmem : block ∈ store.records) : motive block hmem := by
  induction hid : block.id using Nat.strongRecOn generalizing block with
  | ind id ih =>
    cases hbelow : store.predecessor? block with
    | none => exact genesis block hmem hbelow
    | some older =>
      have holder := (h.of_predecessor? hmem hbelow).1
      have hlt : older.id < id := hid ▸ predecessor?_id_lt hbelow
      exact step block hmem older holder hbelow (ih older.id hlt older holder rfl)

theorem Rooted.exists_predecessor? (h : Rooted store.records) (hmem : block ∈ store.records)
    (hheight : 0 < block.height) :
    ∃ older, store.predecessor? block = some older ∧ older ∈ store.records ∧
      block.height = older.height + 1 := by
  cases hbelow : store.predecessor? block with
  | none =>
    have hgenesis := (h.predecessor?_eq_none_iff hmem).mp hbelow
    rw [h.isGenesis_iff_height hmem] at hgenesis
    omega
  | some older =>
    obtain ⟨holder, -, hlower⟩ := h.of_predecessor? hmem hbelow
    exact ⟨older, rfl, holder, hlower⟩

theorem Rooted.exists_below? (h : Rooted store.records) (hmem : block ∈ store.records) {steps : Nat}
    (hsteps : steps ≤ block.height) :
    ∃ older, store.below? block steps = some older ∧ older ∈ store.records ∧
      older.height + steps = block.height := by
  induction steps with
  | zero => exact ⟨block, rfl, hmem, rfl⟩
  | succ steps ih =>
    obtain ⟨above, habove, hmemAbove, hheight⟩ := ih (Nat.le_of_succ_le hsteps)
    obtain ⟨older, holder, hmemOlder, hlower⟩ := h.exists_predecessor? hmemAbove (by omega)
    refine ⟨older, ?_, hmemOlder, by omega⟩
    rw [below?, habove]
    exact holder

/-- **What a reachable store keeps.** The three places a block is held in agree, each hash leads to
its one block, and from every block the way down reaches genesis after exactly as many steps as the
block is high. -/
theorem wellFormed_and_descends (h : store.Reachable) :
    store.WellFormed ∧
      (∀ hash block, store.find? hash = some block ↔ block ∈ store.records ∧ block.hash = hash) ∧
      (∀ first ∈ store.records, ∀ second ∈ store.records,
        first.hash = second.hash → first = second) ∧
      ∀ block ∈ store.records,
        store.below? block block.height = some store.genesis ∧
          ∀ steps < block.height,
            ∃ older, store.below? block steps = some older ∧ older.isGenesis = false := by
  have hwell := h.wellFormed
  refine ⟨hwell, fun hash block => hwell.find?_eq_some_iff, ?_, ?_⟩
  · intro first hfirst second hsecond hhash
    have hleft := hwell.find?_eq_some_iff.mpr ⟨hfirst, hhash⟩
    have hright := hwell.find?_eq_some_iff.mpr ⟨hsecond, rfl⟩
    exact Option.some.inj (hleft.symm.trans hright)
  · intro block hmem
    constructor
    · obtain ⟨last, hlast, hmemLast, hheight⟩ := hwell.rooted.exists_below? hmem (Nat.le_refl _)
      rwa [← (hwell.rooted.eq_genesis_iff hmemLast).mpr (by omega)]
    · intro steps hsteps
      obtain ⟨older, holder, hmemOlder, hheight⟩ :=
        hwell.rooted.exists_below? hmem (Nat.le_of_lt hsteps)
      refine ⟨older, holder, ?_⟩
      rw [Bool.eq_false_iff, Ne, hwell.rooted.isGenesis_iff_height hmemOlder]
      omega

def numbered (number : UInt8) (proof : ProofKind) (time : Int64) (bits : CompactBits) :
    BlockHeader where
  hash := ⟨Vector.replicate 32 number⟩
  proof
  time
  bits

theorem wellFormed_and_descends_of_reorganised :
    let store := (ofGenesis (numbered 0 .work 0 0x1f00ffff)).run [
      .push (numbered 1 .work 150 0x1f00ffff), .push (numbered 2 .stake 300 0x1d00ffff),
      .insert (numbered 1 .work 0 0).hash (numbered 3 .work 310 0x1f00ffff),
      .insert (numbered 9 .work 0 0).hash (numbered 4 .work 320 0x1f00ffff),
      .activate (numbered 3 .work 0 0).hash, .push (numbered 3 .work 330 0x1f00ffff)]
    store.Reachable ∧ store.tip ∈ store.records ∧ store.records.size = 4 ∧ store.WellFormed ∧
      store.below? store.tip 2 = some store.genesis := by
  intro store
  have hreachable : store.Reachable := ⟨_, _, rfl⟩
  have hmem : store.tip ∈ store.records := by decide +kernel
  have hheight : store.tip.height = 2 := by decide +kernel
  obtain ⟨hwell, -, -, hdescends⟩ := wellFormed_and_descends hreachable
  refine ⟨hreachable, hmem, by decide +kernel, hwell, ?_⟩
  rw [← hheight]
  exact (hdescends store.tip hmem).1

/-! ### Lineages -/

theorem Rooted.mem_of_mem_lineage (h : Rooted store.records) (hmem : block ∈ store.records) :
    ∀ older ∈ store.lineage block, older ∈ store.records ∧ older.height ≤ block.height := by
  induction block, hmem using h.descent with
  | genesis block hmem hnone =>
    intro older holder
    rw [lineage_of_predecessor_none hnone, List.mem_singleton] at holder
    subst holder
    exact ⟨hmem, Nat.le_refl _⟩
  | step block hmem under hunder hsome ih =>
    intro older holder
    have hheight := (h.of_predecessor? hmem hsome).2.2
    rw [lineage_of_predecessor_some hsome, List.mem_cons] at holder
    rcases holder with rfl | holder
    · exact ⟨hmem, Nat.le_refl _⟩
    · obtain ⟨hmemOlder, hle⟩ := ih older holder
      exact ⟨hmemOlder, by omega⟩

theorem Rooted.length_lineage (h : Rooted store.records) (hmem : block ∈ store.records) :
    (store.lineage block).length = block.height + 1 := by
  induction block, hmem using h.descent with
  | genesis block hmem hnone =>
    have hgenesis := (h.predecessor?_eq_none_iff hmem).mp hnone
    rw [lineage_of_predecessor_none hnone, (h.isGenesis_iff_height hmem).mp hgenesis]
    rfl
  | step block hmem older _ hsome ih =>
    rw [lineage_of_predecessor_some hsome, List.length_cons, ih,
      (h.of_predecessor? hmem hsome).2.2]

theorem Rooted.lineage_eq_of_extends {newer : ChainStore} (h : Rooted store.records)
    (hnewer : Rooted newer.records) (hextends : Extends store.records newer.records)
    (hmem : block ∈ store.records) : newer.lineage block = store.lineage block := by
  have hkept : ∀ block ∈ store.records, block ∈ newer.records := fun block hblock =>
    mem_of_getElem?_id (hextends _ _ (h.getElem?_id hblock))
  induction block, hmem using h.descent with
  | genesis block hmem hnone =>
    have hgenesis := (h.predecessor?_eq_none_iff hmem).mp hnone
    rw [lineage_of_predecessor_none hnone,
      lineage_of_predecessor_none (predecessor?_of_isGenesis hgenesis)]
  | step block hmem older holder hsome ih =>
    obtain ⟨-, hparent, hheight⟩ := h.of_predecessor? hmem hsome
    obtain ⟨under, hunder, -, -⟩ := hnewer.exists_predecessor? (hkept block hmem) (by omega)
    obtain ⟨hmemUnder, hparentUnder, -⟩ := hnewer.of_predecessor? (hkept block hmem) hunder
    have hid : older.id = under.id := Option.some.inj (hparent.symm.trans hparentUnder)
    have hplace := hextends _ _ (h.getElem?_id holder)
    rw [hid, hnewer.getElem?_id hmemUnder, Option.some.injEq] at hplace
    rw [lineage_of_predecessor_some hsome, lineage_of_predecessor_some hunder, hplace, ih]

theorem Rooted.find?_lineage (h : Rooted store.records) (hmem : block ∈ store.records) :
    ∀ older ∈ store.lineage block,
      (store.lineage block).find? (·.height ≤ older.height) = some older := by
  induction block, hmem using h.descent with
  | genesis block hmem hnone =>
    intro older holder
    rw [lineage_of_predecessor_none hnone] at holder ⊢
    rw [List.mem_singleton.mp holder]
    simp
  | step block hmem under hunder hsome ih =>
    intro older holder
    rw [lineage_of_predecessor_some hsome, List.mem_cons] at holder
    rw [lineage_of_predecessor_some hsome]
    rcases holder with rfl | holder
    · simp
    · have hle := (h.mem_of_mem_lineage hunder older holder).2
      have hheight := (h.of_predecessor? hmem hsome).2.2
      rw [List.find?_cons_of_neg (by simp; omega)]
      exact ih older holder

theorem WellFormed.isActive_of_mem_lineage (h : store.WellFormed) (hmem : block ∈ store.records)
    (hactive : store.isActive block = true) :
    ∀ older ∈ store.lineage block, store.isActive older = true := by
  induction block, hmem using h.rooted.descent with
  | genesis block _ hnone =>
    intro older holder
    rw [lineage_of_predecessor_none hnone, List.mem_singleton] at holder
    exact holder ▸ hactive
  | step block hmem under _ hsome ih =>
    intro older holder
    obtain ⟨-, hparent, hheight⟩ := h.rooted.of_predecessor? hmem hsome
    have hunder : store.isActive under = true := by
      rw [isActive_iff] at hactive ⊢
      rw [hheight] at hactive
      rw [← h.climbs.linked _ _ _ hactive (h.rooted.getElem?_id hmem), hparent]
    rw [lineage_of_predecessor_some hsome, List.mem_cons] at holder
    rcases holder with rfl | holder
    · exact hactive
    · exact ih hunder older holder

theorem WellFormed.atHeight?_of_isActive (h : store.WellFormed) (hmem : block ∈ store.records)
    (hactive : store.isActive block = true) : store.atHeight? block.height = some block := by
  unfold atHeight?
  rw [isActive_iff.mp hactive]
  exact h.rooted.getElem?_id hmem

theorem WellFormed.atHeight?_zero (h : store.WellFormed) :
    store.atHeight? 0 = some store.genesis := by
  unfold atHeight?
  simp only [h.climbs.genesis, Option.bind_eq_bind, Option.bind_some, getElem?_zero]

theorem atHeight?_eq_none {height : Nat} (h : store.active.size ≤ height) :
    store.atHeight? height = none := by
  unfold atHeight?
  rw [Array.getElem?_eq_none h]
  rfl

/-- The look-up by height finds each block of a branch, through the active branch or by walking. -/
theorem WellFormed.ancestor?_of_mem_lineage (h : store.WellFormed) (hmem : block ∈ store.records)
    (holder : older ∈ store.lineage block) : store.ancestor? block older.height = some older := by
  obtain ⟨hmemOlder, hle⟩ := h.rooted.mem_of_mem_lineage hmem older holder
  unfold ancestor?
  rw [if_neg (by omega)]
  split
  · next hactive =>
    exact h.atHeight?_of_isActive hmemOlder (h.isActive_of_mem_lineage hmem hactive older holder)
  · rw [walkToHeight?_eq_find, if_neg (by omega)]
    exact h.rooted.find?_lineage hmem older holder

end

end HybridConsensus.ChainStore
