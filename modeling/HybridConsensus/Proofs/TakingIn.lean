import HybridConsensus.Proofs.BranchGrowth

/-!
# Taking a block in

A new block goes into the arena, then under its hash into the index, and a push moves the active
branch besides. Nothing would undo the first of these steps if a later one failed. None can: every
reason to refuse a block is looked for before the first step, so a refused block leaves no trace.
What a block that is taken in changes is told by the one record that is new. The answers about all
older blocks stay as they were, because none of them lies on the new one, and a push takes nothing
off the active branch, because the walk down from the new block meets the old tip first.
-/

namespace HybridConsensus.ChainStore

variable {store grown : ChainStore} {block below : BlockRecord} {header : BlockHeader}
  {parent hash : BlockHash}

def Knows (store : ChainStore) (hash : BlockHash) : Prop :=
  ∃ block ∈ store.records, block.hash = hash

instance (store : ChainStore) (hash : BlockHash) : Decidable (store.Knows hash) :=
  inferInstanceAs (Decidable (∃ block ∈ store.records, block.hash = hash))

/-! ### Refusals -/

theorem WellFormed.find?_eq_none_iff (h : store.WellFormed) :
    store.find? hash = none ↔ ¬store.Knows hash := by
  rw [Option.eq_none_iff_forall_ne_some, Knows, not_exists]
  exact forall_congr' fun block => h.find?_eq_some_iff.not

theorem WellFormed.getElem?_places_eq_none_iff (h : store.WellFormed) :
    store.places[hash]? = none ↔ ¬store.Knows hash := by
  rw [Option.eq_none_iff_forall_ne_some]
  constructor
  · rintro hfree ⟨block, hmem, hhash⟩
    exact hfree block.id ((h.indexed hash _).mpr ⟨block, h.rooted.getElem?_id hmem, hhash⟩)
  · rintro hunknown id hid
    obtain ⟨block, hblock, hhash⟩ := (h.indexed hash id).mp hid
    exact hunknown ⟨block, mem_of_getElem?_id hblock, hhash⟩

theorem WellFormed.parentFor_of_knows (h : store.WellFormed) (hknown : store.Knows header.hash)
    (parent : BlockHash) : store.parentFor parent header = .error (.duplicate header.hash) := by
  have hplace : store.places[header.hash]? ≠ none :=
    fun hfree => h.getElem?_places_eq_none_iff.mp hfree hknown
  unfold parentFor
  rw [Std.TreeMap.contains_eq_isSome_getElem?, Option.isSome_iff_ne_none.mpr hplace, if_pos rfl]

theorem WellFormed.parentFor_of_not_knows (h : store.WellFormed)
    (hfresh : ¬store.Knows header.hash) (horphan : ¬store.Knows parent) :
    store.parentFor parent header = .error (.unknownParent parent) := by
  unfold parentFor
  rw [Std.TreeMap.contains_eq_isSome_getElem?, h.getElem?_places_eq_none_iff.mpr hfresh,
    h.find?_eq_none_iff.mpr horphan]
  rfl

theorem WellFormed.parentFor_of_mem (h : store.WellFormed) (hfresh : ¬store.Knows header.hash)
    (hbelow : below ∈ store.records) (hroom : below.height < maxHeight) :
    store.parentFor below.hash header = .ok below :=
  parentFor_eq_ok_iff.mpr ⟨h.getElem?_places_eq_none_iff.mpr hfresh,
    h.find?_eq_some_iff.mpr ⟨hbelow, rfl⟩, hroom⟩

theorem insert_of_error {error : ChainError}
    (herror : store.parentFor parent header = .error error) :
    store.insert parent header = (store, .error error) := by
  unfold ChainStore.insert
  rw [herror]

theorem insert_eq (hbelow : store.parentFor parent header = .ok below) :
    store.insert parent header = (store.putOn below header, .ok store.records.size) := by
  unfold ChainStore.insert
  rw [hbelow]

/-! ### One block more -/

/-- `grown` has `block` at the place after the last of `store` and under its hash, and answers as
`store` does for all other hashes and all older blocks. -/
structure Adds (store grown : ChainStore) (block : BlockRecord) : Prop where
  records_eq : grown.records = store.records.push block
  find?_self : grown.find? block.hash = some block
  find?_other : ∀ hash, hash ≠ block.hash → grown.find? hash = store.find? hash
  lineage_eq : ∀ older ∈ store.records, grown.lineage older = store.lineage older
  ancestor?_eq : ∀ older ∈ store.records, ∀ height,
    grown.ancestor? older height = store.ancestor? older height

theorem WellFormed.ancestor?_eq_of_extends (h : store.WellFormed) (hgrown : grown.WellFormed)
    (hextends : Extends store.records grown.records) (hmem : block ∈ store.records) (height : Nat) :
    grown.ancestor? block height = store.ancestor? block height := by
  have hkept : block ∈ grown.records :=
    mem_of_getElem?_id (hextends _ _ (h.rooted.getElem?_id hmem))
  ext older
  rw [hgrown.ancestor?_eq_some_iff hkept, h.ancestor?_eq_some_iff hmem,
    h.rooted.lineage_eq_of_extends hgrown.rooted hextends hmem]

/-- All that is asked of a store about its blocks is read off the arena. -/
theorem WellFormed.adds (h : store.WellFormed) (hgrown : grown.WellFormed)
    (hrecords : grown.records = store.records.push block) : store.Adds grown block := by
  have hextends : Extends store.records grown.records := hrecords ▸ extends_push _ _
  have hmem : ∀ older, older ∈ grown.records ↔ older ∈ store.records ∨ older = block := by
    intro older
    rw [hrecords, Array.mem_push]
  constructor
  case records_eq => exact hrecords
  case find?_self => exact hgrown.find?_eq_some_iff.mpr ⟨(hmem block).mpr (.inr rfl), rfl⟩
  case find?_other =>
    intro hash hother
    ext older
    rw [hgrown.find?_eq_some_iff, h.find?_eq_some_iff, hmem]
    constructor
    · rintro ⟨holder | rfl, hhash⟩
      · exact ⟨holder, hhash⟩
      · exact absurd hhash.symm hother
    · exact fun ⟨holder, hhash⟩ => ⟨.inl holder, hhash⟩
  case lineage_eq =>
    intro older holder
    exact h.rooted.lineage_eq_of_extends hgrown.rooted hextends holder
  case ancestor?_eq =>
    intro older holder height
    exact h.ancestor?_eq_of_extends hgrown hextends holder height

theorem Adds.activeBlocks_eq (hadds : store.Adds grown block) (h : store.WellFormed)
    (hgrown : grown.WellFormed) (htip : grown.tip = store.tip) :
    grown.activeBlocks = store.activeBlocks := by
  rw [hgrown.activeBlocks_eq, h.activeBlocks_eq, htip,
    hadds.lineage_eq _ h.tip_mem_and_isActive.1]

/-! ### The new block on the tip -/

/-- The walk down from a block on the tip stops at the tip. -/
theorem WellFormed.switchTo_on_tip (h : store.WellFormed) (hmem : block ∈ store.records)
    (hbelow : store.predecessor? block = some store.tip) :
    (store.switchTo block).1.activeBlocks = store.activeBlocks ++ [block] ∧
      (store.switchTo block).2 = { disconnected := 0, connected := 1 } := by
  have hlineage := lineage_of_predecessor_some hbelow
  have hheight := (h.rooted.of_predecessor? hmem hbelow).2.2
  have hself := store.self_mem_lineage store.tip
  have hfork : store.IsFork store.tip block store.tip := by
    refine ⟨hself, ?_, ?_⟩
    · rw [hlineage]
      exact List.mem_cons_of_mem _ hself
    · intro common hcommon _
      exact (h.rooted.mem_of_mem_lineage h.tip_mem_and_isActive.1 common hcommon).2
  constructor
  · rw [(h.switched hmem hfork).activeBlocks_eq, hlineage, List.reverse_cons, h.activeBlocks_eq]
  · rw [h.switchTo_reorg hmem hfork, Reorg.mk.injEq]
    omega

/-- A block that is inserted is stored and known, and the active branch is the old one. -/
theorem WellFormed.insert_of_mem (h : store.WellFormed) (hfresh : ¬store.Knows header.hash)
    (hbelow : below ∈ store.records) (hroom : below.height < maxHeight) :
    store.insert below.hash header = (store.putOn below header, .ok store.records.size) ∧
      store.Adds (store.putOn below header) (store.newest below header) ∧
      (store.putOn below header).activeBlocks = store.activeBlocks := by
  have hparent := h.parentFor_of_mem hfresh hbelow hroom
  have hgrown := h.putOn hparent
  have hadds : store.Adds (store.putOn below header) (store.newest below header) :=
    h.adds hgrown rfl
  exact ⟨insert_eq hparent, hadds, hadds.activeBlocks_eq h hgrown (h.tip_putOn hgrown)⟩

theorem WellFormed.push_of_room (h : store.WellFormed) (hfresh : ¬store.Knows header.hash)
    (hroom : store.tip.height < maxHeight) :
    ∃ moved, store.push header = (moved, .ok store.records.size) ∧
      (store.putOn store.tip header).activate header.hash =
        (moved, .ok { disconnected := 0, connected := 1 }) ∧
      store.Adds moved (store.newest store.tip header) ∧
      moved.activeBlocks = store.activeBlocks ++ [store.newest store.tip header] := by
  have hbelow := h.parentFor_of_mem hfresh h.tip_mem_and_isActive.1 hroom
  have hgrown := h.putOn hbelow
  have hmem := store.newest_mem_putOn store.tip header
  obtain ⟨-, hadds, hsame⟩ := h.insert_of_mem hfresh h.tip_mem_and_isActive.1 hroom
  obtain ⟨hactive, hreorg⟩ := hgrown.switchTo_on_tip hmem (h.predecessor?_newest hbelow)
  refine ⟨_, push_eq hbelow, ?_, ?_, ?_⟩
  · rw [← hreorg]
    exact hgrown.activate_hash hmem
  · exact h.adds (hgrown.switchTo hmem) ((switchTo_records _ _).trans hadds.records_eq)
  · rw [hactive, hsame]

/-- **A block is refused without a trace, or it is all that is new.** Below the last height, a
header with a stored hash is a duplicate; any other is refused for want of its parent if the parent
is not stored, and is taken in if it is. It then lies at the next place, one above its parent, and
nothing else has changed. A push takes in every header but duplicates, and puts the block on the
active branch without taking any off it. -/
theorem takes_in_or_refuses (h : store.Reachable)
    (hroom : ∀ block ∈ store.records, block.height < maxHeight) (header : BlockHeader) :
    (store.Knows header.hash →
      (∀ parent, store.insert parent header = (store, .error (.duplicate header.hash))) ∧
        store.push header = (store, .error (.duplicate header.hash))) ∧
    (¬store.Knows header.hash →
      (∀ parent, ¬store.Knows parent →
        store.insert parent header = (store, .error (.unknownParent parent))) ∧
      (∀ below ∈ store.records, ∃ grown,
        store.insert below.hash header = (grown, .ok store.records.size) ∧
          store.Adds grown (store.newest below header) ∧
          grown.activeBlocks = store.activeBlocks) ∧
      ∃ grown moved, store.insert store.tip.hash header = (grown, .ok store.records.size) ∧
        grown.activate header.hash = (moved, .ok { disconnected := 0, connected := 1 }) ∧
        store.push header = (moved, .ok store.records.size) ∧
          store.Adds moved (store.newest store.tip header) ∧
          moved.activeBlocks = store.activeBlocks ++ [store.newest store.tip header]) := by
  have hwell := h.wellFormed
  have htip := hwell.tip_mem_and_isActive.1
  constructor
  · intro hknown
    exact ⟨fun parent => insert_of_error (hwell.parentFor_of_knows hknown parent),
      push_of_error (hwell.parentFor_of_knows hknown _)⟩
  · intro hfresh
    refine ⟨?_, ?_, ?_⟩
    · intro parent horphan
      exact insert_of_error (hwell.parentFor_of_not_knows hfresh horphan)
    · intro below hbelow
      exact ⟨_, hwell.insert_of_mem hfresh hbelow (hroom below hbelow)⟩
    · obtain ⟨moved, hpush, hactivate, hadds, hactive⟩ :=
        hwell.push_of_room hfresh (hroom _ htip)
      exact ⟨_, moved, (hwell.insert_of_mem hfresh htip (hroom _ htip)).1, hactivate, hpush, hadds,
        hactive⟩

/-- A block on the branch that was left, one that is stored already, and one on the tip. -/
theorem takes_in_or_refuses_of_side_branch :
    let header := numbered 5 .stake 470 0x1d00ffff
    let duplicate := numbered 2 .stake 300 0x1d00ffff
    let orphan := (numbered 9 .work 0 0).hash
    ∃ side ∈ withSideBranch.records, withSideBranch.isActive side = false ∧
      withSideBranch.insert side.hash duplicate =
        (withSideBranch, .error (.duplicate duplicate.hash)) ∧
      withSideBranch.insert orphan header = (withSideBranch, .error (.unknownParent orphan)) ∧
      (∃ grown, withSideBranch.insert side.hash header = (grown, .ok 5) ∧
        grown.activeBlocks = withSideBranch.activeBlocks) ∧
      ∃ moved block, withSideBranch.push header = (moved, .ok 5) ∧ block.height = 4 ∧
        moved.activeBlocks = withSideBranch.activeBlocks ++ [block] := by
  intro header duplicate orphan
  have hreachable : withSideBranch.Reachable := ⟨_, _, rfl⟩
  have hroom : ∀ block ∈ withSideBranch.records, block.height < maxHeight := by decide +kernel
  let side : BlockRecord := { numbered 2 .stake 300 0x1d00ffff with
    id := 2, height := 2, parent := some 1 }
  have hmem : side ∈ withSideBranch.records := by decide +kernel
  have hsize : withSideBranch.records.size = 5 := by decide +kernel
  obtain ⟨hrefused, -⟩ := takes_in_or_refuses hreachable hroom duplicate
  obtain ⟨-, htaken⟩ := takes_in_or_refuses hreachable hroom header
  obtain ⟨horphan, hinsert, -, moved, -, -, hpush, -, hactive⟩ := htaken (by decide +kernel)
  obtain ⟨grown, hgrown, -, hsame⟩ := hinsert side hmem
  rw [hsize] at hgrown hpush
  exact ⟨side, hmem, by decide +kernel, (hrefused (by decide +kernel)).1 _,
    horphan orphan (by decide +kernel), ⟨grown, hgrown, hsame⟩, moved, _, hpush,
    by decide +kernel, hactive⟩

end HybridConsensus.ChainStore
