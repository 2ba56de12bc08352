import HybridConsensus.Proofs.HeightLookup
import Mathlib.Data.Set.Function
import Mathlib.Order.Interval.Set.Defs

/-!
# The order of arrival

Two nodes hear of the same blocks in different orders, and each numbers them as they come. What they
end up with is the same store under other numbers. A block is known by its hash in both, the hash of
its parent leads down from it in both, and so the branch below it is the same in both. The active
branch adds nothing to that, since it is the branch of the tip, whatever was active before.
-/

namespace HybridConsensus

/-- The block with its place and that of its parent changed. -/
def BlockRecord.renamed (rename : BlockId → BlockId) (block : BlockRecord) : BlockRecord :=
  { block with id := rename block.id, parent := block.parent.map rename }

namespace ChainStore

/-- The hash of the parent and the header of every block but genesis. -/
def links (store : ChainStore) : List (BlockHash × BlockHeader) :=
  store.records.toList.filterMap fun block =>
    (store.predecessor? block).map fun older => (older.hash, block.toBlockHeader)

/-- `rename` takes the places of one store to those of the other, and the answer of the one store to
a query is the answer of the other with its places renamed. -/
structure Renames (rename : BlockId → BlockId) (one two : ChainStore) : Prop where
  bijOn : Set.BijOn rename (Set.Iio one.records.size) (Set.Iio two.records.size)
  stored : ∀ block ∈ one.records, block.renamed rename ∈ two.records
  find?_eq : ∀ hash, two.find? hash = (one.find? hash).map (·.renamed rename)
  tip_eq : two.tip = one.tip.renamed rename
  atHeight?_eq : ∀ height, two.atHeight? height = (one.atHeight? height).map (·.renamed rename)
  predecessor?_eq : ∀ block ∈ one.records,
    two.predecessor? (block.renamed rename) = (one.predecessor? block).map (·.renamed rename)
  ancestor?_eq : ∀ block ∈ one.records, ∀ height,
    two.ancestor? (block.renamed rename) height =
      (one.ancestor? block height).map (·.renamed rename)

variable {store one two : ChainStore} {block twin : BlockRecord}

theorem mem_links {link : BlockHash × BlockHeader} :
    link ∈ store.links ↔ ∃ block ∈ store.records, ∃ older,
      store.predecessor? block = some older ∧ (older.hash, block.toBlockHeader) = link := by
  simp only [links, List.mem_filterMap, Array.mem_toList_iff, Option.map_eq_some_iff]

/-- Two stores of the same blocks. -/
structure SameBlocks (one two : ChainStore) : Prop where
  left : one.WellFormed
  right : two.WellFormed
  genesis : one.genesis.toBlockHeader = two.genesis.toBlockHeader
  links : ∀ link, link ∈ one.links ↔ link ∈ two.links

theorem SameBlocks.symm (h : SameBlocks one two) : SameBlocks two one :=
  ⟨h.right, h.left, h.genesis.symm, fun link => (h.links link).symm⟩

/-! ### Twins -/

/-- Each block has a block like it in the other store, which lies on the twin of its parent. -/
theorem SameBlocks.exists_twin (h : SameBlocks one two) (hmem : block ∈ one.records) :
    ∃ twin ∈ two.records, twin.toBlockHeader = block.toBlockHeader ∧ twin.height = block.height ∧
      (two.predecessor? twin).map (·.hash) = (one.predecessor? block).map (·.hash) := by
  induction block, hmem using h.left.rooted.descent with
  | genesis block hmem hnone =>
    have hgenesis := (h.left.rooted.predecessor?_eq_none_iff hmem).mp hnone
    have hheight := (h.left.rooted.isGenesis_iff_height hmem).mp hgenesis
    have hblock := (h.left.rooted.eq_genesis_iff hmem).mpr hheight
    obtain ⟨hparent, hzero⟩ := h.right.rooted.genesis _ two.getElem?_zero
    refine ⟨two.genesis, mem_of_getElem?_id two.getElem?_zero, ?_, hzero.trans hheight.symm, ?_⟩
    · rw [hblock, h.genesis]
    · rw [hnone, predecessor?_of_isGenesis (isGenesis_iff.mpr hparent)]
  | step block hmem older holder hsome ih =>
    have hlink : (older.hash, block.toBlockHeader) ∈ one.links :=
      mem_links.mpr ⟨block, hmem, older, hsome, rfl⟩
    obtain ⟨twin, htwin, under, hunder, heq⟩ := mem_links.mp ((h.links _).mp hlink)
    obtain ⟨hhash, hheader⟩ := Prod.mk.inj heq
    obtain ⟨hmemUnder, -, hlower⟩ := h.right.rooted.of_predecessor? htwin hunder
    -- The block below the twin is the twin of the block below, because it has the same hash.
    obtain ⟨below, hbelow, hheaderBelow, hheightBelow, -⟩ := ih
    have hsame : under = below :=
      h.right.eq_of_hash_eq hmemUnder hbelow (hhash.trans (congrArg (·.hash) hheaderBelow.symm))
    refine ⟨twin, htwin, hheader, ?_, ?_⟩
    · rw [hlower, hsame, hheightBelow, (h.left.rooted.of_predecessor? hmem hsome).2.2]
    · rw [hunder, hsome, Option.map_some, Option.map_some, hhash]

/-- The place in the other store of the block with the same hash. -/
def placeIn (one two : ChainStore) (place : BlockId) : BlockId :=
  match one.records[place]? with
  | some block => ((two.find? block.hash).map (·.id)).getD place
  | none => place

theorem SameBlocks.placeIn_id (h : SameBlocks one two) (hmem : block ∈ one.records)
    (htwin : twin ∈ two.records) (hhash : twin.hash = block.hash) :
    one.placeIn two block.id = twin.id := by
  have hfind := h.right.find?_eq_some_iff.mpr ⟨htwin, hhash⟩
  simp only [placeIn, h.left.rooted.getElem?_id hmem, hfind, Option.map_some, Option.getD_some]

theorem SameBlocks.renamed_eq (h : SameBlocks one two) (hmem : block ∈ one.records)
    (htwin : twin ∈ two.records) (hhash : twin.hash = block.hash) :
    block.renamed (one.placeIn two) = twin := by
  obtain ⟨like, hlike, hheader, hheight, hbelow⟩ := h.exists_twin hmem
  have hsame : like = twin :=
    h.right.eq_of_hash_eq hlike htwin ((congrArg (·.hash) hheader).trans hhash.symm)
  rw [hsame] at hheader hheight hbelow
  have hparent : block.parent.map (one.placeIn two) = twin.parent := by
    cases hone : one.predecessor? block with
    | none =>
      rw [hone, Option.map_none, Option.map_eq_none_iff,
        h.right.rooted.predecessor?_eq_none_iff htwin, isGenesis_iff] at hbelow
      rw [h.left.rooted.predecessor?_eq_none_iff hmem, isGenesis_iff] at hone
      rw [hone, hbelow, Option.map_none]
    | some older =>
      rw [hone, Option.map_some, Option.map_eq_some_iff] at hbelow
      obtain ⟨under, hunder, hhashUnder⟩ := hbelow
      obtain ⟨holder, hparentBlock, -⟩ := h.left.rooted.of_predecessor? hmem hone
      obtain ⟨hmemUnder, hparentTwin, -⟩ := h.right.rooted.of_predecessor? htwin hunder
      rw [hparentBlock, hparentTwin, Option.map_some, h.placeIn_id holder hmemUnder hhashUnder]
  unfold BlockRecord.renamed
  rw [hparent, h.placeIn_id hmem htwin hhash, ← hheader, ← hheight]

theorem SameBlocks.renamed_mem (h : SameBlocks one two) (hmem : block ∈ one.records) :
    block.renamed (one.placeIn two) ∈ two.records := by
  obtain ⟨twin, htwin, hheader, -, -⟩ := h.exists_twin hmem
  rwa [h.renamed_eq hmem htwin (congrArg (·.hash) hheader)]

/-! ### Queries -/

theorem SameBlocks.find?_eq (h : SameBlocks one two) (hash : BlockHash) :
    two.find? hash = (one.find? hash).map (·.renamed (one.placeIn two)) := by
  cases hone : one.find? hash with
  | some block =>
    obtain ⟨hmem, hhash⟩ := h.left.find?_eq_some_iff.mp hone
    exact h.right.find?_eq_some_iff.mpr ⟨h.renamed_mem hmem, hhash⟩
  | none =>
    cases htwo : two.find? hash with
    | none => rfl
    | some twin =>
      obtain ⟨htwin, hhash⟩ := h.right.find?_eq_some_iff.mp htwo
      obtain ⟨block, hmem, hheader, -, -⟩ := h.symm.exists_twin htwin
      have hfound := h.left.find?_eq_some_iff.mpr ⟨hmem, congrArg (·.hash) hheader⟩
      rw [hhash, hone] at hfound
      cases hfound

theorem SameBlocks.predecessor?_eq (h : SameBlocks one two) (hmem : block ∈ one.records) :
    two.predecessor? (block.renamed (one.placeIn two)) =
      (one.predecessor? block).map (·.renamed (one.placeIn two)) := by
  obtain ⟨twin, htwin, hheader, -, hbelow⟩ := h.exists_twin hmem
  rw [h.renamed_eq hmem htwin (congrArg (·.hash) hheader)]
  cases hone : one.predecessor? block with
  | none => simpa [hone] using hbelow
  | some older =>
    rw [hone, Option.map_some, Option.map_eq_some_iff] at hbelow
    obtain ⟨under, hunder, hhash⟩ := hbelow
    have holder := (h.left.rooted.of_predecessor? hmem hone).1
    have hmemUnder := (h.right.rooted.of_predecessor? htwin hunder).1
    rw [hunder, Option.map_some, h.renamed_eq holder hmemUnder hhash]

theorem SameBlocks.lineage_eq (h : SameBlocks one two) (hmem : block ∈ one.records) :
    two.lineage (block.renamed (one.placeIn two)) =
      (one.lineage block).map (·.renamed (one.placeIn two)) := by
  induction block, hmem using h.left.rooted.descent with
  | genesis block hmem hnone =>
    have htwo := h.predecessor?_eq hmem
    rw [hnone, Option.map_none] at htwo
    rw [lineage_of_predecessor_none htwo, lineage_of_predecessor_none hnone, List.map_singleton]
  | step block hmem older holder hsome ih =>
    have htwo := h.predecessor?_eq hmem
    rw [hsome, Option.map_some] at htwo
    rw [lineage_of_predecessor_some htwo, lineage_of_predecessor_some hsome, ih, List.map_cons]

theorem SameBlocks.ancestor?_eq (h : SameBlocks one two) (hmem : block ∈ one.records)
    (height : Nat) :
    two.ancestor? (block.renamed (one.placeIn two)) height =
      (one.ancestor? block height).map (·.renamed (one.placeIn two)) := by
  rw [h.left.ancestor?_eq_walkToHeight? hmem,
    h.right.ancestor?_eq_walkToHeight? (h.renamed_mem hmem), walkToHeight?_eq_find,
    walkToHeight?_eq_find, h.lineage_eq hmem, List.find?_map]
  change (if block.height < height then _ else _) = _
  by_cases hlt : block.height < height
  · rw [if_pos hlt, if_pos hlt, Option.map_none]
  · rw [if_neg hlt, if_neg hlt]
    rfl

theorem SameBlocks.tip_eq (h : SameBlocks one two) (htip : one.tip.hash = two.tip.hash) :
    two.tip = one.tip.renamed (one.placeIn two) :=
  (h.renamed_eq h.left.tip_mem_and_isActive.1 h.right.tip_mem_and_isActive.1 htip.symm).symm

theorem SameBlocks.bijOn_placeIn (h : SameBlocks one two) :
    Set.BijOn (one.placeIn two) (Set.Iio one.records.size) (Set.Iio two.records.size) := by
  have hstored : ∀ {store : ChainStore} {place : BlockId}, store.WellFormed →
      place < store.records.size → ∃ block ∈ store.records, block.id = place := by
    intro store place hstore hlt
    have hblock := Array.getElem?_eq_getElem hlt
    exact ⟨_, mem_of_getElem?_id hblock, hstore.rooted.id_eq _ _ hblock⟩
  refine ⟨?_, ?_, ?_⟩
  · intro place hplace
    obtain ⟨block, hmem, rfl⟩ := hstored h.left hplace
    have htwin := h.right.rooted.getElem?_id (h.renamed_mem hmem)
    exact (Array.getElem?_eq_some_iff.mp htwin).1
  · intro first hfirst second hsecond hsame
    obtain ⟨left, hleft, rfl⟩ := hstored h.left hfirst
    obtain ⟨right, hright, rfl⟩ := hstored h.left hsecond
    have hplaces := h.right.rooted.getElem?_id (h.renamed_mem hleft)
    have hother := h.right.rooted.getElem?_id (h.renamed_mem hright)
    change two.records[one.placeIn two left.id]? = _ at hplaces
    rw [hsame] at hplaces
    have hrenamed := Option.some.inj (hplaces.symm.trans hother)
    have hhash : left.hash = right.hash := congrArg (·.hash) hrenamed
    rw [h.left.eq_of_hash_eq hleft hright hhash]
  · intro place hplace
    obtain ⟨twin, htwin, rfl⟩ := hstored h.right hplace
    obtain ⟨block, hmem, hheader, -, -⟩ := h.symm.exists_twin htwin
    have hlt := (Array.getElem?_eq_some_iff.mp (h.left.rooted.getElem?_id hmem)).1
    exact ⟨block.id, hlt, h.placeIn_id hmem htwin (congrArg (·.hash) hheader).symm⟩

theorem SameBlocks.renames (h : SameBlocks one two) (htip : one.tip.hash = two.tip.hash) :
    Renames (one.placeIn two) one two := by
  have htips := h.tip_eq htip
  constructor
  case bijOn => exact h.bijOn_placeIn
  case stored => exact fun _ => h.renamed_mem
  case find?_eq => exact h.find?_eq
  case tip_eq => exact htips
  case atHeight?_eq =>
    intro height
    rw [h.left.atHeight?_eq_ancestor?_tip, h.right.atHeight?_eq_ancestor?_tip, htips,
      h.ancestor?_eq h.left.tip_mem_and_isActive.1]
  case predecessor?_eq => exact fun _ => h.predecessor?_eq
  case ancestor?_eq => exact fun _ => h.ancestor?_eq

theorem genesis_run (genesis : BlockHeader) (commands : List ChainCommand) :
    ((ofGenesis genesis).run commands).genesis.toBlockHeader = genesis := by
  have hkept := (ofGenesis genesis).extends_run commands 0 _ (ofGenesis genesis).getElem?_zero
  rw [getElem?_zero, Option.some.injEq] at hkept
  rw [hkept]
  rfl

/-- **A store does not show the order of arrival.** Two runs from one genesis header that end with
the same blocks on the same parents and with the same tip give the same answers under other
places. -/
theorem exists_renames_of_links (genesis : BlockHeader) (first second : List ChainCommand)
    (hlinks : ∀ link, link ∈ ((ofGenesis genesis).run first).links ↔
      link ∈ ((ofGenesis genesis).run second).links)
    (htip : ((ofGenesis genesis).run first).tip.hash = ((ofGenesis genesis).run second).tip.hash) :
    ∃ rename, Renames rename ((ofGenesis genesis).run first) ((ofGenesis genesis).run second) := by
  have hsame : SameBlocks ((ofGenesis genesis).run first) ((ofGenesis genesis).run second) :=
    { left := (wellFormed_ofGenesis genesis).run first
      right := (wellFormed_ofGenesis genesis).run second
      genesis := by rw [genesis_run, genesis_run]
      links := hlinks }
  exact ⟨_, hsame.renames htip⟩

/-- Two blocks, and one beside the second. -/
def inOrder : ChainStore :=
  (ofGenesis (numbered 0 .work 0 0x1f00ffff)).run [
    .push (numbered 1 .work 150 0x1f00ffff), .push (numbered 2 .stake 300 0x1d00ffff),
    .insert (numbered 1 .work 0 0).hash (numbered 3 .work 310 0x1f00ffff)]

/-- The same blocks, but the other branch comes first and is left again, and two blocks are refused
on the way. -/
def outOfOrder : ChainStore :=
  (ofGenesis (numbered 0 .work 0 0x1f00ffff)).run [
    .push (numbered 1 .work 150 0x1f00ffff), .push (numbered 3 .work 310 0x1f00ffff),
    .insert (numbered 9 .work 0 0).hash (numbered 2 .stake 300 0x1d00ffff),
    .insert (numbered 1 .work 0 0).hash (numbered 2 .stake 300 0x1d00ffff),
    .activate (numbered 2 .work 0 0).hash, .push (numbered 3 .work 310 0x1f00ffff)]

theorem exists_renames_of_links_of_other_branch_first :
    (∀ link, link ∈ inOrder.links ↔ link ∈ outOfOrder.links) ∧
      inOrder.tip.hash = outOfOrder.tip.hash ∧
      ∃ rename, Renames rename inOrder outOfOrder ∧ rename 2 = 3 ∧ rename 3 = 2 := by
  have hforth : ∀ link ∈ inOrder.links, link ∈ outOfOrder.links := by decide +kernel
  have hback : ∀ link ∈ outOfOrder.links, link ∈ inOrder.links := by decide +kernel
  have htip : inOrder.tip.hash = outOfOrder.tip.hash := by decide +kernel
  have hlinks : ∀ link, link ∈ inOrder.links ↔ link ∈ outOfOrder.links :=
    fun link => ⟨hforth link, hback link⟩
  have hexists : ∃ rename, Renames rename inOrder outOfOrder :=
    exists_renames_of_links _ _ _ hlinks htip
  obtain ⟨rename, hrenames⟩ := hexists
  have hplace : ∀ hash one two, (inOrder.find? hash).map (·.id) = some one →
      (outOfOrder.find? hash).map (·.id) = some two → rename one = two := by
    intro hash one two hone htwo
    obtain ⟨block, hblock, rfl⟩ := Option.map_eq_some_iff.mp hone
    rw [hrenames.find?_eq hash, hblock] at htwo
    exact Option.some.inj htwo
  have hsecond : rename 2 = 3 :=
    hplace (numbered 2 .work 0 0).hash 2 3 (by decide +kernel) (by decide +kernel)
  have hthird : rename 3 = 2 :=
    hplace (numbered 3 .work 0 0).hash 3 2 (by decide +kernel) (by decide +kernel)
  exact ⟨hlinks, htip, rename, hrenames, hsecond, hthird⟩

end ChainStore

end HybridConsensus
