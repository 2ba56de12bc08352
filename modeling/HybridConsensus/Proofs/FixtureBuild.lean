import HybridConsensus.Proofs.FixtureHeights
import HybridConsensus.Proofs.TakingIn
import Mathlib.Data.List.Induction

/-!
# Filling a store from a fixture

While a store is filled, the hash and height of the last entry are kept beside it, and only another
parent is looked up. Both ways to a parent's height lead to the same record, because the pair is
that of the youngest record at every step. So each entry is stored as the fixture says, or fails for
the reason the fixture gives, on the records that the entries before it describe.
-/

namespace HybridConsensus

namespace ChainStore

variable {store : ChainStore} {block below : BlockRecord} {header : BlockHeader}

/-- The record that was taken in last. -/
def youngest (store : ChainStore) : BlockRecord :=
  store.records.back store.nonempty

theorem getLast?_records (store : ChainStore) :
    store.records.toList.getLast? = some store.youngest := by
  rw [Array.getLast?_toList, Array.back?]
  exact Array.getElem?_eq_getElem _

theorem youngest_mem (store : ChainStore) : store.youngest ∈ store.records :=
  Array.back_mem _

theorem toList_records_putOn (store : ChainStore) (below : BlockRecord) (header : BlockHeader) :
    (store.putOn below header).records.toList =
      store.records.toList ++ [store.newest below header] :=
  Array.toList_push

theorem youngest_putOn (store : ChainStore) (below : BlockRecord) (header : BlockHeader) :
    (store.putOn below header).youngest = store.newest below header := by
  have hlast := (store.putOn below header).getLast?_records
  rw [toList_records_putOn, List.getLast?_concat] at hlast
  exact (Option.some.inj hlast).symm

/-- A block has no more blocks below it than there are older ones. -/
theorem Rooted.height_le_id (h : Rooted store.records) (hmem : block ∈ store.records) :
    block.height ≤ block.id := by
  induction block, hmem using h.descent with
  | genesis block hmem hnone =>
    have hgenesis := (h.predecessor?_eq_none_iff hmem).mp hnone
    rw [(h.isGenesis_iff_height hmem).mp hgenesis]
    exact Nat.zero_le _
  | step block hmem older _ hsome ih =>
    calc block.height
        = older.height + 1 := (h.of_predecessor? hmem hsome).2.2
      _ ≤ older.id + 1 := Nat.succ_le_succ ih
      _ ≤ block.id := predecessor?_id_lt hsome

theorem WellFormed.parentFor_of_full (h : store.WellFormed) (hfresh : ¬store.Knows header.hash)
    (hbelow : below ∈ store.records) (hfull : maxHeight ≤ below.height) :
    store.parentFor below.hash header = .error .heightOverflow := by
  unfold parentFor
  rw [Std.TreeMap.contains_eq_isSome_getElem?, h.getElem?_places_eq_none_iff.mpr hfresh,
    h.find?_eq_some_iff.mpr ⟨hbelow, rfl⟩]
  exact if_neg (Nat.not_lt.mpr hfull)

end ChainStore

namespace Fixture

open ChainStore

variable {digest : List UInt8 → Digest} {genesis entry : BlockEntry}
  {earlier blocks : List BlockEntry} {chain next : FixtureChain} {store : ChainStore}
  {below block record : BlockRecord} {header : BlockHeader} {error : FixtureError}

/-! ### Looking a name up -/

theorem not_knows_iff {hash : BlockHash} :
    ¬store.Knows hash ↔ ∀ older ∈ store.records.toList, older.hash ≠ hash := by
  simp [Knows]

/-- The record of a hash, where `missing` is for a hash that no record has. -/
def locate (store : ChainStore) (missing : BlockHash → ChainError) (hash : BlockHash) :
    Except FixtureError BlockRecord :=
  match store.find? hash with
  | some block => .ok block
  | none => .error (.chain (missing hash))

/-- The record that a text names, and the youngest one without a text. -/
def lookUp (store : ChainStore) (missing : BlockHash → ChainError) (name : Option String) :
    Except FixtureError BlockRecord :=
  match name with
  | none => .ok store.youngest
  | some text => parseHash text >>= locate store missing

theorem locate_eq_ok_iff (h : store.WellFormed) {missing : BlockHash → ChainError}
    {hash : BlockHash} :
    locate store missing hash = .ok block ↔ block ∈ store.records ∧ block.hash = hash := by
  rw [← h.find?_eq_some_iff, locate]
  cases store.find? hash <;> simp

theorem locate_eq_error_iff (h : store.WellFormed) {missing : BlockHash → ChainError}
    {hash : BlockHash} :
    locate store missing hash = .error error ↔
      ¬store.Knows hash ∧ error = .chain (missing hash) := by
  rw [← h.find?_eq_none_iff, locate]
  cases store.find? hash <;> simp [eq_comm]

theorem lookUp_eq_ok_iff (h : store.WellFormed) {missing : BlockHash → ChainError}
    {name : Option String} :
    lookUp store missing name = .ok block ↔ Names name store.records.toList block := by
  cases name with
  | none =>
    rw [lookUp, Names, getLast?_records]
    simp
  | some text =>
    simp only [lookUp, Names, bind_eq_ok_iff, parseHash_eq_ok_iff, locate_eq_ok_iff h,
      Array.mem_toList_iff]
    constructor
    · rintro ⟨hash, htext, hmem, rfl⟩
      exact ⟨hmem, htext⟩
    · rintro ⟨hmem, htext⟩
      exact ⟨block.hash, htext, hmem, rfl⟩

theorem lookUp_eq_error_iff (h : store.WellFormed) {missing : BlockHash → ChainError}
    {name : Option String} :
    lookUp store missing name = .error error ↔
      NameFails missing name store.records.toList error := by
  cases name with
  | none => exact iff_of_false nofun nofun
  | some text =>
    simp only [lookUp, bind_eq_error_iff, parseHash_eq_error_iff, parseHash_eq_ok_iff,
      locate_eq_error_iff h, not_knows_iff]
    constructor
    · rintro (⟨hunreadable, rfl⟩ | ⟨hash, htext, hmissing, rfl⟩)
      · exact .text rfl hunreadable
      · exact .hash rfl htext hmissing
    · intro hfails
      cases hfails with
      | text hname hunreadable =>
        cases hname
        exact .inl ⟨hunreadable, rfl⟩
      | hash hname htext hmissing =>
        cases hname
        exact .inr ⟨_, htext, hmissing, rfl⟩

/-! ### Taking a header in -/

def takeIn (store : ChainStore) (below : BlockRecord) (header : BlockHeader) :
    Except FixtureError FixtureChain :=
  inChain (store.insert below.hash header).2 >>= fun _ =>
    .ok {
      store := (store.insert below.hash header).1
      last := header.hash
      height := below.height + 1 }

theorem takeIn_of_knows (h : store.WellFormed) (hknown : store.Knows header.hash) :
    takeIn store below header = .error (.chain (.duplicate header.hash)) := by
  rw [takeIn, insert_of_error (h.parentFor_of_knows hknown _)]
  rfl

theorem takeIn_of_full (h : store.WellFormed) (hfresh : ¬store.Knows header.hash)
    (hbelow : below ∈ store.records) (hfull : maxHeight ≤ below.height) :
    takeIn store below header = .error (.chain .heightOverflow) := by
  rw [takeIn, insert_of_error (h.parentFor_of_full hfresh hbelow hfull)]
  rfl

theorem takeIn_of_room (h : store.WellFormed) (hfresh : ¬store.Knows header.hash)
    (hbelow : below ∈ store.records) (hroom : below.height < maxHeight) :
    takeIn store below header =
      .ok {
        store := store.putOn below header
        last := header.hash
        height := below.height + 1 } := by
  rw [takeIn, insert_eq (h.parentFor_of_mem hfresh hbelow hroom)]
  rfl

/-! ### One entry -/

/-- The store holds what the entries describe, and what is kept beside it is of the youngest. -/
structure Making (digest : List UInt8 → Digest) (genesis : BlockEntry) (blocks : List BlockEntry)
    (chain : FixtureChain) : Prop where
  wellFormed : chain.store.WellFormed
  describes : Describes digest genesis blocks chain.store.records.toList
  last_eq : chain.last = chain.store.youngest.hash
  height_eq : chain.height = chain.store.youngest.height

theorem Making.locate_last (h : Making digest genesis blocks chain)
    (missing : BlockHash → ChainError) :
    locate chain.store missing chain.last = .ok chain.store.youngest :=
  (locate_eq_ok_iff h.wellFormed).mpr ⟨chain.store.youngest_mem, h.last_eq.symm⟩

/-- The parent's height is that of its record, whether it is looked up or was kept. -/
theorem Making.parentOf_eq (h : Making digest genesis blocks chain) (entry : BlockEntry) :
    chain.parentOf entry =
      lookUp chain.store .unknownParent entry.parent >>= fun below =>
        .ok (below.hash, below.height) := by
  unfold FixtureChain.parentOf lookUp
  cases entry.parent with
  | none =>
    rw [h.last_eq, h.height_eq]
    rfl
  | some text =>
    simp only
    rw [bind_assoc]
    refine bind_congr fun parent => ?_
    by_cases hlast : parent = chain.last
    · rw [if_pos hlast, hlast, h.locate_last, h.height_eq, h.last_eq]
      rfl
    · rw [if_neg hlast, locate]
      cases hfind : chain.store.find? parent with
      | none => rfl
      | some block =>
        rw [← (h.wellFormed.find?_eq_some_iff.mp hfind).2]
        rfl

theorem Making.add_eq (h : Making digest genesis blocks chain) (entry : BlockEntry) :
    chain.add digest entry =
      lookUp chain.store .unknownParent entry.parent >>= fun below =>
        entry.header digest (some below.hash) (below.height + 1) >>= takeIn chain.store below := by
  unfold FixtureChain.add
  rw [h.parentOf_eq, bind_assoc]
  rfl

theorem mem_of_names {name : Option String} {records : List BlockRecord}
    (h : Names name records block) : block ∈ records := by
  cases name with
  | none => exact List.mem_of_getLast? h
  | some text => exact h.1

theorem Making.add_eq_takeIn (h : Making digest genesis blocks chain)
    (hbelow : Names entry.parent chain.store.records.toList below)
    (hheader : Gives digest entry (some below.hash) (below.height + 1) header) :
    chain.add digest entry = takeIn chain.store below header := by
  rw [h.add_eq, (lookUp_eq_ok_iff h.wellFormed).mpr hbelow]
  change entry.header digest (some below.hash) (below.height + 1) >>= _ = _
  rw [header_eq_ok_iff.mpr hheader]
  rfl

theorem Making.add_of_fails (h : Making digest genesis blocks chain)
    (hfails : EntryFails digest chain.store.records.toList entry error) :
    chain.add digest entry = .error error := by
  cases hfails with
  | parent hname =>
    rw [h.add_eq, bind_eq_error_iff]
    exact .inl ((lookUp_eq_error_iff h.wellFormed).mpr hname)
  | header hbelow hheader =>
    rw [h.add_eq, bind_eq_error_iff]
    exact .inr ⟨_, (lookUp_eq_ok_iff h.wellFormed).mpr hbelow,
      bind_eq_error_iff.mpr (.inl (header_eq_error_iff.mpr hheader))⟩
  | duplicate hbelow hheader holder hhash =>
    rw [h.add_eq_takeIn hbelow hheader]
    exact takeIn_of_knows h.wellFormed ⟨_, Array.mem_toList_iff.mp holder, hhash⟩

/-- An entry fails for a reason of its own, or it has a fresh header that only a lack of room keeps
out. -/
theorem Making.add_cases (h : Making digest genesis blocks chain) (entry : BlockEntry) :
    (∃ error, EntryFails digest chain.store.records.toList entry error ∧
      chain.add digest entry = .error error) ∨
    ∃ below header, Names entry.parent chain.store.records.toList below ∧
      Gives digest entry (some below.hash) (below.height + 1) header ∧
      ¬chain.store.Knows header.hash ∧
      chain.add digest entry = takeIn chain.store below header := by
  have hfail : ∀ {error}, EntryFails digest chain.store.records.toList entry error →
      ∃ error, EntryFails digest chain.store.records.toList entry error ∧
        chain.add digest entry = .error error :=
    fun hfails => ⟨_, hfails, h.add_of_fails hfails⟩
  cases hbelow : lookUp chain.store .unknownParent entry.parent with
  | error error => exact .inl (hfail (.parent ((lookUp_eq_error_iff h.wellFormed).mp hbelow)))
  | ok below =>
    rw [lookUp_eq_ok_iff h.wellFormed] at hbelow
    cases hheader : entry.header digest (some below.hash) (below.height + 1) with
    | error error => exact .inl (hfail (.header hbelow (header_eq_error_iff.mp hheader)))
    | ok header =>
      rw [header_eq_ok_iff] at hheader
      by_cases hknown : chain.store.Knows header.hash
      · obtain ⟨older, holder, hhash⟩ := hknown
        exact .inl (hfail (.duplicate hbelow hheader (Array.mem_toList_iff.mpr holder) hhash))
      · exact .inr ⟨below, header, hbelow, hheader, hknown, h.add_eq_takeIn hbelow hheader⟩

/-- A header that is taken in makes the record that its entry says. -/
theorem Making.putOn (h : Making digest genesis blocks chain)
    (hbelow : Names entry.parent chain.store.records.toList below)
    (hheader : Gives digest entry (some below.hash) (below.height + 1) header)
    (hfresh : ¬chain.store.Knows header.hash) (hroom : below.height < maxHeight) :
    Making digest genesis (blocks ++ [entry])
      { store := chain.store.putOn below header
        last := header.hash
        height := below.height + 1 } := by
  have hmem := Array.mem_toList_iff.mp (mem_of_names hbelow)
  have hstored : StoredAs digest entry chain.store.records.toList
      (chain.store.newest below header) :=
    { id_eq := rfl
      fresh := not_knows_iff.mp hfresh
      height_le := hroom
      linked := ⟨below, hbelow, rfl, rfl, hheader⟩ }
  refine ⟨h.wellFormed.putOn (h.wellFormed.parentFor_of_mem hfresh hmem hroom), ?_, ?_, ?_⟩
  · rw [toList_records_putOn]
    exact describes_append_iff.mpr ⟨h.describes, hstored⟩
  · rw [youngest_putOn]
    rfl
  · rw [youngest_putOn]
    rfl

/-- An entry that goes in is stored as it says. -/
theorem Making.add (h : Making digest genesis blocks chain)
    (hadd : chain.add digest entry = .ok next) :
    Making digest genesis (blocks ++ [entry]) next := by
  rcases h.add_cases entry with
    ⟨error, -, herror⟩ | ⟨below, header, hbelow, hheader, hfresh, htaken⟩
  · rw [herror] at hadd
    cases hadd
  · have hmem := Array.mem_toList_iff.mp (mem_of_names hbelow)
    rw [htaken] at hadd
    by_cases hroom : below.height < maxHeight
    · rw [takeIn_of_room h.wellFormed hfresh hmem hroom] at hadd
      cases hadd
      exact h.putOn hbelow hheader hfresh hroom
    · rw [takeIn_of_full h.wellFormed hfresh hmem (Nat.not_lt.mp hroom)] at hadd
      cases hadd

/-- What an entry says is stored goes in. -/
theorem Making.exists_add (h : Making digest genesis blocks chain)
    (hstored : StoredAs digest entry chain.store.records.toList record) :
    ∃ next, chain.add digest entry = .ok next ∧
      next.store.records.toList = chain.store.records.toList ++ [record] := by
  obtain ⟨below, hbelow, hparent, hheight, hgives⟩ := hstored.linked
  have hmem := Array.mem_toList_iff.mp (mem_of_names hbelow)
  have hrecord : chain.store.newest below record.toBlockHeader = record := by
    unfold newest
    rw [← hparent, ← hheight, ← Array.length_toList, ← hstored.id_eq]
  have hroom : below.height < maxHeight := by
    have hle := hstored.height_le
    omega
  refine ⟨_, (h.add_eq_takeIn hbelow (hheight ▸ hgives)).trans
    (takeIn_of_room h.wellFormed (not_knows_iff.mpr hstored.fresh) hmem hroom), ?_⟩
  rw [toList_records_putOn, hrecord]

/-- No record lies higher than there are entries beside that of genesis. -/
theorem Making.height_le (h : Making digest genesis blocks chain)
    (hmem : block ∈ chain.store.records) : block.height ≤ blocks.length := by
  have hplace := (Array.getElem?_eq_some_iff.mp (h.wellFormed.rooted.getElem?_id hmem)).1
  have hlength := h.describes.length_eq
  rw [Array.length_toList] at hlength
  calc block.height
      ≤ block.id := h.wellFormed.rooted.height_le_id hmem
    _ ≤ blocks.length := Nat.le_of_lt_succ (by rwa [hlength] at hplace)

theorem Making.add_of_full (h : Making digest genesis blocks chain)
    (hbelow : Names entry.parent chain.store.records.toList below)
    (hfull : below.height = maxHeight)
    (hheader : Gives digest entry (some below.hash) (below.height + 1) header)
    (hfresh : ¬chain.store.Knows header.hash) :
    chain.add digest entry = .error (.chain .heightOverflow) := by
  rw [h.add_eq_takeIn hbelow hheader]
  exact takeIn_of_full h.wellFormed hfresh (Array.mem_toList_iff.mp (mem_of_names hbelow)) hfull.ge

/-- Beside the reasons an entry gives there is one more: its parent is as high as a block can be. -/
theorem Making.fails_of_add (h : Making digest genesis blocks chain)
    (hadd : chain.add digest entry = .error error) :
    EntryFails digest chain.store.records.toList entry error ∨
      error = .chain .heightOverflow ∧ ∃ below header,
        Names entry.parent chain.store.records.toList below ∧ below.height = maxHeight ∧
        Gives digest entry (some below.hash) (below.height + 1) header ∧
        ¬chain.store.Knows header.hash := by
  rcases h.add_cases entry with
    ⟨other, hfails, hother⟩ | ⟨below, header, hbelow, hheader, hfresh, htaken⟩
  · rw [hother] at hadd
    cases hadd
    exact .inl hfails
  · have hmem := Array.mem_toList_iff.mp (mem_of_names hbelow)
    rcases Nat.lt_or_eq_of_le (h.wellFormed.height_le hmem) with hroom | hfull
    · rw [htaken, takeIn_of_room h.wellFormed hfresh hmem hroom] at hadd
      cases hadd
    · rw [h.add_of_full hbelow hfull hheader hfresh] at hadd
      cases hadd
      exact .inr ⟨rfl, below, header, hbelow, hfull, hheader, hfresh⟩

/-! ### All entries -/

/-- The chain in the making when all entries are in. -/
def run (digest : List UInt8 → Digest) (genesis : BlockEntry) (blocks : List BlockEntry) :
    Except FixtureError FixtureChain :=
  genesis.header digest none 0 >>= fun header =>
    blocks.foldlM (FixtureChain.add digest)
      { store := .ofGenesis header, last := header.hash, height := 0 }

theorem run_append (digest : List UInt8 → Digest) (genesis entry : BlockEntry)
    (blocks : List BlockEntry) :
    run digest genesis (blocks ++ [entry]) =
      run digest genesis blocks >>= (FixtureChain.add digest · entry) := by
  simp only [run, List.foldlM_append, bind_assoc, List.foldlM_cons, List.foldlM_nil, bind_pure]

theorem making_ofGenesis (h : Gives digest genesis none 0 header) :
    Making digest genesis []
      { store := .ofGenesis header, last := header.hash, height := 0 } := by
  refine ⟨wellFormed_ofGenesis header, ?_, rfl, rfl⟩
  exact describes_nil_iff.mpr ⟨_, rfl, rfl, rfl, rfl, h⟩

theorem making_of_run (h : run digest genesis blocks = .ok chain) :
    Making digest genesis blocks chain := by
  induction blocks using List.reverseRecOn generalizing chain with
  | nil =>
    obtain ⟨header, hheader, hchain⟩ := bind_eq_ok_iff.mp h
    cases hchain
    exact making_ofGenesis (header_eq_ok_iff.mp hheader)
  | append_singleton earlier entry ih =>
    rw [run_append] at h
    obtain ⟨before, hbefore, hadd⟩ := bind_eq_ok_iff.mp h
    exact (ih hbefore).add hadd

/-- What entries describe is what a run over them stores. -/
theorem exists_run_of_describes {records : List BlockRecord}
    (h : Describes digest genesis blocks records) :
    ∃ chain, run digest genesis blocks = .ok chain ∧ chain.store.records.toList = records := by
  induction blocks using List.reverseRecOn generalizing records with
  | nil =>
    obtain ⟨record, rfl, hid, hheight, hparent, hgives⟩ := describes_nil_iff.mp h
    refine ⟨_, bind_eq_ok_iff.mpr ⟨record.toBlockHeader, header_eq_ok_iff.mpr hgives, rfl⟩, ?_⟩
    cases record
    cases hid
    cases hheight
    cases hparent
    rfl
  | append_singleton earlier entry ih =>
    obtain ⟨older, record, rfl, holder, hstored⟩ := exists_of_describes_append h
    obtain ⟨before, hbefore, rfl⟩ := ih holder
    obtain ⟨chain, hadd, hrecords⟩ := (making_of_run hbefore).exists_add hstored
    refine ⟨chain, ?_, hrecords⟩
    rw [run_append, bind_eq_ok_iff]
    exact ⟨before, hbefore, hadd⟩

theorem run_eq_error_iff :
    run digest genesis blocks = .error error ↔ HeaderFails genesis error ∨
      ∃ earlier entry later chain, blocks = earlier ++ entry :: later ∧
        run digest genesis earlier = .ok chain ∧ chain.add digest entry = .error error := by
  rw [run, bind_eq_error_iff, header_eq_error_iff]
  refine or_congr_right ?_
  constructor
  · rintro ⟨header, hheader, hfold⟩
    obtain ⟨earlier, entry, later, chain, rfl, hchain, hadd⟩ := foldlM_eq_error_iff.mp hfold
    exact ⟨earlier, entry, later, chain, rfl, bind_eq_ok_iff.mpr ⟨header, hheader, hchain⟩, hadd⟩
  · rintro ⟨earlier, entry, later, chain, rfl, hrun, hadd⟩
    obtain ⟨header, hheader, hchain⟩ := bind_eq_ok_iff.mp hrun
    exact ⟨header, hheader,
      foldlM_eq_error_iff.mpr ⟨earlier, entry, later, chain, rfl, hchain, hadd⟩⟩

/-! ### The whole fixture -/

/-- What is done when all entries are in: the branch of the tip becomes the active one. -/
def finish (tip : Option String) (chain : FixtureChain) : Except FixtureError ChainStore :=
  (match tip with
    | some text => parseHash text
    | none => .ok chain.last) >>= fun hash =>
      inChain (chain.store.activate hash).2 >>= fun _ => .ok (chain.store.activate hash).1

theorem Making.finish_eq (h : Making digest genesis blocks chain) (tip : Option String) :
    finish tip chain =
      lookUp chain.store .unknownBlock tip >>= fun block =>
        .ok (chain.store.switchTo block).1 := by
  have hactivate : ∀ hash, inChain (chain.store.activate hash).2 >>=
      (fun _ => .ok (chain.store.activate hash).1) =
        locate chain.store .unknownBlock hash >>= fun block =>
          .ok (chain.store.switchTo block).1 := by
    intro hash
    unfold activate locate
    cases chain.store.find? hash <;> rfl
  unfold finish lookUp
  simp only [hactivate]
  cases tip with
  | none =>
    rw [← h.locate_last .unknownBlock]
    rfl
  | some text => exact (bind_assoc ..).symm

/-- The tip is looked up among all records, and the branch up to it becomes the active one. -/
theorem buildWith_eq_run (fixture : ChainFixture) :
    fixture.buildWith digest =
      run digest fixture.genesis fixture.blocks >>= fun chain =>
        lookUp chain.store .unknownBlock fixture.tip >>= fun block =>
          .ok (chain.store.switchTo block).1 := by
  have hbuild : fixture.buildWith digest =
      run digest fixture.genesis fixture.blocks >>= finish fixture.tip := by
    unfold ChainFixture.buildWith run
    rw [bind_assoc]
    refine bind_congr fun header => bind_congr fun chain => ?_
    cases fixture.tip <;> rfl
  rw [hbuild]
  cases hrun : run digest fixture.genesis fixture.blocks with
  | error error => rfl
  | ok chain => exact (making_of_run hrun).finish_eq fixture.tip

/-- A store with the record of each entry at its place, and with the branch of the tip active. -/
structure Stored (digest : List UInt8 → Digest) (fixture : ChainFixture) (store : ChainStore) :
    Prop where
  wellFormed : store.WellFormed
  describes : Describes digest fixture.genesis fixture.blocks store.records.toList
  tip_named : Names fixture.tip store.records.toList store.tip
  activeBlocks_eq : store.activeBlocks = (store.lineage store.tip).reverse

theorem stored_of_buildWith {fixture : ChainFixture}
    (h : fixture.buildWith digest = .ok store) : Stored digest fixture store := by
  rw [buildWith_eq_run] at h
  obtain ⟨chain, hrun, h⟩ := bind_eq_ok_iff.mp h
  obtain ⟨block, hblock, h⟩ := bind_eq_ok_iff.mp h
  cases h
  have hmaking := making_of_run hrun
  have hwell := hmaking.wellFormed
  rw [lookUp_eq_ok_iff hwell] at hblock
  have hmem := Array.mem_toList_iff.mp (mem_of_names hblock)
  have hmoved := hwell.switchTo hmem
  refine ⟨hmoved, ?_, ?_, hmoved.activeBlocks_eq⟩
  · rw [switchTo_records]
    exact hmaking.describes
  · rw [switchTo_records, hwell.switchTo_tip hmem]
    exact hblock

/-- What the entries describe is built, if the tip is one of the records. -/
theorem exists_buildWith_of_describes {fixture : ChainFixture} {records : List BlockRecord}
    (h : Describes digest fixture.genesis fixture.blocks records)
    (htip : Names fixture.tip records block) :
    ∃ store, fixture.buildWith digest = .ok store ∧ store.records.toList = records := by
  obtain ⟨chain, hrun, rfl⟩ := exists_run_of_describes h
  have htip' : lookUp chain.store .unknownBlock fixture.tip = .ok block :=
    (lookUp_eq_ok_iff (making_of_run hrun).wellFormed).mpr htip
  refine ⟨(chain.store.switchTo block).1, ?_, congrArg _ (switchTo_records _ _)⟩
  rw [buildWith_eq_run, bind_eq_ok_iff]
  exact ⟨chain, hrun, bind_eq_ok_iff.mpr ⟨block, htip', rfl⟩⟩

theorem buildWith_of_firstFailure {fixture : ChainFixture}
    (h : FirstFailure digest fixture error) : fixture.buildWith digest = .error error := by
  rw [buildWith_eq_run, bind_eq_error_iff, run_eq_error_iff]
  cases h with
  | genesis hgenesis => exact .inl (.inl hgenesis)
  | block hblocks hearlier hfails =>
    obtain ⟨chain, hrun, rfl⟩ := exists_run_of_describes hearlier
    exact .inl (.inr ⟨_, _, _, chain, hblocks, hrun, (making_of_run hrun).add_of_fails hfails⟩)
  | tip hblocks hfails =>
    obtain ⟨chain, hrun, rfl⟩ := exists_run_of_describes hblocks
    have hwell := (making_of_run hrun).wellFormed
    exact .inr ⟨chain, hrun, bind_eq_error_iff.mpr (.inl ((lookUp_eq_error_iff hwell).mpr hfails))⟩

theorem buildWith_of_tooHigh {fixture : ChainFixture} (h : TooHigh digest fixture) :
    fixture.buildWith digest = .error (.chain .heightOverflow) := by
  obtain ⟨hblocks, hearlier, hbelow, hfull, hheader, hfresh⟩ := h
  obtain ⟨chain, hrun, rfl⟩ := exists_run_of_describes hearlier
  rw [buildWith_eq_run, bind_eq_error_iff, run_eq_error_iff]
  exact .inl (.inr ⟨_, _, _, chain, hblocks, hrun,
    (making_of_run hrun).add_of_full hbelow hfull hheader (not_knows_iff.mpr hfresh)⟩)

theorem TooHigh.lt_length {fixture : ChainFixture} (h : TooHigh digest fixture) :
    maxHeight < fixture.blocks.length := by
  obtain ⟨hblocks, hearlier, hbelow, hfull, -, -⟩ := h
  obtain ⟨chain, hrun, rfl⟩ := exists_run_of_describes hearlier
  have hheight := (making_of_run hrun).height_le (Array.mem_toList_iff.mp (mem_of_names hbelow))
  rw [hblocks, List.length_append, List.length_cons]
  omega

theorem firstFailure_of_buildWith {fixture : ChainFixture}
    (h : fixture.buildWith digest = .error error) :
    FirstFailure digest fixture error ∨
      error = .chain .heightOverflow ∧ TooHigh digest fixture := by
  rw [buildWith_eq_run, bind_eq_error_iff, run_eq_error_iff] at h
  rcases h with
    (hgenesis | ⟨earlier, entry, later, chain, hblocks, hrun, hadd⟩) | ⟨chain, hrun, hfinish⟩
  · exact .inl (.genesis hgenesis)
  · have hmaking := making_of_run hrun
    rcases hmaking.fails_of_add hadd with
      hfails | ⟨hoverflow, below, header, hbelow, hfull, hheader, hfresh⟩
    · exact .inl (.block hblocks hmaking.describes hfails)
    · exact .inr ⟨hoverflow, .block hblocks hmaking.describes hbelow hfull hheader
        (not_knows_iff.mp hfresh)⟩
  · have hmaking := making_of_run hrun
    rcases bind_eq_error_iff.mp hfinish with hfails | ⟨_, _, hmoved⟩
    · exact .inl (.tip hmaking.describes ((lookUp_eq_error_iff hmaking.wellFormed).mp hfails))
    · cases hmoved

end Fixture

/-- A fixture is stored entry by entry as it says, and it is refused for the first thing that is
wrong with it. The one other reason is a block on a parent that is as high as a block can be, and
only a fixture with more blocks than there are heights above genesis comes so far. -/
theorem ChainFixture.builds_or_names_first_failure (digest : List UInt8 → Digest)
    (fixture : ChainFixture) :
    (∀ store, fixture.buildWith digest = .ok store → Fixture.Stored digest fixture store) ∧
    (∀ error, Fixture.FirstFailure digest fixture error →
      fixture.buildWith digest = .error error) ∧
    (Fixture.TooHigh digest fixture →
      fixture.buildWith digest = .error (.chain .heightOverflow)) ∧
    ∀ error, fixture.buildWith digest = .error error →
      Fixture.FirstFailure digest fixture error ∨
        error = .chain .heightOverflow ∧ Fixture.TooHigh digest fixture ∧
          maxHeight < fixture.blocks.length := by
  refine ⟨?_, ?_, ?_, ?_⟩
  · intro store h
    exact Fixture.stored_of_buildWith h
  · intro error h
    exact Fixture.buildWith_of_firstFailure h
  · intro h
    exact Fixture.buildWith_of_tooHigh h
  · intro error h
    rcases Fixture.firstFailure_of_buildWith h with hfails | ⟨hoverflow, hhigh⟩
    · exact .inl hfails
    · exact .inr ⟨hoverflow, hhigh, hhigh.lt_length⟩

/-- A column with one block more than there are heights above genesis fails with nothing wrong in
any entry. A genesis entry has no parent, also if it names one that is stored: itself. -/
theorem ChainFixture.fails_without_failure_of_too_many_blocks :
    let column := Fixture.column (maxHeight + 1)
    let loop : ChainFixture :=
      { genesis := { Fixture.columnEntry 0 with parent := some (Fixture.numberedHash 0).toHex }
        blocks := []
        tip := none }
    (column.build = .error (.chain .heightOverflow) ∧
      ∀ error, column.build = .error error → ¬Fixture.FirstFailure Sha256.digest column error) ∧
    ∃ store record, loop.build = .ok store ∧ store.records.toList = [record] ∧
      Fixture.Names loop.genesis.parent [record] record ∧ record.parent = none := by
  intro column loop
  have hbuild : column.build = .error (.chain .heightOverflow) :=
    Fixture.buildWith_of_tooHigh (Fixture.tooHigh_column rfl)
  have hgives : Fixture.Gives Sha256.digest (Fixture.columnEntry 0) none 0
      (Fixture.columnRecord 0).toBlockHeader := Fixture.gives_columnEntry none 0
  have hdescribes : Fixture.Describes Sha256.digest loop.genesis [] [Fixture.columnRecord 0] :=
    Fixture.describes_nil_iff.mpr ⟨_, rfl, rfl, rfl, rfl,
      ⟨hgives.time_eq, hgives.proof_eq, hgives.bits_eq, hgives.hash_of_text, nofun⟩⟩
  obtain ⟨store, hstore, hrecords⟩ : ∃ store, loop.build = .ok store ∧
      store.records.toList = [Fixture.columnRecord 0] :=
    Fixture.exists_buildWith_of_describes hdescribes rfl
  refine ⟨⟨hbuild, ?_⟩, store, _, hstore, hrecords, ?_, rfl⟩
  · intro error herror
    rw [hbuild] at herror
    cases herror
    exact Fixture.not_firstFailure_heightOverflow column
  · exact ⟨List.mem_singleton_self _, BlockHash.ofHex_toHex _⟩

/-- The name of the parent is read before the bits. -/
example :
    (ChainFixture.buildWith (fun _ => Vector.replicate 32 0)
      { genesis := { time := 0, bits := "1f00ffff", proof := .work, hash := none, parent := none }
        blocks := [{ time := 1, bits := "none", proof := .work, hash := none, parent := some "0x" }]
        tip := none }).map (·.records.size) = .error (.invalidHash "0x") := by
  decide +kernel

end HybridConsensus
