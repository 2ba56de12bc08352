import HybridConsensus.Chain.Command
import HybridConsensus.Chain.Lineage
import Mathlib.Tactic.Common

/-!
# What every chain store keeps

A store holds a block in up to three places: in the arena, under its hash, and, if it is active, at
its height. Nothing checks that the three agree when they are read, so every change has to keep them
in step. The active branch is the one that is hard to keep: a reorganisation cuts it at the fork and
puts the new branch on the stump, and the result is a branch only because the walk down from the new
tip stops at the first block it meets there.
-/

namespace HybridConsensus.ChainStore

/-- The arena is a tree: a block lies at the place it names, genesis alone lies on no other block,
and every other block lies one above an older one. -/
structure Rooted (records : Array BlockRecord) : Prop where
  id_eq : ∀ (place : Nat) (block : BlockRecord), records[place]? = some block → block.id = place
  height_le : ∀ (place : Nat) (block : BlockRecord), records[place]? = some block →
    block.height ≤ maxHeight
  genesis : ∀ block : BlockRecord, records[0]? = some block → block.parent = none ∧ block.height = 0
  linked : ∀ (place : Nat) (block : BlockRecord), 0 < place → records[place]? = some block →
    ∃ below : BlockRecord, records[below.id]? = some below ∧ below.id < place ∧
      block.parent = some below.id ∧ block.height = below.height + 1

/-- A hash leads to a place exactly when the block there has that hash. -/
def Indexes (places : Std.TreeMap BlockHash BlockId) (records : Array BlockRecord) : Prop :=
  ∀ (hash : BlockHash) (id : BlockId),
    places[hash]? = some id ↔ ∃ block : BlockRecord, records[id]? = some block ∧ block.hash = hash

/-- The active branch starts at genesis, has a block of each height at that height, and each block
but the first lies on the one before it. -/
structure Climbs (records : Array BlockRecord) (active : Array BlockId) : Prop where
  genesis : active[0]? = some 0
  stored : ∀ (height : Nat) (id : BlockId), active[height]? = some id →
    ∃ block : BlockRecord, records[id]? = some block ∧ block.height = height
  linked : ∀ (height : Nat) (id : BlockId) (block : BlockRecord),
    active[height + 1]? = some id → records[id]? = some block → block.parent = active[height]?

structure WellFormed (store : ChainStore) : Prop where
  rooted : Rooted store.records
  indexed : Indexes store.places store.records
  climbs : Climbs store.records store.active

/-- A store that commands can bring about. -/
def Reachable (store : ChainStore) : Prop :=
  ∃ genesis commands, store = (ofGenesis genesis).run commands

/-- Every block of the older arena is still at its place in the newer. -/
def Extends (older newer : Array BlockRecord) : Prop :=
  ∀ (place : BlockId) (block : BlockRecord),
    older[place]? = some block → newer[place]? = some block

theorem Extends.refl (records : Array BlockRecord) : Extends records records :=
  fun _ _ h => h

theorem Extends.trans {first second third : Array BlockRecord} (h : Extends first second)
    (k : Extends second third) : Extends first third :=
  fun place block hblock => k place block (h place block hblock)

theorem extends_push (records : Array BlockRecord) (block : BlockRecord) :
    Extends records (records.push block) := by
  intro place older holder
  have hplace := (Array.getElem?_eq_some_iff.mp holder).1
  rwa [Array.getElem?_push, if_neg (Nat.ne_of_lt hplace)]

/-! ### The arena -/

section Arena

variable {records : Array BlockRecord} {block older : BlockRecord}

theorem Rooted.getElem?_id (h : Rooted records) (hmem : block ∈ records) :
    records[block.id]? = some block := by
  obtain ⟨place, hplace⟩ := Array.getElem?_of_mem hmem
  rwa [h.id_eq place block hplace]

theorem WellFormed.height_le {store : ChainStore} (h : store.WellFormed)
    (hmem : block ∈ store.records) : block.height ≤ maxHeight :=
  h.rooted.height_le _ _ (h.rooted.getElem?_id hmem)

theorem mem_of_getElem?_id {place : BlockId} (h : records[place]? = some block) :
    block ∈ records :=
  Array.mem_of_getElem? h

theorem Rooted.parent_eq_none_iff (h : Rooted records) (hmem : block ∈ records) :
    block.parent = none ↔ block.id = 0 := by
  have hblock := h.getElem?_id hmem
  constructor
  · intro hparent
    by_contra hne
    obtain ⟨below, -, -, hbelow, -⟩ := h.linked _ _ (Nat.pos_of_ne_zero hne) hblock
    rw [hparent] at hbelow
    cases hbelow
  · intro hid
    rw [hid] at hblock
    exact (h.genesis _ hblock).1

theorem Rooted.height_eq_zero_iff (h : Rooted records) (hmem : block ∈ records) :
    block.height = 0 ↔ block.id = 0 := by
  have hblock := h.getElem?_id hmem
  constructor
  · intro hheight
    by_contra hne
    obtain ⟨below, -, -, -, hbelow⟩ := h.linked _ _ (Nat.pos_of_ne_zero hne) hblock
    omega
  · intro hid
    rw [hid] at hblock
    exact (h.genesis _ hblock).2

theorem Rooted.push (h : Rooted records) (hne : 0 < records.size) {below : BlockRecord}
    (hbelow : records[below.id]? = some below) (hroom : below.height < maxHeight)
    (hid : block.id = records.size) (hparent : block.parent = some below.id)
    (hheight : block.height = below.height + 1) : Rooted (records.push block) := by
  have hplace := (Array.getElem?_eq_some_iff.mp hbelow).1
  have hcases : ∀ place found, (records.push block)[place]? = some found →
      place = records.size ∧ found = block ∨ records[place]? = some found := by
    intro place found hfound
    rw [Array.getElem?_push] at hfound
    split at hfound
    · next heq => exact .inl ⟨heq, (Option.some.inj hfound).symm⟩
    · exact .inr hfound
  constructor
  case id_eq =>
    intro place found hfound
    rcases hcases place found hfound with ⟨rfl, rfl⟩ | hold
    · exact hid
    · exact h.id_eq place found hold
  case height_le =>
    intro place found hfound
    rcases hcases place found hfound with ⟨rfl, rfl⟩ | hold
    · omega
    · exact h.height_le place found hold
  case genesis =>
    intro found hfound
    rcases hcases 0 found hfound with ⟨hsize, -⟩ | hold
    · omega
    · exact h.genesis found hold
  case linked =>
    intro place found hpos hfound
    rcases hcases place found hfound with ⟨rfl, rfl⟩ | hold
    · exact ⟨below, extends_push _ _ _ _ hbelow, hplace, hparent, hheight⟩
    · obtain ⟨under, hunder, hrest⟩ := h.linked place found hpos hold
      exact ⟨under, extends_push _ _ _ _ hunder, hrest⟩

end Arena

/-! ### The hash index -/

theorem Indexes.push {places : Std.TreeMap BlockHash BlockId} {records : Array BlockRecord}
    (h : Indexes places records) {block : BlockRecord} {fresh : BlockHash}
    (hfree : places[fresh]? = none) (hfresh : block.hash = fresh) :
    Indexes (places.insert fresh records.size) (records.push block) := by
  subst hfresh
  intro hash id
  rw [Std.TreeMap.getElem?_insert]
  by_cases heq : block.hash = hash
  · subst heq
    rw [if_pos Std.ReflCmp.compare_self, Option.some.injEq]
    constructor
    · rintro rfl
      exact ⟨block, Array.getElem?_push_size, rfl⟩
    · rintro ⟨found, hfound, hhash⟩
      rw [Array.getElem?_push] at hfound
      split at hfound
      · next hid => exact hid.symm
      · have hplace := (h block.hash id).mpr ⟨found, hfound, hhash⟩
        rw [hfree] at hplace
        cases hplace
  · have hne : compare block.hash hash ≠ .eq := fun heq' => heq (Std.LawfulEqCmp.eq_of_compare heq')
    rw [if_neg hne, h hash id]
    constructor
    · rintro ⟨found, hfound, hhash⟩
      exact ⟨found, extends_push _ _ _ _ hfound, hhash⟩
    · rintro ⟨found, hfound, hhash⟩
      rw [Array.getElem?_push] at hfound
      split at hfound
      · cases hfound
        exact absurd hhash heq
      · exact ⟨found, hfound, hhash⟩

/-! ### The active branch -/

section Active

variable {records : Array BlockRecord} {active : Array BlockId}

theorem Climbs.extend {newer : Array BlockRecord} (h : Climbs records active)
    (hextends : Extends records newer) : Climbs newer active := by
  refine ⟨h.genesis, ?_, ?_⟩
  · intro height id hid
    obtain ⟨block, hblock, hheight⟩ := h.stored height id hid
    exact ⟨block, hextends _ _ hblock, hheight⟩
  · intro height id block hid hblock
    obtain ⟨older, holder, -⟩ := h.stored (height + 1) id hid
    have heq : older = block := Option.some.inj ((hextends _ _ holder).symm.trans hblock)
    exact heq ▸ h.linked height id older hid holder

theorem Climbs.push (h : Climbs records active) {block : BlockRecord} {top : BlockId}
    (hblock : records[block.id]? = some block) (hheight : block.height = active.size)
    (htop : active[active.size - 1]? = some top) (hparent : block.parent = some top) :
    Climbs records (active.push block.id) := by
  have hsize : 0 < active.size := (Array.getElem?_eq_some_iff.mp h.genesis).1
  have hcases : ∀ height id, (active.push block.id)[height]? = some id →
      height = active.size ∧ id = block.id ∨ active[height]? = some id := by
    intro height id hid
    rw [Array.getElem?_push] at hid
    split at hid
    · next heq => exact .inl ⟨heq, (Option.some.inj hid).symm⟩
    · exact .inr hid
  have hold : ∀ height, height < active.size →
      (active.push block.id)[height]? = active[height]? := by
    intro height hlt
    rw [Array.getElem?_push, if_neg (Nat.ne_of_lt hlt)]
  refine ⟨(hold 0 hsize).trans h.genesis, ?_, ?_⟩
  · intro height id hid
    rcases hcases height id hid with ⟨rfl, rfl⟩ | hid
    · exact ⟨block, hblock, hheight⟩
    · exact h.stored height id hid
  · intro height id found hid hfound
    rcases hcases (height + 1) id hid with ⟨hlast, rfl⟩ | hid
    · have heq : block = found := Option.some.inj (hblock.symm.trans hfound)
      have hbelow : height = active.size - 1 := by omega
      rw [hold height (by omega), hbelow, htop, ← heq, hparent]
    · have hlt := (Array.getElem?_eq_some_iff.mp hid).1
      rw [hold height (by omega)]
      exact h.linked height id found hid hfound

theorem getElem?_shrink (active : Array BlockId) (size height : Nat) :
    (active.shrink size)[height]? = if height < size then active[height]? else none := by
  rw [Array.shrink_eq_take, Array.take_eq_extract, Array.getElem?_extract]
  grind

theorem Climbs.shrink (h : Climbs records active) (height : Nat) :
    Climbs records (active.shrink (height + 1)) := by
  refine ⟨?_, ?_, ?_⟩
  · rw [getElem?_shrink, if_pos (Nat.succ_pos height)]
    exact h.genesis
  · intro place id hid
    rw [getElem?_shrink, Option.ite_none_right_eq_some] at hid
    exact h.stored place id hid.2
  · intro place id block hid hblock
    rw [getElem?_shrink, Option.ite_none_right_eq_some] at hid
    rw [getElem?_shrink, if_pos (by omega)]
    exact h.linked place id block hid.2 hblock

/-- The blocks lie one on the other, the first on `below`. -/
def Ascends (records : Array BlockRecord) : (below : BlockRecord) → List BlockRecord → Prop
  | _, [] => True
  | below, block :: newer =>
    records[block.id]? = some block ∧ block.parent = some below.id ∧
      block.height = below.height + 1 ∧ Ascends records block newer

theorem Climbs.append {branch : List BlockRecord} {below : BlockRecord} (h : Climbs records active)
    (hsize : active.size = below.height + 1) (htop : active[below.height]? = some below.id)
    (hbranch : Ascends records below branch) :
    Climbs records (active ++ (branch.map (·.id)).toArray) := by
  induction branch generalizing active below with
  | nil => simpa using h
  | cons block newer ih =>
    obtain ⟨hblock, hparent, hheight, hnewer⟩ := hbranch
    have hlast : active[active.size - 1]? = some below.id := by
      rw [hsize, Nat.add_sub_cancel]
      exact htop
    have hpushed : Climbs records (active.push block.id) :=
      h.push hblock (hheight.trans hsize.symm) hlast hparent
    have htop' : (active.push block.id)[block.height]? = some block.id := by
      rw [hheight, ← hsize]
      exact Array.getElem?_push_size
    have hsize' : (active.push block.id).size = block.height + 1 := by
      rw [Array.size_push, hsize, hheight]
    have happend := ih hpushed hsize' htop' hnewer
    rwa [List.map_cons, List.toArray_cons, ← Array.append_assoc, ← Array.push_eq_append]

end Active

end HybridConsensus.ChainStore
