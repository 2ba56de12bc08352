import HybridConsensus.Proofs.StoreInvariant

/-!
# Commands keep a store well formed

One lemma for each change, and from them the same for a whole run. A refused command gives the store
back as it was, so it needs no case of its own beyond that.
-/

namespace HybridConsensus.ChainStore

/-! ### Walks -/

section Walks

variable {store : ChainStore} {block older : BlockRecord}

theorem isGenesis_iff : block.isGenesis = true ↔ block.parent = none := by
  rw [BlockRecord.isGenesis, Option.isNone_iff_eq_none]

theorem Rooted.isGenesis_iff_height (h : Rooted store.records) (hmem : block ∈ store.records) :
    block.isGenesis = true ↔ block.height = 0 := by
  rw [isGenesis_iff, h.parent_eq_none_iff hmem, h.height_eq_zero_iff hmem]

/-- What a step down finds: the parent, which is stored too and lies one lower. -/
theorem Rooted.of_predecessor? (h : Rooted store.records) (hmem : block ∈ store.records)
    (holder : store.predecessor? block = some older) :
    older ∈ store.records ∧ block.parent = some older.id ∧ block.height = older.height + 1 := by
  have hid := predecessor?_id_lt holder
  obtain ⟨below, hbelow, -, hparent, hheight⟩ :=
    h.linked _ _ (Nat.zero_lt_of_lt hid) (h.getElem?_id hmem)
  have heq : older = below := by
    unfold predecessor? at holder
    simp only [hparent, hbelow, Option.bind_eq_bind, Option.bind_some,
      Option.ite_none_right_eq_some, Option.some.injEq] at holder
    exact holder.2.symm
  subst heq
  exact ⟨mem_of_getElem?_id hbelow, hparent, hheight⟩

theorem Rooted.predecessor?_eq_none_iff (h : Rooted store.records) (hmem : block ∈ store.records) :
    store.predecessor? block = none ↔ block.isGenesis = true := by
  constructor
  · intro hnone
    rw [isGenesis_iff, h.parent_eq_none_iff hmem]
    by_contra hne
    obtain ⟨below, hbelow, hlt, hparent, -⟩ :=
      h.linked _ _ (Nat.pos_of_ne_zero hne) (h.getElem?_id hmem)
    unfold predecessor? at hnone
    simp [hparent, hbelow, hlt] at hnone
  · exact predecessor?_of_isGenesis

/-- A walk that cannot pass genesis ends at a block it stops at, and the blocks it has passed lie on
that one, each on the one below it. -/
theorem Rooted.pathOnto_eq_cons (h : Rooted store.records) {stop : BlockRecord → Bool}
    (hgenesis : ∀ block ∈ store.records, block.isGenesis = true → stop block = true)
    (hmem : block ∈ store.records) {newer : List BlockRecord}
    (hnewer : Ascends store.records block newer) :
    ∃ fork branch, store.pathOnto stop block newer = fork :: branch ∧ fork ∈ store.records ∧
      stop fork = true ∧ Ascends store.records fork branch := by
  fun_induction ChainStore.pathOnto store stop block newer with
  | case1 block newer hstop => exact ⟨block, newer, rfl, hmem, hstop, hnewer⟩
  | case2 block newer hstop hnone =>
    exact absurd (hgenesis block hmem ((h.predecessor?_eq_none_iff hmem).mp hnone)) hstop
  | case3 block newer hstop older hsome ih =>
    obtain ⟨holder, hparent, hheight⟩ := h.of_predecessor? hmem hsome
    exact ih holder ⟨h.getElem?_id hmem, hparent, hheight, hnewer⟩

end Walks

/-! ### Changes -/

section Changes

variable {store : ChainStore} {block : BlockRecord}

theorem rooted_ofGenesis (genesis : BlockHeader) : Rooted (ofGenesis genesis).records := by
  have hrecord : ∀ place block, (ofGenesis genesis).records[place]? = some block →
      place = 0 ∧ block = { genesis with id := 0, height := 0, parent := none } := by
    intro place block hblock
    simp only [ofGenesis, List.getElem?_toArray, List.getElem?_singleton] at hblock
    split at hblock
    · next heq => exact ⟨heq, (Option.some.inj hblock).symm⟩
    · cases hblock
  refine ⟨?_, ?_, ?_, ?_⟩
  · intro place block hblock
    obtain ⟨rfl, rfl⟩ := hrecord place block hblock
    rfl
  · intro place block hblock
    obtain ⟨rfl, rfl⟩ := hrecord place block hblock
    exact Nat.zero_le _
  · intro block hblock
    obtain ⟨-, rfl⟩ := hrecord 0 block hblock
    exact ⟨rfl, rfl⟩
  · intro place block hpos hblock
    obtain ⟨rfl, -⟩ := hrecord place block hblock
    omega

theorem indexes_ofGenesis (genesis : BlockHeader) :
    Indexes (ofGenesis genesis).places (ofGenesis genesis).records := by
  have hempty : Indexes {} #[] := by
    intro hash id
    simp
  exact hempty.push (by simp) rfl

theorem climbs_ofGenesis (genesis : BlockHeader) :
    Climbs (ofGenesis genesis).records (ofGenesis genesis).active := by
  have hactive : ∀ (height : Nat) (id : BlockId),
      (ofGenesis genesis).active[height]? = some id → height = 0 ∧ id = 0 := by
    intro height id hid
    simp only [ofGenesis, List.getElem?_toArray, List.getElem?_singleton] at hid
    split at hid
    · next heq => exact ⟨heq, (Option.some.inj hid).symm⟩
    · cases hid
  refine ⟨rfl, ?_, ?_⟩
  · intro height id hid
    obtain ⟨rfl, rfl⟩ := hactive height id hid
    exact ⟨_, rfl, rfl⟩
  · intro height id block hid hblock
    have hzero := (hactive (height + 1) id hid).1
    omega

theorem wellFormed_ofGenesis (genesis : BlockHeader) : (ofGenesis genesis).WellFormed :=
  ⟨rooted_ofGenesis genesis, indexes_ofGenesis genesis, climbs_ofGenesis genesis⟩

theorem isActive_iff :
    store.isActive block = true ↔ store.active[block.height]? = some block.id := by
  rw [isActive, beq_iff_eq]

theorem WellFormed.isActive_of_isGenesis (h : store.WellFormed) (hmem : block ∈ store.records)
    (hgenesis : block.isGenesis = true) : store.isActive block = true := by
  have hid := (h.rooted.parent_eq_none_iff hmem).mp (isGenesis_iff.mp hgenesis)
  have hheight := (h.rooted.height_eq_zero_iff hmem).mpr hid
  rw [isActive_iff, hheight, hid]
  exact h.climbs.genesis

/-- The walk of a reorganisation: it ends at the fork, which is active. -/
theorem WellFormed.pathTo_isActive (h : store.WellFormed) (hmem : block ∈ store.records) :
    ∃ fork branch, store.pathTo store.isActive block = fork :: branch ∧ fork ∈ store.records ∧
      store.isActive fork = true ∧ Ascends store.records fork branch :=
  h.rooted.pathOnto_eq_cons (fun _ => h.isActive_of_isGenesis) hmem trivial

theorem switchTo_records (store : ChainStore) (block : BlockRecord) :
    (store.switchTo block).1.records = store.records := by
  unfold switchTo
  split <;> rfl

theorem WellFormed.switchTo (h : store.WellFormed) (hmem : block ∈ store.records) :
    (store.switchTo block).1.WellFormed := by
  obtain ⟨fork, branch, hpath, -, hactive, hbranch⟩ := h.pathTo_isActive hmem
  rw [isActive_iff] at hactive
  have hlt := (Array.getElem?_eq_some_iff.mp hactive).1
  unfold ChainStore.switchTo
  rw [hpath]
  refine ⟨h.rooted, h.indexed, (h.climbs.shrink fork.height).append ?_ ?_ hbranch⟩
  · rw [Array.size_shrink]
    omega
  · rw [getElem?_shrink, if_pos (Nat.lt_succ_self _)]
    exact hactive

theorem WellFormed.find?_eq_some_iff (h : store.WellFormed) {hash : BlockHash} :
    store.find? hash = some block ↔ block ∈ store.records ∧ block.hash = hash := by
  unfold find?
  rw [Option.bind_eq_bind, Option.bind_eq_some_iff]
  constructor
  · rintro ⟨id, hid, hblock⟩
    obtain ⟨found, hfound, hhash⟩ := (h.indexed hash id).mp hid
    cases hblock.symm.trans hfound
    exact ⟨mem_of_getElem?_id hblock, hhash⟩
  · rintro ⟨hmem, hhash⟩
    have hblock := h.rooted.getElem?_id hmem
    exact ⟨block.id, (h.indexed hash block.id).mpr ⟨block, hblock, hhash⟩, hblock⟩

theorem WellFormed.eq_of_hash_eq (h : store.WellFormed) {other : BlockRecord}
    (hblock : block ∈ store.records) (hother : other ∈ store.records)
    (hhash : block.hash = other.hash) : block = other := by
  have hfound := h.find?_eq_some_iff.mpr ⟨hblock, hhash⟩
  rw [h.find?_eq_some_iff.mpr ⟨hother, rfl⟩, Option.some.injEq] at hfound
  exact hfound.symm

theorem parentFor_eq_ok_iff {parent : BlockHash} {header : BlockHeader} {below : BlockRecord} :
    store.parentFor parent header = .ok below ↔ store.places[header.hash]? = none ∧
      store.find? parent = some below ∧ below.height < maxHeight := by
  unfold parentFor
  rw [Std.TreeMap.contains_eq_isSome_getElem?]
  cases hplace : store.places[header.hash]? with
  | some id => simp
  | none =>
    cases hfind : store.find? parent with
    | none => simp
    | some found =>
      by_cases hroom : found.height < maxHeight
      · simp only [Option.isSome_none, Bool.false_eq_true, ↓reduceIte, hroom, Except.ok.injEq,
          Option.some.injEq, true_and]
        constructor
        · rintro rfl
          exact ⟨rfl, hroom⟩
        · exact And.left
      · simp only [Option.isSome_none, Bool.false_eq_true, ↓reduceIte, hroom, reduceCtorEq,
          Option.some.injEq, true_and, false_iff, not_and]
        rintro rfl
        exact hroom

theorem WellFormed.putOn (h : store.WellFormed) {parent : BlockHash} {header : BlockHeader}
    {below : BlockRecord} (hbelow : store.parentFor parent header = .ok below) :
    (store.putOn below header).WellFormed := by
  obtain ⟨hfree, hfind, hroom⟩ := parentFor_eq_ok_iff.mp hbelow
  have hmem := (h.find?_eq_some_iff.mp hfind).1
  exact ⟨h.rooted.push store.nonempty (h.rooted.getElem?_id hmem) hroom rfl rfl rfl,
    h.indexed.push hfree rfl, h.climbs.extend (extends_push _ _)⟩

theorem WellFormed.insert (h : store.WellFormed) (parent : BlockHash) (header : BlockHeader) :
    (store.insert parent header).1.WellFormed := by
  unfold ChainStore.insert
  cases hbelow : store.parentFor parent header with
  | error error => exact h
  | ok below => exact h.putOn hbelow

theorem WellFormed.push (h : store.WellFormed) (header : BlockHeader) :
    (store.push header).1.WellFormed := by
  have hgrown := h.insert store.tip.hash header
  unfold ChainStore.push
  generalize store.insert store.tip.hash header = result at hgrown
  obtain ⟨grown, answer⟩ := result
  cases answer with
  | error error => exact hgrown
  | ok id =>
    cases hblock : grown.records[id]? with
    | none => simpa [hblock] using hgrown
    | some block => simpa [hblock] using hgrown.switchTo (mem_of_getElem?_id hblock)

theorem WellFormed.activate (h : store.WellFormed) (hash : BlockHash) :
    (store.activate hash).1.WellFormed := by
  unfold ChainStore.activate
  cases hfind : store.find? hash with
  | none => exact h
  | some block => exact h.switchTo (h.find?_eq_some_iff.mp hfind).1

theorem WellFormed.apply (h : store.WellFormed) (command : ChainCommand) :
    (store.apply command).1.WellFormed := by
  cases command with
  | insert parent header => exact h.insert parent header
  | push header => exact h.push header
  | activate hash => exact h.activate hash

theorem WellFormed.run (h : store.WellFormed) (commands : List ChainCommand) :
    (store.run commands).WellFormed := by
  induction commands generalizing store with
  | nil => exact h
  | cons command commands ih => exact ih (h.apply command)

/-! ### Nothing is forgotten -/

theorem extends_insert (store : ChainStore) (parent : BlockHash) (header : BlockHeader) :
    Extends store.records (store.insert parent header).1.records := by
  unfold ChainStore.insert
  cases store.parentFor parent header with
  | error error => exact Extends.refl _
  | ok below => exact extends_push _ _

/-- No command takes a block out of the arena or changes one. -/
theorem extends_apply (store : ChainStore) (command : ChainCommand) :
    Extends store.records (store.apply command).1.records := by
  cases command with
  | insert parent header => exact store.extends_insert parent header
  | push header =>
    have hgrown := store.extends_insert store.tip.hash header
    simp only [ChainStore.apply, ChainStore.push]
    generalize store.insert store.tip.hash header = result at hgrown
    obtain ⟨grown, answer⟩ := result
    cases answer with
    | error error => exact hgrown
    | ok id =>
      cases hblock : grown.records[id]? with
      | none => simpa [hblock] using hgrown
      | some block => simpa [hblock, switchTo_records] using hgrown
  | activate hash =>
    simp only [ChainStore.apply, ChainStore.activate]
    cases store.find? hash with
    | none => exact Extends.refl _
    | some block =>
      have hrecords := store.switchTo_records block
      exact hrecords ▸ Extends.refl _

theorem extends_run (store : ChainStore) (commands : List ChainCommand) :
    Extends store.records (store.run commands).records := by
  induction commands generalizing store with
  | nil => exact Extends.refl _
  | cons command commands ih => exact (store.extends_apply command).trans (ih _)

/-! ### Reachable stores -/

theorem Reachable.run {store : ChainStore} (h : store.Reachable) (commands : List ChainCommand) :
    (store.run commands).Reachable := by
  obtain ⟨genesis, earlier, rfl⟩ := h
  exact ⟨genesis, earlier ++ commands, by rw [ChainStore.run, ChainStore.run, ChainStore.run,
    List.foldl_append]⟩

theorem Reachable.wellFormed (h : store.Reachable) : store.WellFormed := by
  obtain ⟨genesis, commands, rfl⟩ := h
  exact (wellFormed_ofGenesis genesis).run commands

end Changes

end HybridConsensus.ChainStore
