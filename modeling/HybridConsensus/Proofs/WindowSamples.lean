import HybridConsensus.Proofs.HeightLookup
import HybridConsensus.Proofs.KindHistory

/-!
# The samples of a window

A window keeps the heights of its samples and forgets the blocks, and the average looks each of
them up again, which may go another way than the walk that found it: through the active branch, if
the start is on it. A height leads back to the sampled block all the same, because a branch has one
block of each height. So the blocks that are read are the newest of their kind from the start down,
none skipped, none read twice, and genesis never among them. An average gives up at the first sample
that it does not find, so over one sample more than it has weights for it never does, and over fewer
it always does.

The newest block of a kind is the first sample of every window that has room for one. Where nothing
can be sampled it is genesis. A window without room samples nothing either, and says nothing about
the newest block. One with more room than a list of heights can have is refused before the walk.
-/

namespace HybridConsensus

/-- Samples lead to an average or to a fault. -/
theorem WeightedAverage.exists_ofSamples_eq_map {samples : List BlockRecord} (hsome : samples ≠ [])
    (size spacing : Int) :
    ∃ average : Except Fault Target, ofSamples size spacing samples = average.map some := by
  cases samples with
  | nil => exact absurd rfl hsome
  | cons oldest newer =>
    unfold ofSamples
    cases divisor size spacing with
    | error fault => exact ⟨.error fault, rfl⟩
    | ok divisor =>
      refine ⟨(newer.foldlM (Tally.add spacing size.toNat divisor) (Tally.start oldest)).map
        Tally.target, ?_⟩
      simp only [bind, Except.bind]
      cases newer.foldlM (Tally.add spacing size.toNat divisor) (Tally.start oldest) <;> rfl

theorem ProofWindow.height?_eq_none {window : ProofWindow} {sample : Nat}
    (houtside : sample = 0 ∨ window.size < sample) : window.height? sample = none := by
  cases sample with
  | zero => rfl
  | succ place =>
    rw [ProofWindow.height?, List.getElem?_eq_none_iff]
    unfold ProofWindow.size at houtside
    omega

namespace ChainStore

variable {store : ChainStore} {start block : BlockRecord} {kind : ProofKind}

/-! ### The blocks that can be sampled -/

theorem Rooted.pairwise_lineage (h : Rooted store.records) (hmem : start ∈ store.records) :
    (store.lineage start).Pairwise fun newer older => older.height < newer.height := by
  induction start, hmem using h.descent with
  | genesis block hmem hnone =>
    rw [lineage_of_predecessor_none hnone]
    exact List.pairwise_singleton _ _
  | step block hmem under hunder hsome ih =>
    have hlower := (h.of_predecessor? hmem hsome).2.2
    rw [lineage_of_predecessor_some hsome, List.pairwise_cons]
    refine ⟨fun older holder => ?_, ih⟩
    have hle := (h.mem_of_mem_lineage hunder older holder).2
    omega

/-- Genesis ends a branch, so nothing is lost by stopping there. -/
theorem Rooted.filter_lineage (h : Rooted store.records) (hmem : start ∈ store.records)
    (kind : ProofKind) :
    (store.lineage start).filter (fun block => !block.isGenesis && block.proof == kind) =
      store.blocksOfKind start kind := by
  unfold blocksOfKind
  induction start, hmem using h.descent with
  | genesis block hmem hnone =>
    have hgenesis := (h.predecessor?_eq_none_iff hmem).mp hnone
    simp [lineage_of_predecessor_none hnone, hgenesis]
  | step block hmem under hunder hsome ih =>
    have hgenesis : block.isGenesis = false := by
      rw [Bool.eq_false_iff, Ne, ← h.predecessor?_eq_none_iff hmem, hsome]
      simp
    rw [lineage_of_predecessor_some hsome, List.takeWhile_cons_of_pos (by simp [hgenesis]),
      List.filter_cons, List.filter_cons, ih, hgenesis]
    rfl

theorem WellFormed.eq_genesis_of_isGenesis (h : store.WellFormed) (hmem : block ∈ store.records)
    (hgenesis : block.isGenesis = true) : block = store.genesis :=
  (h.rooted.eq_genesis_iff hmem).mpr ((h.rooted.isGenesis_iff_height hmem).mp hgenesis)

theorem WellFormed.lastOfKind_eq (h : store.WellFormed) (hmem : start ∈ store.records)
    (kind : ProofKind) :
    store.lastOfKind start kind = (store.blocksOfKind start kind).head?.getD store.genesis := by
  rcases h.lastOfKind_cases hmem kind with
    ⟨hnone, hgenesis, -⟩ | ⟨newest, before, hnewest, -, -, -, -, hblocks⟩
  · rw [hnone]
    exact h.eq_genesis_of_isGenesis (h.lastOfKind_mem hmem kind) hgenesis
  · rw [hblocks]
    exact hnewest

/-! ### The blocks behind the heights -/

theorem WellFormed.pairwise_heights (h : store.WellFormed) (hmem : start ∈ store.records)
    (limit : Nat) (kind : ProofKind) :
    (store.sampleWindow start limit kind).heights.Pairwise (· > ·) := by
  rw [sampleWindow_heights, List.pairwise_map, ← h.rooted.filter_lineage hmem]
  exact ((h.rooted.pairwise_lineage hmem).filter _).take

/-- What a window of at most `limit` samples is, if `available` are all blocks that can be sampled,
newest first. -/
structure Samples (store : ChainStore) (start : BlockRecord) (limit : Nat)
    (available : List BlockRecord) (window : ProofWindow) : Prop where
  heights_eq : window.heights = (available.take limit).map (·.height)
  size_eq : window.size = min limit available.length
  decreasing : window.heights.Pairwise (· > ·)
  outside : ∀ sample, sample = 0 ∨ window.size < sample → window.height? sample = none
  leadsBack : ∀ place block, (available.take limit)[place]? = some block →
    window.height? (place + 1) = some block.height ∧
      store.ancestor? start block.height = some block
  averages : ∀ size : Nat, window.size = size + 1 → ∀ spacing,
    store.weightedTarget start window size spacing =
      WeightedAverage.ofSamples size spacing (available.take limit).reverse
  complete : ∀ size : Nat, window.size = size + 1 → ∀ spacing, ∃ average : Except Fault Target,
    store.weightedTarget start window size spacing = average.map some
  givesUp : ∀ size : Nat, window.size ≤ size → ∀ spacing,
    store.weightedTarget start window size spacing =
      (WeightedAverage.divisor size spacing).map fun _ => none

theorem WellFormed.samples_sampleWindow (h : store.WellFormed) (hmem : start ∈ store.records)
    (limit : Nat) (kind : ProofKind) :
    store.Samples start limit (store.blocksOfKind start kind)
      (store.sampleWindow start limit kind) where
  heights_eq := store.sampleWindow_heights start limit kind
  size_eq := store.sampleWindow_size start limit kind
  decreasing := h.pairwise_heights hmem limit kind
  outside _ := ProofWindow.height?_eq_none
  leadsBack place block hblock := by
    rw [height?_sampleWindow, hblock]
    exact ⟨rfl, h.ancestor?_of_sampled hmem (List.mem_of_getElem? hblock)⟩
  averages _ hsize := h.weightedTarget_of_size_eq hmem hsize
  complete size hsize spacing := by
    rw [h.weightedTarget_of_size_eq hmem hsize]
    refine WeightedAverage.exists_ofSamples_eq_map ?_ size spacing
    rw [sampleWindow_size, ← List.length_take] at hsize
    rw [Ne, List.reverse_eq_nil_iff, ← List.length_eq_zero_iff]
    omega
  givesUp _ hshort := weightedTarget_of_short hshort

/-- **A window samples the newest blocks of its kind and leads back to them.** From every stored
block, on the active branch or beside it, the samples are the newest blocks of the kind on the
branch down to genesis, as many as there is room for. Each height leads back to its block, so an
average over one sample more than it has weights for finds them all. The newest block of the kind is
the first sample if there is room for one, and genesis if there is nothing to sample. More room than
a list of heights can have is refused before the walk. -/
theorem sampleWindow_samples_newest (hstore : store.Reachable) (hstart : start ∈ store.records)
    (limit : Nat) (kind : ProofKind) :
    let available :=
      (store.lineage start).filter fun block => !block.isGenesis && block.proof == kind
    (limit < 1 <<< 61 → ∃ window, store.sampleWithRoom start limit kind = .ok window ∧
      store.Samples start limit available window ∧
      (1 ≤ limit →
        store.lastOfKind start kind = (available.take limit).head?.getD store.genesis)) ∧
    (1 <<< 61 ≤ limit → store.sampleWithRoom start limit kind = .error .overflow) ∧
    store.lastOfKind start kind = available.head?.getD store.genesis := by
  intro available
  have hwell := hstore.wellFormed
  have hnewest := hwell.lastOfKind_eq hstart kind
  rw [← hwell.rooted.filter_lineage hstart] at hnewest
  have hbytes : 4 * (limit : Int) ≤ Signed64.largest ↔ limit < 1 <<< 61 := by
    simp only [Signed64.largest]
    omega
  refine ⟨fun hroom => ⟨_, sampleWithRoom_eq_ok (hbytes.mpr hroom) store start kind, ?_, ?_⟩, ?_,
    hnewest⟩
  · have hsamples := hwell.samples_sampleWindow hstart limit kind
    rwa [← hwell.rooted.filter_lineage hstart] at hsamples
  · intro hfirst
    rw [hnewest, List.head?_take, if_neg (by omega)]
  · intro hlarge
    refine sampleWithRoom_eq_error (Int.not_le.mp fun hfits => ?_) store start kind
    exact Nat.not_lt.mpr hlarge (hbytes.mp hfits)

/-- From a block that was left behind, on a chain whose genesis is of the kind as well. -/
theorem sampleWindow_samples_newest_of_side_branch :
    let store := (ofGenesis (numbered 0 .stake 0 0x1d00ffff)).run [
      .push (numbered 1 .stake 150 0x1d00ffff), .push (numbered 2 .work 300 0x1f00ffff),
      .push (numbered 3 .stake 450 0x1d00ffff),
      .insert (numbered 1 .work 0 0).hash (numbered 4 .stake 310 0x1d00ffff),
      .activate (numbered 4 .work 0 0).hash]
    ∃ side ∈ store.records, ∃ older ∈ store.records, store.isActive side = false ∧
      (∃ window, store.sampleWithRoom side 3 .stake = .ok window ∧ window.heights = [3, 1] ∧
        window.height? 2 = some older.height ∧
        (∃ average : Except Fault Target,
          store.weightedTarget side window 1 150 = average.map some) ∧
        store.weightedTarget side window 2 150 = .ok none) ∧
      store.ancestor? side older.height = some older ∧
      store.lastOfKind side .stake = side ∧
      store.lastOfKind older .work = store.genesis := by
  intro store
  have hstore : store.Reachable := ⟨_, _, rfl⟩
  let side : BlockRecord := { numbered 3 .stake 450 0x1d00ffff with
    id := 3, height := 3, parent := some 2 }
  let older : BlockRecord := { numbered 1 .stake 150 0x1d00ffff with
    id := 1, height := 1, parent := some 0 }
  have hchain : side ∈ store.records ∧ older ∈ store.records ∧ store.isActive side = false ∧
      (store.lineage side).filter (fun block => !block.isGenesis && block.proof == .stake) =
        [side, older] ∧
      (store.lineage older).filter (fun block => !block.isGenesis && block.proof == .work) =
        [] := by
    decide +kernel
  obtain ⟨hside, holder, hinactive, hstake, hwork⟩ := hchain
  obtain ⟨hroom, -, -⟩ := sampleWindow_samples_newest hstore hside 3 .stake
  obtain ⟨-, -, hnone⟩ := sampleWindow_samples_newest hstore holder 3 .work
  rw [hstake] at hroom
  rw [hwork] at hnone
  obtain ⟨window, hwindow, hsamples, hfirst⟩ := hroom (by decide)
  obtain ⟨hheight, hfound⟩ := hsamples.leadsBack 1 older rfl
  exact ⟨side, hside, older, holder, hinactive,
    ⟨window, hwindow, hsamples.heights_eq, hheight, hsamples.complete 1 hsamples.size_eq 150,
      hsamples.givesUp 2 hsamples.size_eq.le 150⟩, hfound, hfirst (by decide), hnone⟩

/-- A window without room has no first sample, but there is a newest block of the kind. One with too
much room is not made at all. -/
theorem lastOfKind_ne_genesis_of_no_room :
    let tip := withSideBranch.tip
    withSideBranch.Reachable ∧ tip ∈ withSideBranch.records ∧
      (withSideBranch.sampleWindow tip 0 .work).height? 1 = none ∧
      withSideBranch.lastOfKind tip .work = tip ∧
      withSideBranch.lastOfKind tip .work ≠ withSideBranch.genesis ∧
      withSideBranch.sampleWithRoom tip (1 <<< 61) .work = .error .overflow := by
  intro tip
  have hnewest : tip ∈ withSideBranch.records ∧ withSideBranch.lastOfKind tip .work = tip ∧
      withSideBranch.lastOfKind tip .work ≠ withSideBranch.genesis := by
    decide +kernel
  obtain ⟨hmem, hsame, hother⟩ := hnewest
  exact ⟨⟨_, _, rfl⟩, hmem, rfl, hsame, hother,
    sampleWithRoom_eq_error (by decide) withSideBranch tip .work⟩

end ChainStore

end HybridConsensus
