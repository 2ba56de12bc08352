import HybridConsensus.Proofs.Descent
import HybridConsensus.Proofs.FirstFailure
import HybridConsensus.Retarget.Required
import Mathlib.Data.List.TakeWhile

/-!
# The past of one kind of block

The required bits of a kind are computed by several walks: one for the newest block of the kind, one
for the block before it, one for a window of heights, a look-up for each of these heights, and one
that counts. In a well-formed store they all read the same list, the blocks of the kind from a block
down without genesis. This module states each rule by that list.

The average looks a sample up, adds it with checked sums, and looks up the next, so that it ends at
the first look-up or sum that fails. On a full window no look-up does, and the sums alone are left.
-/

namespace HybridConsensus

namespace WeightedAverage

/-- The average over blocks that are all at hand, oldest first. -/
def ofSamples (size spacing : Int) : List BlockRecord → Except Fault (Option Target)
  | [] => .ok none
  | oldest :: samples => do
    let divisor ← divisor size spacing
    let tally ← samples.foldlM (Tally.add spacing size.toNat divisor) (Tally.start oldest)
    return some tally.target

/-- The bits of a kind whose `blocks`, newest first, are too few for a window. Stake takes a single
step between its two newest, work asks for the limit. -/
def bitsOfFew (params : ConsensusParams) :
    (kind : ProofKind) → (blocks : List BlockRecord) → Except Fault CompactBits
  | .stake, newest :: earlier :: _ =>
    ExponentialAverage.step newest earlier.time params.spacing.toInt params.stakeLimit
  | kind, _ => .ok (params.limit kind).toCompact

/-- The weighted average by a list: the bits on top of a block at `height` whose kind has `blocks`
up to it, newest first. -/
def bitsOfHistory (params : ConsensusParams) (kind : ProofKind) (height : Nat)
    (blocks : List BlockRecord) : Except Fault CompactBits := do
  let size := params.averagingWindow.toInt
  let limit := params.limit kind
  let needed ← Signed64.check (size + 1)
  if height < needed then return limit.toCompact
  if size < 0 then throw .overflow
  if blocks.length ≤ size then bitsOfFew params kind blocks
  else
    match ← ofSamples size params.spacing.toInt (blocks.take needed.toNat).reverse with
    | some target => return target.clampedBits limit
    | none => return limit.toCompact

theorem check_longer_of_negative {window : Int64} (hnegative : window.toInt < 0) :
    Signed64.check (window.toInt + 1) = .ok (window.toInt + 1) := by
  have hrange := Signed64.toInt_inRange window
  apply Signed64.check_eq_ok
  simp only [Signed64.InRange, Signed64.smallest, Signed64.largest] at *
  omega

theorem bitsOfHistory_of_negative {params : ConsensusParams}
    (hnegative : params.averagingWindow.toInt < 0) (kind : ProofKind) (height : Nat)
    (blocks : List BlockRecord) : bitsOfHistory params kind height blocks = .error .overflow := by
  unfold bitsOfHistory
  dsimp only
  rw [check_longer_of_negative hnegative, ok_bind, if_neg (by omega), if_pos hnegative]
  rfl

theorem check_longer_of_tall {size height : Nat} (htall : size + 1 ≤ height)
    (hheight : height ≤ maxHeight) : Signed64.check ((size : Int) + 1) = .ok (size + 1) := by
  refine Signed64.check_of_nonneg (by omega) ?_
  simp only [maxHeight, Signed64.largest] at *
  omega

theorem bitsOfHistory_of_room {params : ConsensusParams} {size height : Nat}
    (hsize : params.averagingWindow.toInt = size) (htall : size + 1 ≤ height)
    (hheight : height ≤ maxHeight) (kind : ProofKind) (blocks : List BlockRecord) :
    bitsOfHistory params kind height blocks =
      if blocks.length ≤ size then bitsOfFew params kind blocks
      else (ofSamples params.averagingWindow.toInt params.spacing.toInt
          (blocks.take (size + 1)).reverse).map fun average =>
        average.elim (params.limit kind).toCompact (·.clampedBits (params.limit kind)) := by
  unfold bitsOfHistory
  simp only [hsize]
  rw [check_longer_of_tall htall hheight, ok_bind, if_neg (by omega), if_neg (by omega)]
  by_cases hshort : blocks.length ≤ size
  · rw [if_pos (by omega), if_pos hshort]
  · have hcount : ((size : Int) + 1).toNat = size + 1 := by omega
    rw [if_neg (by omega), if_neg hshort, hcount]
    cases ofSamples size params.spacing.toInt (blocks.take (size + 1)).reverse with
    | error fault => rfl
    | ok average => cases average <;> rfl

end WeightedAverage

namespace ChainStore

variable {store : ChainStore} {block last : BlockRecord} {kind : ProofKind}

theorem blocksOfKind_subset (store : ChainStore) (start : BlockRecord) (kind : ProofKind) :
    store.blocksOfKind start kind ⊆ store.lineage start := by
  intro block hblock
  exact (List.takeWhile_sublist _).subset (List.mem_filter.mp hblock).1

theorem proof_of_mem_blocksOfKind (h : block ∈ store.blocksOfKind last kind) :
    block.proof = kind := by
  have hkind := (List.mem_filter.mp h).2
  simpa using hkind

theorem WellFormed.mem_of_mem_blocksOfKind (h : store.WellFormed) (hmem : last ∈ store.records)
    (hblock : block ∈ store.blocksOfKind last kind) : block ∈ store.records :=
  (h.rooted.mem_of_mem_lineage hmem block (store.blocksOfKind_subset last kind hblock)).1

theorem WellFormed.length_blocksOfKind_le (h : store.WellFormed) (hmem : last ∈ store.records)
    (kind : ProofKind) : (store.blocksOfKind last kind).length ≤ last.height := by
  refine Nat.le_trans (List.length_filter_le _ _) ?_
  induction last, hmem using h.rooted.descent with
  | genesis block hmem hnone =>
    rw [lineage_of_predecessor_none hnone]
    simp [(h.rooted.predecessor?_eq_none_iff hmem).mp hnone]
  | step block hmem older holder hsome ih =>
    have hheight := (h.rooted.of_predecessor? hmem hsome).2.2
    rw [lineage_of_predecessor_some hsome, List.takeWhile_cons]
    split
    · rw [List.length_cons]
      omega
    · exact Nat.zero_le _

/-! ### The newest two -/

theorem descendTo_mem_lineage (store : ChainStore) (last : BlockRecord)
    (stop : BlockRecord → Bool) : store.descendTo stop last ∈ store.lineage last := by
  rw [descendTo_eq_find]
  cases hfind : (store.lineage last).find? stop with
  | some found => exact List.mem_of_find?_eq_some hfind
  | none =>
    rw [Option.getD_none, List.getLastD_eq_getLast?,
      List.getLast?_eq_some_getLast (store.lineage_ne_nil last)]
    exact List.getLast_mem _

theorem WellFormed.lastOfKind_mem (h : store.WellFormed) (hmem : last ∈ store.records)
    (kind : ProofKind) : store.lastOfKind last kind ∈ store.records :=
  (h.rooted.mem_of_mem_lineage hmem _ (store.descendTo_mem_lineage last _)).1

/-- The walk to the newest block of a kind ends at genesis, with none of that kind passed, or at the
first block of the list. -/
theorem WellFormed.lastOfKind_cases (h : store.WellFormed) (hmem : last ∈ store.records)
    (kind : ProofKind) :
    (store.blocksOfKind last kind = [] ∧ (store.lastOfKind last kind).isGenesis = true ∧
        store.predecessor? (store.lastOfKind last kind) = none) ∨
      ∃ newest before, store.lastOfKind last kind = newest ∧ newest.isGenesis = false ∧
        newest ∈ store.records ∧ store.predecessor? newest = some before ∧
        before ∈ store.records ∧
        store.blocksOfKind last kind = newest :: store.blocksOfKind before kind := by
  have hfound := h.lastOfKind_mem hmem kind
  have hproof := store.lastOfKind_proof last kind
  have hlist := store.blocksOfKind_lastOfKind last kind
  generalize store.lastOfKind last kind = found at hfound hproof hlist
  cases hbelow : store.predecessor? found with
  | none =>
    have hgenesis := (h.rooted.predecessor?_eq_none_iff hfound).mp hbelow
    rw [blocksOfKind_of_isGenesis kind hgenesis] at hlist
    exact .inl ⟨hlist.symm, hgenesis, rfl⟩
  | some before =>
    have hgenesis : found.isGenesis = false := by
      rw [Bool.eq_false_iff, Ne, ← h.rooted.predecessor?_eq_none_iff hfound, hbelow]
      simp
    have hkind : found.proof = kind := by simpa [hbelow] using hproof
    refine .inr ⟨found, before, rfl, hgenesis, hfound, hbelow,
      (h.rooted.of_predecessor? hfound hbelow).1, ?_⟩
    rw [← hlist]
    unfold blocksOfKind
    rw [lineage_of_predecessor_some hbelow]
    simp [hgenesis, hkind]

/-! ### Windows and counts -/

theorem height?_sampleWindow (store : ChainStore) (start : BlockRecord) (limit : Nat)
    (kind : ProofKind) (place : Nat) :
    (store.sampleWindow start limit kind).height? (place + 1) =
      ((store.blocksOfKind start kind).take limit)[place]?.map (·.height) := by
  rw [ProofWindow.height?, sampleWindow_heights, List.getElem?_map]

theorem WellFormed.ancestor?_of_sampled (h : store.WellFormed) (hmem : last ∈ store.records)
    {limit : Nat} (hblock : block ∈ (store.blocksOfKind last kind).take limit) :
    store.ancestor? last block.height = some block :=
  h.ancestor?_of_mem_lineage hmem
    (store.blocksOfKind_subset last kind (List.mem_of_mem_take hblock))

/-- The height of a sample leads back to its block. -/
theorem WellFormed.sampled?_sampleWindow (h : store.WellFormed) (hmem : last ∈ store.records)
    (limit : Nat) (kind : ProofKind) (place : Nat) :
    store.sampled? last (store.sampleWindow last limit kind) (place + 1) =
      ((store.blocksOfKind last kind).take limit)[place]? := by
  rw [sampled?, height?_sampleWindow]
  cases hblock : ((store.blocksOfKind last kind).take limit)[place]? with
  | none => rfl
  | some block => exact h.ancestor?_of_sampled hmem (List.mem_of_getElem? hblock)

theorem sampleWindow_size (store : ChainStore) (start : BlockRecord) (limit : Nat)
    (kind : ProofKind) :
    (store.sampleWindow start limit kind).size =
      min limit (store.blocksOfKind start kind).length := by
  rw [ProofWindow.size, sampleWindow_heights, List.length_map, List.length_take]

theorem sampleWithRoom_eq_ok {limit : Nat} (hroom : 4 * limit ≤ Signed64.largest)
    (store : ChainStore) (start : BlockRecord) (kind : ProofKind) :
    store.sampleWithRoom start limit kind = .ok (store.sampleWindow start limit kind) :=
  if_pos hroom

theorem sampleWithRoom_eq_error {limit : Nat} (hlarge : Signed64.largest < 4 * limit)
    (store : ChainStore) (start : BlockRecord) (kind : ProofKind) :
    store.sampleWithRoom start limit kind = .error .overflow :=
  if_neg (Int.not_le.mpr hlarge)

theorem takeWhile_congr_of_mem {p q : BlockRecord → Bool} {blocks : List BlockRecord}
    (h : ∀ block ∈ blocks, p block = q block) : blocks.takeWhile p = blocks.takeWhile q := by
  induction blocks with
  | nil => rfl
  | cons block blocks ih =>
    obtain ⟨hblock, hblocks⟩ := List.forall_mem_cons.mp h
    rw [List.takeWhile_cons, List.takeWhile_cons, hblock, ih hblocks]

/-- Counted above height zero, the stake blocks are those of the list: only genesis is that low. -/
theorem WellFormed.countStake_zero (h : store.WellFormed) (hmem : last ∈ store.records) :
    store.countStake last 0 = (store.blocksOfKind last .stake).length := by
  have hstop : ∀ block ∈ store.lineage last,
      (!(block.isGenesis || decide (block.height ≤ 0))) = !block.isGenesis := by
    intro block hblock
    have hmemBlock := (h.rooted.mem_of_mem_lineage hmem block hblock).1
    have hgenesis := h.rooted.isGenesis_iff_height hmemBlock
    cases hvalue : block.isGenesis with
    | true => rfl
    | false =>
      rw [hvalue] at hgenesis
      simpa using hgenesis
  rw [countStake_eq_countP, takeWhile_congr_of_mem hstop, List.countP_eq_length_filter]
  rfl

/-! ### The average of a window -/

open WeightedAverage in
/-- Samples that are all found are added up from the oldest to the newest. -/
theorem addSamples_eq_foldlM {window : ProofWindow} {blocks : List BlockRecord} (spacing : Int)
    (count divisor : Nat) {sample : Nat} (hroom : sample ≤ blocks.length)
    (hfound : ∀ place < sample, store.sampled? last window (place + 1) = blocks[place]?)
    (tally : Tally) :
    store.addSamples last window spacing count divisor sample tally =
      ((blocks.take sample).reverse.foldlM (Tally.add spacing count divisor) tally).map some := by
  induction sample generalizing tally with
  | zero => rfl
  | succ sample ih =>
    have hblock : store.sampled? last window (sample + 1) = some blocks[sample] := by
      rw [hfound sample (Nat.lt_succ_self sample), List.getElem?_eq_getElem]
    have hadd := ih (by omega) fun place hplace => hfound place (by omega)
    rw [addSamples, hblock, List.take_add_one, List.getElem?_eq_getElem hroom, Option.toList_some,
      List.reverse_append, List.reverse_singleton, List.singleton_append, List.foldlM_cons]
    simp only [hadd]
    cases tally.add spacing count divisor blocks[sample] <;> rfl

theorem add_one_le_of_divisor {size spacing : Int} {divisor : Nat}
    (h : WeightedAverage.divisor size spacing = .ok divisor) : size + 1 ≤ Signed64.largest := by
  obtain ⟨longer, hlonger, -⟩ := bind_eq_ok_iff.mp h
  exact (Signed64.check_eq_ok_iff.mp hlonger).1.2

theorem weightedTarget_of_divisor_error {window : ProofWindow} {size spacing : Int} {fault : Fault}
    (hdivisor : WeightedAverage.divisor size spacing = .error fault) :
    store.weightedTarget last window size spacing = .error fault := by
  unfold weightedTarget
  rw [hdivisor, error_bind]

/-- A divisor that fits leaves no doubt about the count. -/
theorem weightedTarget_of_divisor {window : ProofWindow} {size divisor : Nat} {spacing : Int}
    (hdivisor : WeightedAverage.divisor size spacing = .ok divisor) :
    store.weightedTarget last window size spacing =
      match store.sampled? last window (size + 1) with
      | none => .ok none
      | some oldest =>
        (store.addSamples last window spacing size divisor size (.start oldest)).map
          (·.map WeightedAverage.Tally.target) := by
  have hle := add_one_le_of_divisor hdivisor
  have hcount : Signed64.unsigned size = size :=
    Signed64.unsigned_eq_toNat (by omega) (by omega)
  have hfits : size + 1 < UInt64.size := by
    simp only [Signed64.largest, UInt64.size] at *
    omega
  unfold weightedTarget
  rw [hdivisor, ok_bind, hcount]
  dsimp only
  rw [Signed64.checkUnsigned_eq_ok hfits, ok_bind]
  cases store.sampled? last window (size + 1) with
  | none => rfl
  | some oldest =>
    dsimp only
    cases store.addSamples last window spacing size divisor size (.start oldest) <;> rfl

/-- The average of a window whose samples are all found. -/
theorem weightedTarget_of_found {window : ProofWindow} {blocks : List BlockRecord} {size : Nat}
    (hlength : blocks.length = size + 1)
    (hfound : ∀ place ≤ size, store.sampled? last window (place + 1) = blocks[place]?)
    (spacing : Int) :
    store.weightedTarget last window size spacing =
      WeightedAverage.ofSamples size spacing blocks.reverse := by
  have holdest : blocks[size]? = some blocks[size] := List.getElem?_eq_getElem _
  have hsamples : blocks.reverse = blocks[size] :: (blocks.take size).reverse := by
    calc blocks.reverse
        = (blocks.take (size + 1)).reverse := by rw [← hlength, List.take_length]
      _ = blocks[size] :: (blocks.take size).reverse := by
        rw [List.take_add_one, holdest, Option.toList_some, List.reverse_append]
        rfl
  unfold WeightedAverage.ofSamples
  rw [hsamples]
  cases hdivisor : WeightedAverage.divisor size spacing with
  | error fault => exact weightedTarget_of_divisor_error hdivisor
  | ok divisor =>
    have hadd := addSamples_eq_foldlM spacing size divisor (by omega : size ≤ blocks.length)
      (fun place hplace => hfound place (by omega)) (.start blocks[size])
    rw [weightedTarget_of_divisor hdivisor, hfound size (Nat.le_refl size), holdest]
    simp only [hadd, Int.toNat_natCast, bind, Except.bind]
    cases (blocks.take size).reverse.foldlM (WeightedAverage.Tally.add spacing size divisor)
      (.start blocks[size]) <;> rfl

/-- Without a sample to start the clock there is no average. -/
theorem weightedTarget_of_short {window : ProofWindow} {size : Nat} (hshort : window.size ≤ size)
    (spacing : Int) :
    store.weightedTarget last window size spacing =
      (WeightedAverage.divisor size spacing).map fun _ => none := by
  have houtside : store.sampled? last window (size + 1) = none := by
    rw [sampled?, ProofWindow.height?, List.getElem?_eq_none hshort]
    rfl
  cases hdivisor : WeightedAverage.divisor size spacing with
  | error fault => exact weightedTarget_of_divisor_error hdivisor
  | ok divisor =>
    rw [weightedTarget_of_divisor hdivisor, houtside]
    rfl

theorem WellFormed.weightedTarget_of_size_eq (h : store.WellFormed) (hmem : last ∈ store.records)
    {limit size : Nat} (hsize : (store.sampleWindow last limit kind).size = size + 1)
    (spacing : Int) :
    store.weightedTarget last (store.sampleWindow last limit kind) size spacing =
      WeightedAverage.ofSamples size spacing
        ((store.blocksOfKind last kind).take limit).reverse := by
  refine weightedTarget_of_found ?_ (fun place _ => h.sampled?_sampleWindow hmem limit kind place)
    spacing
  rw [← hsize, sampleWindow_size, List.length_take]

theorem WellFormed.weightedTarget_eq (h : store.WellFormed) (hmem : last ∈ store.records)
    {size : Nat} (hfull : size + 1 ≤ (store.blocksOfKind last kind).length) (spacing : Int) :
    store.weightedTarget last (store.sampleWindow last (size + 1) kind) size spacing =
      WeightedAverage.ofSamples size spacing
        ((store.blocksOfKind last kind).take (size + 1)).reverse := by
  refine h.weightedTarget_of_size_eq hmem ?_ spacing
  rw [sampleWindow_size]
  omega

/-- There is room for every window that a chain is high enough for. -/
theorem WellFormed.sampleWithRoom_of_tall (h : store.WellFormed) (hmem : last ∈ store.records)
    {size : Nat} (htall : size + 1 ≤ last.height) (kind : ProofKind) :
    store.sampleWithRoom last (Signed64.unsigned (size + 1)) kind =
      .ok (store.sampleWindow last (size + 1) kind) := by
  have hheight := h.height_le hmem
  have hroom : 4 * ((size + 1 : Nat) : Int) ≤ Signed64.largest := by
    simp only [maxHeight, Signed64.largest] at *
    omega
  rw [Signed64.unsigned_eq_toNat (by omega) (by omega), ← sampleWithRoom_eq_ok hroom]
  rfl

/-- The oldest of no samples at all would have a number that a word does not hold. -/
theorem weightedTarget_neg_one (store : ChainStore) (last : BlockRecord) (window : ProofWindow)
    (spacing : Int) : store.weightedTarget last window (-1) spacing = .error .overflow := by
  have hzero : Signed64.check 0 = .ok 0 := rfl
  have hdivisor : WeightedAverage.divisor (-1) spacing = .ok 1 := by
    unfold WeightedAverage.divisor
    rw [Int.add_left_neg, hzero, ok_bind, Int.mul_zero, hzero, ok_bind, Int.zero_mul, hzero]
    rfl
  unfold weightedTarget
  rw [hdivisor]
  rfl

/-- A window of a negative number of samples is asked for without room for it, unless it is asked
for with room for none and is full without a sample. -/
theorem weightedBits_of_negative {params : ConsensusParams}
    (hfixed : params.isFixed kind = false) (hnegative : params.averagingWindow.toInt < 0) :
    store.weightedBits last params kind = .error .overflow := by
  unfold weightedBits
  simp only [hfixed, Bool.false_eq_true, ↓reduceIte]
  rw [WeightedAverage.check_longer_of_negative hnegative, ok_bind, if_neg (by omega)]
  by_cases hnone : params.averagingWindow.toInt = -1
  · have hroom : store.sampleWithRoom last (Signed64.unsigned (-1 + 1)) kind =
        .ok (store.sampleWindow last 0 kind) := sampleWithRoom_eq_ok (by decide) store last kind
    rw [hnone, hroom, ok_bind, if_neg (by omega), weightedTarget_neg_one]
    rfl
  · have hroom : store.sampleWithRoom last
        (Signed64.unsigned (params.averagingWindow.toInt + 1)) kind = .error .overflow := by
      have hrange := Signed64.toInt_inRange params.averagingWindow
      refine sampleWithRoom_eq_error ?_ store last kind
      simp only [Signed64.unsigned, Signed64.InRange, Signed64.smallest, Signed64.largest,
        UInt64.size] at *
      omega
    rw [hroom]
    rfl

/-! ### The rules by the list -/

theorem lastOfKind_of_proof (store : ChainStore) (hkind : block.proof = kind) :
    store.lastOfKind block kind = block := by
  unfold lastOfKind descendTo
  rw [if_pos (by simpa using hkind)]

theorem WellFormed.lastOfKind_eq_head (h : store.WellFormed) (hmem : last ∈ store.records)
    {newest : BlockRecord} {rest : List BlockRecord}
    (hblocks : store.blocksOfKind last kind = newest :: rest) :
    store.lastOfKind last kind = newest := by
  rcases h.lastOfKind_cases hmem kind with ⟨hnil, -⟩ | ⟨found, before, hfound, -, -, -, -, hcons⟩
  · rw [hblocks] at hnil
    cases hnil
  · rw [hblocks, List.cons.injEq] at hcons
    rw [hfound, hcons.1]

theorem WellFormed.blocksOfKind_head (h : store.WellFormed) (hmem : last ∈ store.records)
    {newest : BlockRecord} {rest : List BlockRecord}
    (hblocks : store.blocksOfKind last kind = newest :: rest) :
    store.blocksOfKind newest kind = newest :: rest ∧ store.lastOfKind newest kind = newest := by
  have hkind : newest.proof = kind := proof_of_mem_blocksOfKind (hblocks ▸ List.mem_cons_self)
  refine ⟨?_, store.lastOfKind_of_proof hkind⟩
  rw [← hblocks, ← store.blocksOfKind_lastOfKind last kind, h.lastOfKind_eq_head hmem hblocks]

theorem WellFormed.newestTwo {α : Type} (h : store.WellFormed) (hmem : last ∈ store.records)
    (kind : ProofKind) (few : α) (rule : (newest earlier : BlockRecord) → α) :
    (match store.predecessor? (store.lastOfKind last kind) with
      | none => few
      | some before =>
        if (store.lastOfKind before kind).isGenesis then few
        else rule (store.lastOfKind last kind) (store.lastOfKind before kind)) =
      match store.blocksOfKind last kind with
      | newest :: earlier :: _ => rule newest earlier
      | _ => few := by
  rcases h.lastOfKind_cases hmem kind with
    ⟨hblocks, -, hbelow⟩ | ⟨newest, before, hnewest, -, -, hbelow, hbefore, hblocks⟩
  · rw [hblocks, hbelow]
  · rw [hnewest, hbelow, hblocks]
    rcases h.lastOfKind_cases hbefore kind with
      ⟨hnone, hgenesis, -⟩ | ⟨earlier, under, hearlier, hgenesis, -, -, -, hmore⟩
    · rw [hnone]
      simp only [hgenesis, ↓reduceIte]
    · rw [hmore]
      simp only [hearlier, hgenesis, Bool.false_eq_true, ↓reduceIte]

theorem WellFormed.requiredBits_eq (h : store.WellFormed) (hmem : last ∈ store.records)
    (time : Int64) (params : ConsensusParams) (kind : ProofKind) :
    store.requiredBits (some last) time params kind =
      match store.blocksOfKind last kind with
      | newest :: earlier :: _ =>
        if params.allowsMinimumDifficulty then
          store.minimumDifficultyBits last time (nextHeight last.height)
            (params.limitAt kind (nextHeight last.height)).toCompact params
        else match params.algorithm with
          | .weighted => store.weightedBits newest params kind
          | .exponential => ExponentialAverage.nextBits newest earlier.time params kind
      | _ => .ok (params.limitAt kind (nextHeight last.height)).toCompact :=
  h.newestTwo hmem kind (Except.ok (params.limitAt kind (nextHeight last.height)).toCompact)
    fun newest earlier =>
      if params.allowsMinimumDifficulty then
        store.minimumDifficultyBits last time (nextHeight last.height)
          (params.limitAt kind (nextHeight last.height)).toCompact params
      else match params.algorithm with
        | .weighted => store.weightedBits newest params kind
        | .exponential => ExponentialAverage.nextBits newest earlier.time params kind

theorem WellFormed.youngStakeBits_eq (h : store.WellFormed) (hmem : last ∈ store.records)
    (params : ConsensusParams) :
    store.youngStakeBits last params.spacing.toInt params.stakeLimit =
      WeightedAverage.bitsOfFew params .stake (store.blocksOfKind last .stake) := by
  refine (h.newestTwo hmem .stake (Except.ok params.stakeLimit.toCompact) fun newest earlier =>
    ExponentialAverage.step newest earlier.time params.spacing.toInt params.stakeLimit).trans ?_
  rcases store.blocksOfKind last .stake with _ | ⟨newest, _ | ⟨earlier, rest⟩⟩ <;> rfl

/-- On a chain that is high enough for a window, bits are asked of an average if the window is full.
A stake side too young for it is never too old to take single steps, so the limit of a short window
is for work alone. -/
theorem WellFormed.weightedBits_of_room (h : store.WellFormed) (hmem : last ∈ store.records)
    {params : ConsensusParams} {size : Nat} (hsize : params.averagingWindow.toInt = size)
    (hfixed : params.isFixed kind = false) (htall : size + 1 ≤ last.height) :
    store.weightedBits last params kind =
      if (store.blocksOfKind last kind).length ≤ size then
        WeightedAverage.bitsOfFew params kind (store.blocksOfKind last kind)
      else (store.weightedTarget last (store.sampleWindow last (size + 1) kind)
          params.averagingWindow.toInt params.spacing.toInt).map fun average =>
        average.elim (params.limit kind).toCompact (·.clampedBits (params.limit kind)) := by
  unfold weightedBits
  simp only [hfixed, Bool.false_eq_true, ↓reduceIte, hsize]
  rw [WeightedAverage.check_longer_of_tall htall (h.height_le hmem), ok_bind, if_neg (by omega),
    h.sampleWithRoom_of_tall hmem htall, ok_bind, sampleWindow_size]
  by_cases hshort : (store.blocksOfKind last kind).length ≤ size
  · have hwindow : ((min (size + 1) (store.blocksOfKind last kind).length : Nat) : Int) ≤ size := by
      omega
    rw [if_pos hwindow, if_pos hshort]
    cases kind with
    | work =>
      rw [if_neg (by simp)]
      rfl
    | stake =>
      have hyoung : (store.countStake last 0 : Int) ≤ size + 1 := by
        rw [h.countStake_zero hmem]
        omega
      rw [if_pos ⟨rfl, hyoung⟩]
      exact h.youngStakeBits_eq hmem params
  · have hwindow :
        ¬((min (size + 1) (store.blocksOfKind last kind).length : Nat) : Int) ≤ size := by
      omega
    rw [if_neg hwindow, if_neg hshort]
    cases store.weightedTarget last (store.sampleWindow last (size + 1) kind) size
      params.spacing.toInt with
    | error fault => rfl
    | ok average => cases average <;> rfl

/-- The rule by walks is the rule by the list. -/
theorem WellFormed.weightedBits_eq (h : store.WellFormed) (hmem : last ∈ store.records)
    (params : ConsensusParams) (kind : ProofKind) :
    store.weightedBits last params kind =
      if params.isFixed kind then .ok (store.lastOfKind last kind).bits
      else WeightedAverage.bitsOfHistory params kind last.height
        (store.blocksOfKind last kind) := by
  cases hfixed : params.isFixed kind with
  | true =>
    unfold weightedBits
    rw [if_pos hfixed]
    rfl
  | false =>
    rw [if_neg Bool.false_ne_true]
    rcases Int.lt_or_le params.averagingWindow.toInt 0 with hnegative | hnonneg
    · rw [weightedBits_of_negative hfixed hnegative,
        WeightedAverage.bitsOfHistory_of_negative hnegative]
    obtain ⟨size, hsize⟩ := Int.eq_ofNat_of_zero_le hnonneg
    rcases Nat.lt_or_ge last.height (size + 1) with hlow | htall
    · unfold weightedBits WeightedAverage.bitsOfHistory
      simp only [hfixed, Bool.false_eq_true, ↓reduceIte, hsize]
      cases hneeded : Signed64.check ((size : Int) + 1) with
      | error fault => rfl
      | ok needed =>
        obtain ⟨-, rfl⟩ := Signed64.check_eq_ok_iff.mp hneeded
        rw [ok_bind, ok_bind, if_pos (by omega), if_pos (by omega)]
    · rw [h.weightedBits_of_room hmem hsize hfixed htall,
        WeightedAverage.bitsOfHistory_of_room hsize htall (h.height_le hmem)]
      by_cases hshort : (store.blocksOfKind last kind).length ≤ size
      · rw [if_pos hshort, if_pos hshort]
      · rw [if_neg hshort, if_neg hshort, hsize, h.weightedTarget_eq hmem (by omega)]

end ChainStore

end HybridConsensus
