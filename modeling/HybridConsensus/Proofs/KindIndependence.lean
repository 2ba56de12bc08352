import HybridConsensus.Proofs.KindHistory

/-!
# One kind cannot move the target of the other

The weighted average of a kind reads the times and bits of its own samples and one number more, the
height of its newest block, which blocks of the other kind can raise at will. For work that number
decides nothing: a chain too low for a window has too few samples for one as well, and both end at
the limit. For stake it does decide, because a stake side with few samples takes single steps once
the chain is high enough, so there the heights have to be past that point.
-/

namespace HybridConsensus

def BlockRecord.sample (block : BlockRecord) : Int64 × CompactBits :=
  (block.time, block.bits)

def BlockRecord.ofSample (sample : Int64 × CompactBits) : BlockRecord where
  hash := .zero
  proof := .work
  time := sample.1
  bits := sample.2
  id := 0
  height := 0
  parent := none

/-- The samples of a kind from a block down, without genesis, newest first. -/
def ChainStore.samplesOfKind (store : ChainStore) (last : BlockRecord) (kind : ProofKind) :
    List (Int64 × CompactBits) :=
  (store.blocksOfKind last kind).map (·.sample)

namespace WeightedAverage

theorem ofSamples_eq_ofSample (window spacing : Int) (blocks : List BlockRecord) :
    ofSamples window spacing ((blocks.map (·.sample)).map .ofSample) =
      ofSamples window spacing blocks := by
  cases blocks with
  | nil => rfl
  | cons oldest samples =>
    unfold ofSamples
    simp only [List.map_cons, List.foldlM_map]
    rfl

theorem ofSamples_congr {window spacing : Int} {left right : List BlockRecord}
    (h : left.map (·.sample) = right.map (·.sample)) :
    ofSamples window spacing left = ofSamples window spacing right := by
  rw [← ofSamples_eq_ofSample, h, ofSamples_eq_ofSample]

variable {params : ConsensusParams} {kind : ProofKind} {height : Nat}

theorem bitsOfFew_congr {left right : List BlockRecord}
    (h : left.map (·.sample) = right.map (·.sample)) :
    bitsOfFew params kind left = bitsOfFew params kind right := by
  have hbare : ∀ blocks : List BlockRecord,
      bitsOfFew params kind ((blocks.map (·.sample)).map .ofSample) =
        bitsOfFew params kind blocks := by
    intro blocks
    rcases blocks with _ | ⟨newest, _ | ⟨earlier, rest⟩⟩ <;> cases kind <;> rfl
  rw [← hbare, h, hbare]

theorem bitsOfHistory_congr {left right : List BlockRecord}
    (h : left.map (·.sample) = right.map (·.sample)) :
    bitsOfHistory params kind height left = bitsOfHistory params kind height right := by
  have hlength : left.length = right.length := by simpa using congrArg List.length h
  have hwindow : ∀ count : Nat,
      ofSamples params.averagingWindow.toInt params.spacing.toInt (left.take count).reverse =
        ofSamples params.averagingWindow.toInt params.spacing.toInt (right.take count).reverse := by
    intro count
    apply ofSamples_congr
    rw [List.map_reverse, List.map_reverse, List.map_take, List.map_take, h]
  simp only [bitsOfHistory, hlength, bitsOfFew_congr h, hwindow]

theorem bitsOfHistory_work_of_few {blocks : List BlockRecord}
    (hfew : blocks.length ≤ params.averagingWindow.toInt) :
    bitsOfHistory params .work height blocks =
      (Signed64.check (params.averagingWindow.toInt + 1)).map fun _ =>
        params.workLimit.toCompact := by
  unfold bitsOfHistory
  cases hneeded : Signed64.check (params.averagingWindow.toInt + 1) with
  | error fault =>
    simp only [hneeded]
    rfl
  | ok needed =>
    have hsize : ¬ params.averagingWindow.toInt < 0 := by omega
    simp only [hneeded, bind, Except.bind, if_neg hsize, if_pos hfew]
    split <;> rfl

theorem bitsOfHistory_of_tall {lower upper : Nat} {blocks : List BlockRecord}
    (hlower : params.averagingWindow.toInt + 1 ≤ lower)
    (hupper : params.averagingWindow.toInt + 1 ≤ upper) :
    bitsOfHistory params kind lower blocks = bitsOfHistory params kind upper blocks := by
  unfold bitsOfHistory
  cases hneeded : Signed64.check (params.averagingWindow.toInt + 1) with
  | error fault => simp only [hneeded, bind, Except.bind]
  | ok needed =>
    obtain ⟨-, rfl⟩ := Signed64.check_eq_ok_iff.mp hneeded
    have hlow : ¬ (lower : Int) < params.averagingWindow.toInt + 1 := by omega
    have hhigh : ¬ (upper : Int) < params.averagingWindow.toInt + 1 := by omega
    simp only [hneeded, bind, Except.bind, if_neg hlow, if_neg hhigh]

/-- A block of work lies at least as high as it has blocks of work up to it, so that a window that
is full lies high enough. -/
theorem bitsOfHistory_work_of_height {lower upper : Nat} {blocks : List BlockRecord}
    (hlower : blocks.length ≤ lower) (hupper : blocks.length ≤ upper) :
    bitsOfHistory params .work lower blocks = bitsOfHistory params .work upper blocks := by
  by_cases hfew : blocks.length ≤ params.averagingWindow.toInt
  · rw [bitsOfHistory_work_of_few hfew, bitsOfHistory_work_of_few hfew]
  · exact bitsOfHistory_of_tall (by omega) (by omega)

end WeightedAverage

namespace ChainStore

variable {left right : ChainStore} {first second : BlockRecord} {params : ConsensusParams}
  {kind : ProofKind}

theorem WellFormed.requiredBits_weighted (h : left.WellFormed) (hmem : first ∈ left.records)
    (halgorithm : params.algorithm = .weighted) (hrule : params.allowsMinimumDifficulty = false)
    (time : Int64) (kind : ProofKind) :
    left.requiredBits (some first) time params kind =
      match left.blocksOfKind first kind with
      | newest :: earlier :: rest =>
        if params.isFixed kind then .ok newest.bits
        else WeightedAverage.bitsOfHistory params kind newest.height (newest :: earlier :: rest)
      | _ => .ok (params.limitAt kind (nextHeight first.height)).toCompact := by
  rw [h.requiredBits_eq hmem]
  rcases hblocks : left.blocksOfKind first kind with _ | ⟨newest, _ | ⟨earlier, rest⟩⟩
  · rfl
  · rfl
  · obtain ⟨hhistory, hlast⟩ := h.blocksOfKind_head hmem hblocks
    have hnewest := h.mem_of_mem_blocksOfKind hmem (hblocks ▸ List.mem_cons_self)
    simp only [hrule, Bool.false_eq_true, ↓reduceIte, halgorithm, h.weightedBits_eq hnewest, hlast,
      hhistory]

theorem WellFormed.length_le_newest_height (h : left.WellFormed) (hmem : first ∈ left.records)
    {newest : BlockRecord} {rest : List BlockRecord}
    (hblocks : left.blocksOfKind first kind = newest :: rest) :
    (newest :: rest).length ≤ newest.height := by
  have hnewest := h.mem_of_mem_blocksOfKind hmem (hblocks ▸ List.mem_cons_self)
  rw [← (h.blocksOfKind_head hmem hblocks).1]
  exact h.length_blocksOfKind_le hnewest kind

/-- Equal samples give equal bits, if the limit of the first blocks and the heights of the newest do
not tell the two chains apart. -/
theorem WellFormed.requiredBits_eq_of_samples (hleft : left.WellFormed) (hright : right.WellFormed)
    (hfirst : first ∈ left.records) (hsecond : second ∈ right.records)
    (halgorithm : params.algorithm = .weighted) (hrule : params.allowsMinimumDifficulty = false)
    (hsamples : left.samplesOfKind first kind = right.samplesOfKind second kind)
    (hlimit : 2 ≤ (left.samplesOfKind first kind).length ∨
      params.limitAt kind (nextHeight first.height) =
        params.limitAt kind (nextHeight second.height))
    (hheight : ∀ newest other rest tail, left.blocksOfKind first kind = newest :: rest →
      right.blocksOfKind second kind = other :: tail →
      WeightedAverage.bitsOfHistory params kind newest.height (newest :: rest) =
        WeightedAverage.bitsOfHistory params kind other.height (newest :: rest))
    (time later : Int64) :
    left.requiredBits (some first) time params kind =
      right.requiredBits (some second) later params kind := by
  rw [hleft.requiredBits_weighted hfirst halgorithm hrule,
    hright.requiredBits_weighted hsecond halgorithm hrule]
  unfold samplesOfKind at hsamples hlimit
  rcases hblocks : left.blocksOfKind first kind with _ | ⟨newest, _ | ⟨earlier, rest⟩⟩ <;>
    rcases hothers : right.blocksOfKind second kind with _ | ⟨other, _ | ⟨under, tail⟩⟩ <;>
    simp only [hblocks, hothers, List.map_cons, List.map_nil, List.cons.injEq, reduceCtorEq,
      and_false] at hsamples
  case nil.nil =>
    have hequal := hlimit.resolve_left (by simp [hblocks])
    simp only [hequal]
  case cons.nil.cons.nil =>
    have hequal := hlimit.resolve_left (by simp [hblocks])
    simp only [hequal]
  case cons.cons.cons.cons =>
    obtain ⟨hnewest, hearlier, hrest⟩ := hsamples
    have hbits : newest.bits = other.bits := congrArg Prod.snd hnewest
    have hmap : (newest :: earlier :: rest).map (·.sample) =
        (other :: under :: tail).map (·.sample) := by
      simp only [List.map_cons, hnewest, hearlier, hrest]
    simp only [hbits]
    rw [hheight newest other (earlier :: rest) (under :: tail) hblocks hothers,
      WeightedAverage.bitsOfHistory_congr hmap]

/-- **One kind cannot move the target of the other.** Two blocks with the same samples of work ask
for the same bits of work, whatever stake blocks lie between and whatever their genesis is. For
stake the same holds once both sides have two samples and the newest lies high enough for a
window. -/
theorem requiredBits_eq_of_samplesOfKind (hleft : left.Reachable) (hright : right.Reachable)
    (hfirst : first ∈ left.records) (hsecond : second ∈ right.records)
    (halgorithm : params.algorithm = .weighted) (hrule : params.allowsMinimumDifficulty = false)
    (time later : Int64) :
    (left.samplesOfKind first .work = right.samplesOfKind second .work →
      left.requiredBits (some first) time params .work =
        right.requiredBits (some second) later params .work) ∧
    (left.samplesOfKind first .stake = right.samplesOfKind second .stake →
      2 ≤ (left.samplesOfKind first .stake).length →
      params.averagingWindow.toInt + 1 ≤ (left.lastOfKind first .stake).height →
      params.averagingWindow.toInt + 1 ≤ (right.lastOfKind second .stake).height →
      left.requiredBits (some first) time params .stake =
        right.requiredBits (some second) later params .stake) := by
  have hwellLeft := hleft.wellFormed
  have hwellRight := hright.wellFormed
  constructor
  · intro hsamples
    refine hwellLeft.requiredBits_eq_of_samples hwellRight hfirst hsecond halgorithm hrule hsamples
      (.inr rfl) ?_ time later
    intro newest other rest tail hblocks hothers
    have hlength : (newest :: rest).length = (other :: tail).length := by
      rw [← hblocks, ← hothers]
      simpa [samplesOfKind] using congrArg List.length hsamples
    refine WeightedAverage.bitsOfHistory_work_of_height
      (hwellLeft.length_le_newest_height hfirst hblocks) ?_
    rw [hlength]
    exact hwellRight.length_le_newest_height hsecond hothers
  · intro hsamples htwo hlow hhigh
    refine hwellLeft.requiredBits_eq_of_samples hwellRight hfirst hsecond halgorithm hrule hsamples
      (.inl htwo) ?_ time later
    intro newest other rest tail hblocks hothers
    rw [hwellLeft.lastOfKind_eq_head hfirst hblocks] at hlow
    rw [hwellRight.lastOfKind_eq_head hsecond hothers] at hhigh
    exact WeightedAverage.bitsOfHistory_of_tall hlow hhigh

theorem requiredBits_eq_of_samplesOfKind_of_interleaved :
    let params := { ConsensusParams.main with averagingWindow := 1 }
    let left := (ofGenesis (numbered 0 .work 0 0x1f00ffff)).run [
      .push (numbered 1 .work 150 0x1c00ffff), .push (numbered 2 .work 250 0x1c00ffff),
      .push (numbered 3 .stake 260 0x1b00ffff), .push (numbered 4 .stake 420 0x1b00ffff)]
    let right := (ofGenesis (numbered 10 .stake 9 0x1d00ffff)).run [
      .push (numbered 11 .work 150 0x1c00ffff), .push (numbered 12 .stake 260 0x1b00ffff),
      .push (numbered 13 .stake 420 0x1b00ffff), .push (numbered 14 .work 250 0x1c00ffff)]
    left.samplesOfKind left.tip .work = right.samplesOfKind right.tip .work ∧
      left.samplesOfKind left.tip .stake = right.samplesOfKind right.tip .stake ∧
      left.requiredBits (some left.tip) 500 params .work =
        right.requiredBits (some right.tip) 600 params .work ∧
      left.requiredBits (some left.tip) 500 params .stake =
        right.requiredBits (some right.tip) 600 params .stake := by
  intro params left right
  have hwork : left.samplesOfKind left.tip .work = right.samplesOfKind right.tip .work := by
    decide +kernel
  have hstake : left.samplesOfKind left.tip .stake = right.samplesOfKind right.tip .stake := by
    decide +kernel
  have hleft : left.Reachable := ⟨_, _, rfl⟩
  have hright : right.Reachable := ⟨_, _, rfl⟩
  have hfirst : left.tip ∈ left.records := by decide +kernel
  have hsecond : right.tip ∈ right.records := by decide +kernel
  have halgorithm : params.algorithm = .weighted := rfl
  have hbits := requiredBits_eq_of_samplesOfKind hleft hright hfirst hsecond halgorithm rfl 500 600
  exact ⟨hwork, hstake, hbits.1 hwork,
    hbits.2 hstake (by decide +kernel) (by decide +kernel) (by decide +kernel)⟩

end ChainStore

end HybridConsensus
