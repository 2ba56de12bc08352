import HybridConsensus.Proofs.WindowFormula
import HybridConsensus.Proofs.WindowSamples

/-!
# A stake side too young for a window

A short window means the limit for work and a single step for stake, and for stake the walk that
samples is not trusted with the decision: a second walk counts all stake blocks and may overrule it.
The two never differ. A window is short only because it has reached genesis, so it holds every stake
block there is, and these are too few for the count to object. What is left is a matter of how many
stake blocks there are besides genesis: none or one leads to the limit, two to a step between the
newest two, and a full window to the average. The two walks for the step end at the first stake
block they meet, which may be a genesis block that is itself stake, and there both give up.
-/

namespace HybridConsensus

open Signed64

variable {params : ConsensusParams} {kind : ProofKind}

namespace WeightedAverage

theorem bitsOfFew_of_length_lt_two {blocks : List BlockRecord} (hfew : blocks.length < 2) :
    bitsOfFew params kind blocks = .ok (params.limit kind).toCompact := by
  rcases blocks with _ | ⟨newest, _ | ⟨earlier, rest⟩⟩
  case cons.cons =>
    simp only [List.length_cons] at hfew
    omega
  all_goals cases kind <;> rfl

end WeightedAverage

namespace ChainStore

open WeightedAverage

variable {store : ChainStore} {last block : BlockRecord}

/-- A window that is short has met genesis, and so has the walk that counts. -/
theorem WellFormed.countStake_eq_size (h : store.WellFormed) (hmem : last ∈ store.records)
    {limit : Nat} (hshort : (store.sampleWindow last limit .stake).size < limit) :
    store.countStake last 0 = (store.sampleWindow last limit .stake).size := by
  rw [sampleWindow_size] at hshort ⊢
  rw [h.countStake_zero hmem]
  omega

/-- Blocks that fill a window lead to an average or to a fault, never to the limit for lack of
samples. -/
theorem WellFormed.weightedBits_of_full (h : store.WellFormed) (hmem : last ∈ store.records)
    (hparams : params.Valid) (hfixed : params.isFixed kind = false)
    (htall : params.windowSize + 1 ≤ last.height)
    (hfull : params.windowSize + 1 ≤ (store.blocksOfKind last kind).length) :
    ∃ average : Except Fault Target,
      store.weightedTarget last (store.sampleWindow last (params.windowSize + 1) kind)
          params.averagingWindow.toInt params.spacing.toInt = average.map some ∧
        store.weightedBits last params kind = average.map (·.clampedBits (params.limit kind)) := by
  have hsize := hparams.cast_windowSize
  have hsamples : ((store.blocksOfKind last kind).take (params.windowSize + 1)).reverse ≠ [] := by
    rw [Ne, List.reverse_eq_nil_iff, ← List.length_eq_zero_iff, List.length_take]
    omega
  obtain ⟨average, haverage⟩ := exists_ofSamples_eq_map hsamples params.averagingWindow.toInt
    params.spacing.toInt
  rw [← hsize, ← h.weightedTarget_eq hmem hfull, hsize] at haverage
  refine ⟨average, haverage, ?_⟩
  rw [h.weightedBits_of_room hmem hsize.symm hfixed htall, if_neg (by omega), haverage]
  cases average <;> rfl

/-- **A stake side too young for a window takes single steps.** A window that is not full holds all
stake blocks but genesis, and the count of them agrees. Above the heights where all blocks are given
away, fewer than two of them ask for the limit, more for a step between the newest two, neither of
which is genesis, and just as many as fill a window, or more, for the average. -/
theorem weightedBits_stake_of_count (hstore : store.Reachable) (hlast : last ∈ store.records)
    (hparams : params.validate = .ok ()) :
    let size := params.windowSize
    let stake := (store.lineage last).filter fun block => !block.isGenesis && block.isStake
    let window := store.sampleWindow last (size + 1) .stake
    (window.size < size + 1 →
      store.countStake last 0 = window.size ∧ store.countStake last 0 ≤ size) ∧
    (params.stakeIsFixed = false → size + 1 ≤ last.height →
      (stake.length < 2 →
        store.weightedBits last params .stake = .ok params.stakeLimit.toCompact) ∧
      (∀ newest earlier rest, stake = newest :: earlier :: rest → stake.length < size + 1 →
        newest.isGenesis = false ∧ earlier.isGenesis = false ∧
        store.weightedBits last params .stake =
          ExponentialAverage.step newest earlier.time params.spacing.toInt params.stakeLimit) ∧
      (size + 1 ≤ stake.length → ∃ average : Except Fault Target,
        store.weightedTarget last window params.averagingWindow.toInt params.spacing.toInt =
          average.map some ∧
        store.weightedBits last params .stake =
          average.map (·.clampedBits params.stakeLimit))) := by
  intro size stake window
  have hwell := hstore.wellFormed
  rw [ConsensusParams.validate_eq_ok_iff] at hparams
  have hpositive := hparams.windowSize_pos
  have hstake : stake = store.blocksOfKind last .stake :=
    hwell.rooted.filter_lineage hlast .stake
  constructor
  · intro hshort
    have hcount : store.countStake last 0 = window.size := hwell.countStake_eq_size hlast hshort
    exact ⟨hcount, by omega⟩
  intro hfixed htall
  have hretargeted : params.isFixed .stake = false := hfixed
  have hbits := hwell.weightedBits_of_room hlast hparams.cast_windowSize.symm hretargeted htall
  rw [← hstake] at hbits
  refine ⟨fun hfew => ?_, fun newest earlier rest hblocks hshort => ?_, fun hfull => ?_⟩
  · rw [hbits, if_pos (by omega)]
    exact bitsOfFew_of_length_lt_two hfew
  · have hmember : ∀ block ∈ stake, block.isGenesis = false := by
      intro block hblock
      have hkept := (List.mem_filter.mp hblock).2
      rw [Bool.and_eq_true, Bool.not_eq_true'] at hkept
      exact hkept.1
    refine ⟨hmember newest (by simp [hblocks]), hmember earlier (by simp [hblocks]), ?_⟩
    rw [hbits, if_pos (by omega), hblocks]
    rfl
  · rw [hstake] at hfull
    exact hwell.weightedBits_of_full hlast hparams hretargeted htall hfull

/-- A genesis block of stake, then two stake blocks, the second earlier than the first: too few for
a window of three, so they take a step. Below the second there is one, which is too few for a step.
-/
theorem weightedBits_stake_of_count_of_two :
    let params := { ConsensusParams.main with averagingWindow := 2 }
    let store := (ofGenesis (numbered 0 .stake 0 0x1d00ffff)).run [
      .push (numbered 1 .work 150 0x1f00ffff), .push (numbered 2 .stake 300 0x1c00ffff),
      .push (numbered 3 .work 450 0x1f00ffff), .push (numbered 4 .stake 290 0x1b00ffff)]
    ∃ newest ∈ store.records, ∃ between ∈ store.records, ∃ earlier ∈ store.records,
      store.countStake newest 0 = (store.sampleWindow newest 3 .stake).size ∧
      earlier.isGenesis = false ∧
      store.weightedBits newest params .stake =
        ExponentialAverage.step newest earlier.time 150 params.stakeLimit ∧
      store.weightedBits between params .stake = .ok params.stakeLimit.toCompact := by
  intro params store
  have hstore : store.Reachable := ⟨_, _, rfl⟩
  have hvalid : params.validate = .ok () := by decide
  let newest : BlockRecord := { numbered 4 .stake 290 0x1b00ffff with
    id := 4, height := 4, parent := some 3 }
  let between : BlockRecord := { numbered 3 .work 450 0x1f00ffff with
    id := 3, height := 3, parent := some 2 }
  let earlier : BlockRecord := { numbered 2 .stake 300 0x1c00ffff with
    id := 2, height := 2, parent := some 1 }
  have hchain : newest ∈ store.records ∧ between ∈ store.records ∧ earlier ∈ store.records ∧
      (store.lineage newest).filter (fun block => !block.isGenesis && block.isStake) =
        [newest, earlier] ∧
      (store.lineage between).filter (fun block => !block.isGenesis && block.isStake) = [earlier] ∧
      (store.sampleWindow newest (params.windowSize + 1) .stake).size < params.windowSize + 1 := by
    decide +kernel
  obtain ⟨hnewest, hbetween, hearlier, htwo, hone, hshort⟩ := hchain
  obtain ⟨hcount, hbits⟩ := weightedBits_stake_of_count hstore hnewest hvalid
  obtain ⟨-, hfew⟩ := weightedBits_stake_of_count hstore hbetween hvalid
  obtain ⟨-, hstep, -⟩ := hbits rfl (by decide)
  obtain ⟨-, hgenesis, hsame⟩ := hstep newest earlier [] htwo (by rw [htwo]; decide)
  exact ⟨newest, hnewest, between, hbetween, earlier, hearlier, (hcount hshort).1,
    hgenesis, hsame, (hfew rfl (by decide)).1 (by rw [hone]; decide)⟩

end ChainStore

end HybridConsensus
