import HybridConsensus.Proofs.ScheduledLimit
import HybridConsensus.Proofs.WindowMargins

/-!
# Later blocks and easier targets

Two windows are compared that differ in the targets and in the time of the newest sample. Nothing
comes after that sample, so its time moves the clock only where it is read last, and a later time
can only lengthen the last solve time. Larger targets can only add to the sum of quotients. Both
factors of the product are then no smaller, and neither the clamp nor the rounding turns that
around.

The one thing that does is a target of zero, for which the limit stands in: a target above zero can
be below that. The solve times add up to zero only if the clock has stopped at the oldest sample,
and that time is the same in both windows. So with equal targets the products are zero together, and
a product that is not zero stays so.
-/

namespace HybridConsensus

open Signed64

namespace WeightedAverage

variable {size place : Nat} {spacing : Int} {sample later : Nat → BlockRecord}

/-- The samples of two windows have the same times, but for the newest: it may be later in the
second. -/
structure Delays (size : Nat) (sample later : Nat → BlockRecord) : Prop where
  time_eq : ∀ place < size, (later place).time = (sample place).time
  newest_le : (sample size).time.toInt ≤ (later size).time.toInt

namespace Delays

theorem clockAt_eq (h : Delays size sample later) (hplace : place < size) :
    clockAt later place = clockAt sample place := by
  induction place with
  | zero => rw [clockAt_zero, clockAt_zero, h.time_eq 0 hplace]
  | succ place ih => rw [clockAt_succ, clockAt_succ, h.time_eq (place + 1) hplace, ih (by omega)]

theorem clockAt_le (h : Delays size sample later) (hplace : place ≤ size) :
    clockAt sample place ≤ clockAt later place := by
  rcases Nat.lt_or_eq_of_le hplace with hlt | rfl
  · exact (h.clockAt_eq hlt).ge
  · cases place with
    | zero =>
      rw [clockAt_zero, clockAt_zero]
      exact h.newest_le
    | succ place =>
      -- The clock is the same up to here, so only the newest time itself can move it.
      rw [clockAt_succ, clockAt_succ, h.clockAt_eq (Nat.lt_succ_self place)]
      exact max_le_max_right _ h.newest_le

theorem solveTimeAt_le (h : Delays size sample later) (hlow : 1 ≤ place) (hplace : place ≤ size) :
    solveTimeAt spacing sample place ≤ solveTimeAt spacing later place := by
  have hbefore := h.clockAt_eq (by omega : place - 1 < size)
  have hclock := h.clockAt_le hplace
  rw [solveTimeAt, solveTimeAt, hbefore]
  exact min_le_min_left _ (Int.sub_le_sub_right hclock _)

theorem solveTimeSum_le (h : Delays size sample later) (spacing : Int) :
    solveTimeSum size spacing sample ≤ solveTimeSum size spacing later := by
  refine Finset.sum_le_sum fun place hplace => ?_
  obtain ⟨hlow, hhigh⟩ := Finset.mem_Icc.mp hplace
  exact Int.mul_le_mul_of_nonneg_left (h.solveTimeAt_le hlow hhigh) (by omega)

/-- Whether the clock has stopped is settled by the oldest sample. -/
theorem solveTimeSum_eq_zero (h : Delays size sample later) (hsize : 1 ≤ size)
    (hspacing : 1 ≤ spacing) (hzero : solveTimeSum size spacing sample = 0) :
    solveTimeSum size spacing later = 0 := by
  rw [solveTimeSum_eq_zero_iff hsize hspacing] at hzero ⊢
  rw [h.clockAt_eq (by omega), hzero]

end Delays

theorem shareSum_le_shareSum (heases : ∀ place ∈ Finset.Icc 1 size,
    (sample place).bits.target ≤ (later place).bits.target) (spacing : Int) :
    shareSum size spacing sample ≤ shareSum size spacing later :=
  Finset.sum_le_sum fun place hplace => Nat.div_le_div_right (heases place hplace)

theorem Delays.windowTarget_le (h : Delays size sample later) (hspacing : 1 ≤ spacing)
    (heases : ∀ place ∈ Finset.Icc 1 size,
      (sample place).bits.target ≤ (later place).bits.target) :
    windowTarget size spacing sample ≤ windowTarget size spacing later := by
  have hsolve := h.solveTimeSum_le spacing
  have hshare : (shareSum size spacing sample : Int) ≤ shareSum size spacing later := by
    exact_mod_cast shareSum_le_shareSum heases spacing
  have hnonneg := solveTimeSum_nonneg hspacing size sample
  have hproduct : solveTimeSum size spacing sample * shareSum size spacing sample ≤
      solveTimeSum size spacing later * shareSum size spacing later :=
    Int.mul_le_mul hsolve hshare (by omega) (by omega)
  exact Target.saturate_mono (Int.toNat_le_toNat hproduct)

theorem windowTarget_eq_zero_iff (hspacing : 1 ≤ spacing) (size : Nat)
    (sample : Nat → BlockRecord) :
    (windowTarget size spacing sample).value = 0 ↔
      solveTimeSum size spacing sample = 0 ∨ shareSum size spacing sample = 0 := by
  have hproduct : 0 ≤ solveTimeSum size spacing sample * shareSum size spacing sample :=
    Int.mul_nonneg (solveTimeSum_nonneg hspacing size sample) (by omega)
  rw [windowTarget, Target.value_saturate_eq_zero_iff, Int.toNat_eq_zero,
    ← Int.natCast_eq_zero (n := shareSum size spacing sample), ← Int.mul_eq_zero]
  omega

/-- With equal targets a delay does not lift the product from zero. -/
theorem Delays.windowTarget_eq_zero (h : Delays size sample later) (hsize : 1 ≤ size)
    (hspacing : 1 ≤ spacing)
    (hsame : ∀ place ∈ Finset.Icc 1 size, (later place).bits.target = (sample place).bits.target)
    (hzero : (windowTarget size spacing sample).value = 0) :
    (windowTarget size spacing later).value = 0 := by
  have hshare : shareSum size spacing later = shareSum size spacing sample :=
    Finset.sum_congr rfl fun place hplace => by rw [hsame place hplace]
  rw [windowTarget_eq_zero_iff hspacing] at hzero ⊢
  rw [hshare]
  exact hzero.imp_left (h.solveTimeSum_eq_zero hsize hspacing)

theorem Delays.target_clampedBits_le (h : Delays size sample later) (hspacing : 1 ≤ spacing)
    (heases : ∀ place ∈ Finset.Icc 1 size,
      (sample place).bits.target ≤ (later place).bits.target)
    (hnonzero : (windowTarget size spacing sample).value ≠ 0) (limit : Target) :
    ((windowTarget size spacing sample).clampedBits limit).target ≤
      ((windowTarget size spacing later).clampedBits limit).target :=
  Target.target_clampedBits_mono (h.windowTarget_le hspacing heases) hnonzero limit

theorem Delays.target_clampedBits_le_of_same (h : Delays size sample later) (hsize : 1 ≤ size)
    (hspacing : 1 ≤ spacing)
    (hsame : ∀ place ∈ Finset.Icc 1 size, (later place).bits.target = (sample place).bits.target)
    (limit : Target) :
    ((windowTarget size spacing sample).clampedBits limit).target ≤
      ((windowTarget size spacing later).clampedBits limit).target := by
  have heases : ∀ place ∈ Finset.Icc 1 size,
      (sample place).bits.target ≤ (later place).bits.target := by
    intro place hplace
    rw [hsame place hplace]
    exact Nat.le_refl _
  exact Target.target_clampedBits_mono_of_zero (h.windowTarget_le hspacing heases)
    (h.windowTarget_eq_zero hsize hspacing hsame) limit

end WeightedAverage

namespace ChainStore

open WeightedAverage

variable {store other : ChainStore} {last newest : BlockRecord} {kind : ProofKind}
  {params : ConsensusParams} {sample later : Nat → BlockRecord}

theorem WellFormed.weightedTarget_of_isWindow (h : store.WellFormed) (hlast : last ∈ store.records)
    (hparams : params.Valid) (hfits : Fits params.averagingWindow.toInt params.spacing.toInt)
    (hwindow : store.IsWindow last kind params.windowSize sample) :
    store.weightedTarget last (store.sampleWindow last (params.windowSize + 1) kind)
        params.averagingWindow.toInt params.spacing.toInt =
      .ok (some (windowTarget params.windowSize params.spacing.toInt sample)) := by
  have hsize := hparams.windowSize_pos
  have hcast := hparams.cast_windowSize
  rw [← hcast] at hfits ⊢
  rw [h.weightedTarget_eq hlast hwindow.lt_length, hwindow.reverse_take_eq,
    ofSamples_windowOf hsize hparams.spacing hfits, target_tallyOf hsize hparams.spacing hfits]

/-- **Later blocks and easier targets never make the weighted average harder.** Of two branches with
full windows whose times are the same but for a later newest sample, the second asks for no smaller
a target if the targets of the samples are the same, and also if they are larger, unless the average
of the first is zero. -/
theorem weightedBits_le_of_delays (hstore : store.Reachable) (hother : other.Reachable)
    (hlast : last ∈ store.records) (hnewest : newest ∈ other.records)
    (hparams : params.validate = .ok ()) (hfixed : params.isFixed kind = false)
    (hfits : Fits params.averagingWindow.toInt params.spacing.toInt)
    (hsample : store.IsWindow last kind params.windowSize sample)
    (hlater : other.IsWindow newest kind params.windowSize later)
    (hdelays : Delays params.windowSize sample later) :
    ∃ (average : Target) (bits laterBits : CompactBits),
      store.weightedTarget last (store.sampleWindow last (params.windowSize + 1) kind)
          params.averagingWindow.toInt params.spacing.toInt = .ok (some average) ∧
      store.weightedBits last params kind = .ok bits ∧
      other.weightedBits newest params kind = .ok laterBits ∧
      ((∀ place ∈ Finset.Icc 1 params.windowSize,
          (later place).bits.target = (sample place).bits.target) →
        bits.target ≤ laterBits.target) ∧
      ((∀ place ∈ Finset.Icc 1 params.windowSize,
          (sample place).bits.target ≤ (later place).bits.target) →
        average.value ≠ 0 → bits.target ≤ laterBits.target) := by
  rw [ConsensusParams.validate_eq_ok_iff] at hparams
  have hsize := hparams.windowSize_pos
  have hspacing := hparams.spacing
  refine ⟨_, _, _, hstore.wellFormed.weightedTarget_of_isWindow hlast hparams hfits hsample,
    hstore.wellFormed.weightedBits_of_isWindow hlast hparams hfixed hfits hsample,
    hother.wellFormed.weightedBits_of_isWindow hnewest hparams hfixed hfits hlater, ?_, ?_⟩
  · intro hsame
    exact hdelays.target_clampedBits_le_of_same hsize hspacing hsame _
  · intro heases hnonzero
    exact hdelays.target_clampedBits_le hspacing heases hnonzero _

/-- The newest work block comes a minute later and the one below it has twice the target. -/
theorem weightedBits_le_of_delays_and_easing :
    let params := { ConsensusParams.main with averagingWindow := 2 }
    let store := fun (bits : CompactBits) (time : Int64) =>
      (ofGenesis (numbered 0 .work 0 0x1f00ffff)).run [
        .push (numbered 1 .work 100 0x1c00ffff), .push (numbered 2 .stake 180 0x1b00ffff),
        .push (numbered 3 .work 250 bits), .push (numbered 4 .work time 0x1c00ffff)]
    let sample := fun (bits : CompactBits) (time : Int64) (place : Nat) =>
      ((store bits time).blocksOfKind (store bits time).tip .work).getD (2 - place)
        (store bits time).genesis
    Delays 2 (sample 0x1c00ffff 400) (sample 0x1c01fffe 460) ∧
      ∃ bits laterBits : CompactBits,
        (store 0x1c00ffff 400).weightedBits (store 0x1c00ffff 400).tip params .work = .ok bits ∧
        (store 0x1c01fffe 460).weightedBits (store 0x1c01fffe 460).tip params .work =
          .ok laterBits ∧
        bits.target ≤ laterBits.target := by
  intro params store sample
  have hvalid : params.validate = .ok () := by decide
  have hfits : Fits params.averagingWindow.toInt params.spacing.toInt := by decide
  have hreachable : ∀ bits time, (store bits time).Reachable := fun _ _ => ⟨_, _, rfl⟩
  have hsample : (store 0x1c00ffff 400).IsWindow (store 0x1c00ffff 400).tip .work
      params.windowSize (sample 0x1c00ffff 400) := by decide +kernel
  have hlater : (store 0x1c01fffe 460).IsWindow (store 0x1c01fffe 460).tip .work
      params.windowSize (sample 0x1c01fffe 460) := by decide +kernel
  have hdelays : Delays 2 (sample 0x1c00ffff 400) (sample 0x1c01fffe 460) :=
    ⟨by decide +kernel, by decide +kernel⟩
  have heases : ∀ place ∈ Finset.Icc 1 2,
      (sample 0x1c00ffff 400 place).bits.target ≤ (sample 0x1c01fffe 460 place).bits.target := by
    decide +kernel
  obtain ⟨average, bits, laterBits, haverage, hbits, hlaterBits, -, hle⟩ :=
    weightedBits_le_of_delays (hreachable _ _) (hreachable _ _) (by decide +kernel)
      (by decide +kernel) hvalid rfl hfits hsample hlater hdelays
  have hnonzero : average.value ≠ 0 := by
    intro hzero
    have heq : average = .saturate 0 := Target.ext hzero
    rw [heq] at haverage
    exact absurd haverage (by decide +kernel)
  exact ⟨hdelays, bits, laterBits, hbits, hlaterBits, hle heases hnonzero⟩

end ChainStore

end HybridConsensus
