import HybridConsensus.Proofs.WindowFormula
import Mathlib.Algebra.BigOperators.Ring.Finset
import Mathlib.Algebra.Order.Field.Rat
import Mathlib.Data.Nat.Cast.Order.Field
import Mathlib.Tactic.FieldSimp

/-!
# How far one window can move the target

The times of a window are whatever its miners wrote into their blocks. Each solve time is capped, so
the weighted sum of them is at most six times what it is at a steady pace, and the target at most
six times the mean. Each is at least one second as well, unless the clock has stopped: that takes an
oldest sample at the last second there is, because a later sample only stops the clock for what
comes after it. Rounding costs less than one for each sample before the sum of quotients is
multiplied by the solve times, and so less than their product after it, unless there is nothing to
multiply by.
-/

namespace HybridConsensus.WeightedAverage

open Signed64

variable {size place : Nat} {spacing : Int} {sample : Nat → BlockRecord}

def targetSum (size : Nat) (sample : Nat → BlockRecord) : Nat :=
  ∑ place ∈ Finset.Icc 1 size, (sample place).bits.target.value

/-! ### Solve times -/

theorem clockAt_le_succ (sample : Nat → BlockRecord) (place : Nat) :
    clockAt sample place ≤ clockAt sample (place + 1) := by
  have hrange := (clockAt_inRange sample place).2
  rw [clockAt_succ]
  omega

theorem solveTimeAt_nonneg (hspacing : 1 ≤ spacing) (sample : Nat → BlockRecord) (place : Nat) :
    0 ≤ solveTimeAt spacing sample place := by
  have hstep : clockAt sample (place - 1) ≤ clockAt sample place := by
    cases place with
    | zero => exact Int.le_refl _
    | succ place => exact clockAt_le_succ sample place
  unfold solveTimeAt
  omega

theorem solveTimeSum_nonneg (hspacing : 1 ≤ spacing) (size : Nat) (sample : Nat → BlockRecord) :
    0 ≤ solveTimeSum size spacing sample :=
  Finset.sum_nonneg fun place _ =>
    Int.mul_nonneg (by omega) (solveTimeAt_nonneg hspacing sample place)

theorem two_mul_steadySum (size : Nat) (spacing : Int) :
    2 * steadySum size spacing = size * (size + 1) * spacing :=
  Int.mul_ediv_cancel' (Dvd.dvd.mul_right (Int.even_mul_succ_self size).two_dvd spacing)

theorem steadySum_pos (hsize : 1 ≤ size) (hspacing : 1 ≤ spacing) : 0 < steadySum size spacing := by
  have hdouble := two_mul_steadySum size spacing
  have hpositive : 0 < (size : Int) * (size + 1) * spacing := by positivity
  omega

theorem sum_Icc_id_mul_two (size : Nat) :
    2 * ∑ place ∈ Finset.Icc 1 size, (place : Int) = size * (size + 1) := by
  induction size with
  | zero => rfl
  | succ size ih =>
    rw [Finset.sum_Icc_succ_top (by omega), mul_add, ih]
    push_cast
    ring

/-- A clock at the last second never moves again. -/
theorem clockAt_of_stopped (hstopped : clockAt sample 0 = largest) (place : Nat) :
    clockAt sample place = largest := by
  induction place with
  | zero => exact hstopped
  | succ place ih =>
    have hrange := (clockAt_inRange sample (place + 1)).2
    have hstep := clockAt_le_succ sample place
    omega

theorem solveTimeSum_eq_zero_iff (hsize : 1 ≤ size) (hspacing : 1 ≤ spacing)
    (sample : Nat → BlockRecord) :
    solveTimeSum size spacing sample = 0 ↔ clockAt sample 0 = largest := by
  have hterms : ∀ place ∈ Finset.Icc 1 size, 0 ≤ place * solveTimeAt spacing sample place :=
    fun place _ => Int.mul_nonneg (by omega) (solveTimeAt_nonneg hspacing sample place)
  constructor
  · intro hzero
    -- The first solve time is zero only if the clock has no second left to move on by.
    have hfirst := (Finset.sum_eq_zero_iff_of_nonneg hterms).mp hzero 1
      (Finset.mem_Icc.mpr ⟨Nat.le_refl 1, hsize⟩)
    have hrange := (clockAt_inRange sample 0).2
    have hclock := clockAt_succ sample 0
    rw [zero_add] at hclock
    simp only [solveTimeAt, Nat.cast_one, one_mul, Nat.sub_self] at hfirst
    omega
  · intro hstopped
    refine Finset.sum_eq_zero fun place _ => ?_
    rw [solveTimeAt, clockAt_of_stopped hstopped, clockAt_of_stopped hstopped, sub_self,
      min_eq_right (by omega), mul_zero]

/-- While all samples leave room for the seconds of a window, the clock never stops. -/
theorem one_le_solveTimeAt (hspacing : 1 ≤ spacing)
    (hearly : ∀ older ≤ size, (sample older).time.toInt ≤ largest - size) (hplace : place < size) :
    1 ≤ solveTimeAt spacing sample (place + 1) := by
  have hroom : ∀ older ≤ size, clockAt sample older ≤ largest - size + older := by
    intro older
    induction older with
    | zero =>
      intro _
      rw [clockAt_zero]
      have := hearly 0 (Nat.zero_le _)
      omega
    | succ older ih =>
      intro holder
      have htime := hearly (older + 1) holder
      have hbefore := ih (by omega)
      rw [clockAt_succ]
      omega
  have hbefore := hroom place (by omega)
  have hclock := clockAt_succ sample place
  rw [solveTimeAt, Nat.add_sub_cancel]
  omega

theorem le_solveTimeSum_of_early (hspacing : 1 ≤ spacing)
    (hearly : ∀ older ≤ size, (sample older).time.toInt ≤ largest - size) :
    size * (size + 1) ≤ 2 * solveTimeSum size spacing sample := by
  have hsum : ∑ place ∈ Finset.Icc 1 size, (place : Int) ≤ solveTimeSum size spacing sample := by
    refine Finset.sum_le_sum fun place hplace => ?_
    obtain ⟨hlow, hhigh⟩ := Finset.mem_Icc.mp hplace
    have hsolve := one_le_solveTimeAt hspacing hearly (by omega : place - 1 < size)
    rw [Nat.sub_add_cancel hlow] at hsolve
    exact le_mul_of_one_le_right (by omega) hsolve
  have hdouble := sum_Icc_id_mul_two size
  omega

theorem solveTimeSum_of_steady (hsteady : ∀ place ∈ Finset.Icc 1 size,
    solveTimeAt spacing sample place = spacing) :
    solveTimeSum size spacing sample = steadySum size spacing := by
  have hsum : solveTimeSum size spacing sample =
      (∑ place ∈ Finset.Icc 1 size, (place : Int)) * spacing := by
    rw [Finset.sum_mul]
    exact Finset.sum_congr rfl fun place hplace => by rw [hsteady place hplace]
  have hdouble := sum_Icc_id_mul_two size
  have hsteadyDouble := two_mul_steadySum size spacing
  rw [← hdouble, mul_assoc, ← hsum] at hsteadyDouble
  omega

/-! ### Rounding -/

theorem shareSum_mul_le (size : Nat) (spacing : Int) (sample : Nat → BlockRecord) :
    shareSum size spacing sample * (size * (steadySum size spacing).toNat) ≤
      targetSum size sample := by
  rw [shareSum, Finset.sum_mul]
  exact Finset.sum_le_sum fun place _ => Nat.div_mul_le_self _ _

theorem divisor_pos (hsize : 1 ≤ size) (hspacing : 1 ≤ spacing) :
    0 < size * (steadySum size spacing).toNat := by
  have hpositive := steadySum_pos hsize hspacing
  exact Nat.mul_pos hsize (by omega)

/-- Each quotient is rounded down by less than one. -/
theorem targetSum_lt (hsize : 1 ≤ size) (hspacing : 1 ≤ spacing) (sample : Nat → BlockRecord) :
    targetSum size sample <
      (shareSum size spacing sample + size) * (size * (steadySum size spacing).toNat) := by
  have hdivisor := divisor_pos hsize hspacing
  have hsome : (Finset.Icc 1 size).Nonempty := ⟨1, Finset.mem_Icc.mpr ⟨Nat.le_refl 1, hsize⟩⟩
  calc targetSum size sample
      < ∑ place ∈ Finset.Icc 1 size,
          ((sample place).bits.target.value / (size * (steadySum size spacing).toNat) + 1) *
            (size * (steadySum size spacing).toNat) :=
        Finset.sum_lt_sum_of_nonempty hsome fun place _ => by
          rw [mul_comm]
          exact Nat.lt_mul_div_succ _ hdivisor
    _ = (shareSum size spacing sample + size) * (size * (steadySum size spacing).toNat) := by
        rw [← Finset.sum_mul, Finset.sum_add_distrib, Finset.sum_const, Nat.card_Icc, shareSum]
        simp

theorem cast_divisor (hsize : 1 ≤ size) (hspacing : 1 ≤ spacing) :
    ((size * (steadySum size spacing).toNat : Nat) : ℚ) = size * steadySum size spacing := by
  have hpositive := steadySum_pos hsize hspacing
  have hcast : ((steadySum size spacing).toNat : Int) = steadySum size spacing :=
    Int.toNat_of_nonneg (Int.le_of_lt hpositive)
  rw [Nat.cast_mul, ← Int.cast_natCast (steadySum size spacing).toNat, hcast]

/-- The sum of quotients is the quotient of the sum but for less than one for each sample. -/
theorem shareSum_bounds (hsize : 1 ≤ size) (hspacing : 1 ≤ spacing) (sample : Nat → BlockRecord) :
    (shareSum size spacing sample : ℚ) ≤
        targetSum size sample / (size * steadySum size spacing) ∧
      (targetSum size sample : ℚ) / (size * steadySum size spacing) <
        shareSum size spacing sample + size := by
  have hdivisor : (0 : ℚ) < (size * (steadySum size spacing).toNat : Nat) := by
    exact_mod_cast divisor_pos hsize hspacing
  have hlow := shareSum_mul_le size spacing sample
  have hhigh := targetSum_lt hsize hspacing sample
  rw [← cast_divisor hsize hspacing, le_div_iff₀ hdivisor, div_lt_iff₀ hdivisor]
  exact ⟨by exact_mod_cast hlow, by exact_mod_cast hhigh⟩

/-- With equal targets the count of samples cancels out. -/
theorem shareSum_of_common (hsize : 1 ≤ size) (hspacing : 1 ≤ spacing) {target : Target}
    (htargets : ∀ place ∈ Finset.Icc 1 size, (sample place).bits.target = target) :
    (shareSum size spacing sample : Int) * steadySum size spacing ≤ target.value ∧
      (target.value : Int) < (shareSum size spacing sample + size) * steadySum size spacing := by
  have hpositive := steadySum_pos hsize hspacing
  have hcast : ((steadySum size spacing).toNat : Int) = steadySum size spacing :=
    Int.toNat_of_nonneg (Int.le_of_lt hpositive)
  have htotal : targetSum size sample = size * target.value := by
    rw [targetSum, Finset.sum_const_nat fun place hplace => congrArg Target.value
      (htargets place hplace), Nat.card_Icc, Nat.add_sub_cancel]
  have hlow := shareSum_mul_le size spacing sample
  have hhigh := targetSum_lt hsize hspacing sample
  rw [htotal, mul_left_comm] at hlow hhigh
  rw [← hcast]
  constructor
  · exact_mod_cast Nat.le_of_mul_le_mul_left hlow hsize
  · exact_mod_cast Nat.lt_of_mul_lt_mul_left hhigh

/-! ### The margins -/

theorem windowTarget_le_product (hspacing : 1 ≤ spacing) (size : Nat)
    (sample : Nat → BlockRecord) :
    ((windowTarget size spacing sample).value : Int) ≤
      solveTimeSum size spacing sample * shareSum size spacing sample := by
  have hproduct : 0 ≤ solveTimeSum size spacing sample * shareSum size spacing sample :=
    Int.mul_nonneg (solveTimeSum_nonneg hspacing size sample) (by omega)
  have hsaturated := Target.value_saturate_le
    (solveTimeSum size spacing sample * shareSum size spacing sample).toNat
  unfold windowTarget
  omega

theorem windowTarget_eq_product (hspacing : 1 ≤ spacing)
    (hfits : solveTimeSum size spacing sample * shareSum size spacing sample ≤
      Target.maximum.value) :
    ((windowTarget size spacing sample).value : Int) =
      solveTimeSum size spacing sample * shareSum size spacing sample := by
  have hproduct : 0 ≤ solveTimeSum size spacing sample * shareSum size spacing sample :=
    Int.mul_nonneg (solveTimeSum_nonneg hspacing size sample) (by omega)
  have hbounded := Target.maximum.bounded
  rw [windowTarget, Target.value_saturate_of_lt (by omega), Int.toNat_of_nonneg hproduct]

theorem solveTimeSum_le (hsize : 1 ≤ size) (hspacing : 1 ≤ spacing) (hfits : Fits size spacing)
    (sample : Nat → BlockRecord) :
    solveTimeSum size spacing sample ≤ 6 * steadySum size spacing := by
  have hle := (tallyOf_sums hsize hspacing hfits sample).2.solveTimes_le
  have hdouble := two_mul_steadySum size spacing
  rw [solveTimes_tallyOf hsize hspacing hfits] at hle
  omega

theorem windowTarget_le_exact (hsize : 1 ≤ size) (hspacing : 1 ≤ spacing)
    (sample : Nat → BlockRecord) :
    ((windowTarget size spacing sample).value : ℚ) ≤
      targetSum size sample * solveTimeSum size spacing sample /
        (size * steadySum size spacing) := by
  have hnonneg : (0 : ℚ) ≤ solveTimeSum size spacing sample := by
    exact_mod_cast solveTimeSum_nonneg hspacing size sample
  calc ((windowTarget size spacing sample).value : ℚ)
      ≤ solveTimeSum size spacing sample * shareSum size spacing sample := by
        exact_mod_cast windowTarget_le_product hspacing size sample
    _ ≤ solveTimeSum size spacing sample *
          (targetSum size sample / (size * steadySum size spacing)) :=
        mul_le_mul_of_nonneg_left (shareSum_bounds hsize hspacing sample).1 hnonneg
    _ = targetSum size sample * solveTimeSum size spacing sample /
          (size * steadySum size spacing) := by ring

theorem windowTarget_le_six_means (hsize : 1 ≤ size) (hspacing : 1 ≤ spacing)
    (hfits : Fits size spacing) (sample : Nat → BlockRecord) :
    ((windowTarget size spacing sample).value : ℚ) ≤ 6 * (targetSum size sample / size) := by
  have hsteady : (0 : ℚ) < steadySum size spacing := by
    exact_mod_cast steadySum_pos hsize hspacing
  have hsolve : (solveTimeSum size spacing sample : ℚ) ≤ 6 * steadySum size spacing := by
    exact_mod_cast solveTimeSum_le hsize hspacing hfits sample
  have hcount : (0 : ℚ) < size := by exact_mod_cast hsize
  calc ((windowTarget size spacing sample).value : ℚ)
      ≤ targetSum size sample * solveTimeSum size spacing sample /
          (size * steadySum size spacing) := windowTarget_le_exact hsize hspacing sample
    _ ≤ targetSum size sample * (6 * steadySum size spacing) / (size * steadySum size spacing) := by
        gcongr
    _ = 6 * (targetSum size sample / size) := by field_simp

/-- What rounding costs, if there are solve times to multiply by. -/
theorem exact_sub_windowTarget_lt (hsize : 1 ≤ size) (hspacing : 1 ≤ spacing)
    (hfits : solveTimeSum size spacing sample * shareSum size spacing sample ≤
      Target.maximum.value) (hmoves : solveTimeSum size spacing sample ≠ 0) :
    (targetSum size sample : ℚ) * solveTimeSum size spacing sample /
        (size * steadySum size spacing) - (windowTarget size spacing sample).value <
      size * solveTimeSum size spacing sample := by
  have hnonneg := solveTimeSum_nonneg hspacing size sample
  have hpositive : (0 : ℚ) < solveTimeSum size spacing sample := by
    exact_mod_cast lt_of_le_of_ne hnonneg hmoves.symm
  have hvalue : ((windowTarget size spacing sample).value : ℚ) =
      solveTimeSum size spacing sample * shareSum size spacing sample := by
    exact_mod_cast windowTarget_eq_product hspacing hfits
  have hmean := (shareSum_bounds hsize hspacing sample).2
  calc (targetSum size sample : ℚ) * solveTimeSum size spacing sample /
          (size * steadySum size spacing) - (windowTarget size spacing sample).value
      = solveTimeSum size spacing sample *
          (targetSum size sample / (size * steadySum size spacing) -
            shareSum size spacing sample) := by
        rw [hvalue]
        ring
    _ < solveTimeSum size spacing sample * size :=
        mul_lt_mul_of_pos_left (by linarith) hpositive
    _ = size * solveTimeSum size spacing sample := mul_comm _ _

/-- At a steady pace and with equal targets only rounding moves the target. -/
theorem windowTarget_of_steady (hsize : 1 ≤ size) (hspacing : 1 ≤ spacing) {target : Target}
    (htargets : ∀ place ∈ Finset.Icc 1 size, (sample place).bits.target = target)
    (hsteady : ∀ place ∈ Finset.Icc 1 size, solveTimeAt spacing sample place = spacing) :
    (target.value : Int) - size * steadySum size spacing <
        (windowTarget size spacing sample).value ∧
      windowTarget size spacing sample ≤ target := by
  obtain ⟨hlow, hhigh⟩ := shareSum_of_common hsize hspacing htargets
  have hproduct : solveTimeSum size spacing sample * shareSum size spacing sample =
      shareSum size spacing sample * steadySum size spacing := by
    rw [solveTimeSum_of_steady hsteady, mul_comm]
  have hmaximum : target.value ≤ Target.maximum.value := Nat.le_pred_of_lt target.bounded
  have hvalue : ((windowTarget size spacing sample).value : Int) =
      shareSum size spacing sample * steadySum size spacing := by
    rw [windowTarget_eq_product hspacing (by omega), hproduct]
  rw [add_mul] at hhigh
  rw [Target.le_iff]
  omega

/-- What limits a window whose tally has come to these solve times and this target: how large the
solve times can be and how small, and how far the target lies from what it would be without
rounding. -/
structure Margins (size : Nat) (spacing : Int) (sample : Nat → BlockRecord) (solveTimes : Int)
    (target : Target) : Prop where
  nonneg : 0 ≤ solveTimes
  le_six : solveTimes ≤ 6 * steadySum size spacing
  le_of_early : (∀ place ≤ size, (sample place).time.toInt ≤ largest - size) →
    size * (size + 1) / 2 ≤ solveTimes
  stopped : solveTimes = 0 → (sample 0).time.toInt = largest
  le_exact : (target.value : ℚ) ≤
    targetSum size sample * solveTimes / (size * steadySum size spacing)
  le_six_means : (target.value : ℚ) ≤ 6 * (targetSum size sample / size)
  lost_lt : solveTimes * shareSum size spacing sample ≤ Target.maximum.value → solveTimes ≠ 0 →
    (targetSum size sample : ℚ) * solveTimes / (size * steadySum size spacing) - target.value <
      size * solveTimes
  steady : ∀ common : Target,
    (∀ place ∈ Finset.Icc 1 size, (sample place).bits.target = common) →
    (∀ place ∈ Finset.Icc 1 size, solveTimeAt spacing sample place = spacing) →
    (common.value : Int) - size * steadySum size spacing < target.value ∧ target ≤ common

theorem margins_windowTarget (hsize : 1 ≤ size) (hspacing : 1 ≤ spacing) (hfits : Fits size spacing)
    (sample : Nat → BlockRecord) :
    Margins size spacing sample (solveTimeSum size spacing sample)
      (windowTarget size spacing sample) where
  nonneg := solveTimeSum_nonneg hspacing size sample
  le_six := solveTimeSum_le hsize hspacing hfits sample
  le_of_early hearly := by
    have hsum := le_solveTimeSum_of_early hspacing hearly
    omega
  stopped hzero := by
    rw [← clockAt_zero, (solveTimeSum_eq_zero_iff hsize hspacing sample).mp hzero]
  le_exact := windowTarget_le_exact hsize hspacing sample
  le_six_means := windowTarget_le_six_means hsize hspacing hfits sample
  lost_lt := exact_sub_windowTarget_lt hsize hspacing
  steady _ := windowTarget_of_steady hsize hspacing

/-- **How far one window can move the target.** The tally of every full window ends without a fault,
with its weighted solve times and its target within the margins, and that is the target of every
chain on which the samples are found. -/
theorem ofSamples_within_margins (hsize : 1 ≤ size) (hspacing : 1 ≤ spacing)
    (hfits : Fits size spacing) (sample : Nat → BlockRecord) :
    ∃ tally : Tally,
      (windowOf size sample).tail.foldlM
          (Tally.add spacing size (steadySum size spacing).toNat) (Tally.start (sample 0)) =
        .ok tally ∧
      ofSamples size spacing (windowOf size sample) = .ok (some tally.target) ∧
      (∀ (store : ChainStore) (last : BlockRecord) (window : ProofWindow),
        (∀ place ≤ size, store.sampled? last window (size + 1 - place) = some (sample place)) →
        store.weightedTarget last window size spacing = .ok (some tally.target)) ∧
      Margins size spacing sample tally.solveTimes tally.target := by
  have haverage := ofSamples_windowOf hsize hspacing hfits sample
  refine ⟨tallyOf size spacing sample, foldlM_add_windowOf hspacing hfits sample, haverage, ?_, ?_⟩
  · intro store last window hfound
    rw [ChainStore.weightedTarget_of_samples hfound, haverage]
  · rw [solveTimes_tallyOf hsize hspacing hfits, target_tallyOf hsize hspacing hfits]
    exact margins_windowTarget hsize hspacing hfits sample

/-- Two blocks with early times after one from the far future, two seconds before the last: each
takes the one second that is left to it. -/
theorem ofSamples_within_margins_of_backward_times :
    let store := (ChainStore.ofGenesis (ChainStore.numbered 0 .work 0 0x1f00ffff)).run [
      .push (ChainStore.numbered 1 .work 0x7ffffffffffffffd 0x1c00ffff),
      .push (ChainStore.numbered 2 .work 0 0x1c00ffff),
      .push (ChainStore.numbered 3 .work (-5) 0x1c00ffff)]
    let sample := fun place => (store.blocksOfKind store.tip .work).getD (2 - place) store.genesis
    ∃ tally : Tally,
      (windowOf 2 sample).tail.foldlM (Tally.add 150 2 (steadySum 2 150).toNat)
          (Tally.start (sample 0)) = .ok tally ∧
      ofSamples 2 150 (windowOf 2 sample) = .ok (some tally.target) ∧
      store.weightedTarget store.tip (store.sampleWindow store.tip 3 .work) 2 150 =
        .ok (some tally.target) ∧
      Margins 2 150 sample tally.solveTimes tally.target ∧
      tally.solveTimes = 1 * 1 + 2 * 1 := by
  intro store sample
  have hfits : Fits 2 150 := by decide
  have hsum : solveTimeSum 2 150 sample = 1 * 1 + 2 * 1 := by decide +kernel
  have hfound : ∀ place ≤ 2, store.sampled? store.tip (store.sampleWindow store.tip 3 .work)
      (2 + 1 - place) = some (sample place) := by decide +kernel
  obtain ⟨tally, htally, htarget, haverage, hmargins⟩ :=
    ofSamples_within_margins (by decide) (by decide) hfits sample
  have heq : tallyOf 2 150 sample = tally :=
    Except.ok.inj ((foldlM_add_windowOf (by decide) hfits sample).symm.trans htally)
  refine ⟨tally, htally, htarget, haverage store store.tip _ hfound, hmargins, ?_⟩
  rw [← heq, solveTimes_tallyOf (by decide) (by decide) hfits, hsum]

/-- Blocks at the last second take no time. Their target is zero with nothing lost to rounding, and
nothing is not less than nothing. -/
theorem lost_not_lt_of_stopped_clock :
    let store := (ChainStore.ofGenesis (ChainStore.numbered 0 .work 0 0x1f00ffff)).run [
      .push (ChainStore.numbered 1 .work 0x7fffffffffffffff 0x1c00ffff),
      .push (ChainStore.numbered 2 .work 0x7fffffffffffffff 0x1c00ffff)]
    let sample := fun place => (store.blocksOfKind store.tip .work).getD (1 - place) store.genesis
    Fits 1 1 ∧ solveTimeSum 1 1 sample * shareSum 1 1 sample ≤ Target.maximum.value ∧
      ∃ target : Target, ofSamples 1 1 (windowOf 1 sample) = .ok (some target) ∧
        store.weightedTarget store.tip (store.sampleWindow store.tip 2 .work) 1 1 =
          .ok (some target) ∧
        ¬((targetSum 1 sample : ℚ) * solveTimeSum 1 1 sample / (1 * steadySum 1 1) - target.value <
          1 * solveTimeSum 1 1 sample) := by
  intro store sample
  have hfits : Fits 1 1 := by decide
  have hstopped : solveTimeSum 1 1 sample = 0 := by decide +kernel
  have hfound : ∀ place ≤ 1, store.sampled? store.tip (store.sampleWindow store.tip 2 .work)
      (1 + 1 - place) = some (sample place) := by decide +kernel
  have haverage := ofSamples_windowOf (by decide) (by decide) hfits sample
  refine ⟨hfits, by simp [hstopped], _, haverage,
    (ChainStore.weightedTarget_of_samples hfound 1).trans haverage, ?_⟩
  rw [target_tallyOf (by decide) (by decide) hfits, windowTarget, hstopped]
  simp [Target.saturate]

end HybridConsensus.WeightedAverage
