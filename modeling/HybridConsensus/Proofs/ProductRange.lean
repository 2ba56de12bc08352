import HybridConsensus.Proofs.KindHistory
import HybridConsensus.Proofs.ValidParams
import Mathlib.Tactic.Linarith
import Mathlib.Tactic.Ring

/-!
# Products that fit

A retarget multiplies spacings, counts and times as signed 64-bit numbers, and a product that does
not fit ends it. The times of blocks can be any, but each rule caps them by a number of spacings
before it multiplies, so whether the products fit is up to the parameters alone. The bounds here are
the largest values that some times lead to.
-/

namespace HybridConsensus

namespace Signed64

theorem inRange_of_neg_le {value : Int} (hlow : -largest ≤ value) (hhigh : value ≤ largest) :
    InRange value :=
  ⟨Int.le_trans (by decide) hlow, hhigh⟩

theorem divide_eq_ok {value divisor : Int} (hvalue : InRange value) (hdivisor : 1 ≤ divisor) :
    divide value divisor = .ok (value.tdiv divisor) := by
  have hzero : divisor ≠ 0 := by omega
  have hshrinks := Int.natAbs_tdiv_le_natAbs value divisor
  unfold divide
  rw [if_neg hzero]
  apply check_eq_ok
  rcases Int.le_total 0 value with hsign | hsign
  · have hquotient := Int.tdiv_nonneg hsign (by omega : 0 ≤ divisor)
    simp only [InRange, smallest, largest] at *
    omega
  · have hquotient := Int.tdiv_nonneg (by omega : 0 ≤ -value) (by omega : 0 ≤ divisor)
    rw [Int.neg_tdiv] at hquotient
    simp only [InRange, smallest, largest] at *
    omega

end Signed64

open Signed64

namespace ExponentialAverage

/-- The products of one move at `height` fit, with the longest spacing that counts. -/
def FitsAt (params : ConsensusParams) (height : Nat) : Prop :=
  let spacing := params.spacingAt height
  let interval := (params.timespanAt height).tdiv spacing
  if height < params.qip9Height.toNat then
    20 * spacing ≤ largest ∧ (interval + 19) * spacing ≤ largest
  else 38 * spacing ≤ largest ∧ (interval + 1) * spacing ≤ largest

variable {observed spacing interval granularity : Int}

def blended (target : Target) (observed spacing interval : Int) : Target :=
  (target.mul (max ((interval - 1) * spacing + 2 * observed) 0).toNat).div
    ((interval + 1) * spacing).toNat

theorem value_blended (target : Target) (observed spacing interval : Int) :
    (blended target observed spacing interval).value =
      min (target.value * (max ((interval - 1) * spacing + 2 * observed) 0).toNat)
        ((1 <<< 256) - 1) / ((interval + 1) * spacing).toNat :=
  rfl

theorem blend_eq_ok (target : Target) (hspacing : 1 ≤ spacing) (hinterval : 0 ≤ interval)
    (hobserved : 0 ≤ observed) (hcapped : observed ≤ 10 * spacing)
    (hdouble : 20 * spacing ≤ largest) (hsum : (interval + 19) * spacing ≤ largest) :
    blend target observed spacing interval = .ok (blended target observed spacing interval) := by
  have hspan : interval ≤ interval * spacing := le_mul_of_one_le_right hinterval hspacing
  have hpast : (interval - 1) * spacing = interval * spacing - spacing := by ring
  have hlonger : (interval + 1) * spacing = interval * spacing + spacing := by ring
  have hlongest : (interval + 19) * spacing = interval * spacing + 19 * spacing := by ring
  rw [hlongest] at hsum
  have holderFits : InRange (interval - 1) := inRange_of_neg_le (by omega) (by omega)
  have hpastFits : InRange ((interval - 1) * spacing) := inRange_of_neg_le (by omega) (by omega)
  have hsumFits : InRange ((interval - 1) * spacing + 2 * observed) :=
    inRange_of_neg_le (by omega) (by omega)
  have hone : max ((interval + 1) * spacing) 1 = (interval + 1) * spacing := by
    rw [hlonger]
    omega
  unfold blend
  simp only [check_eq_ok holderFits, check_eq_ok hpastFits, check_eq_ok hsumFits, bind, Except.bind,
    check_of_nonneg (by omega : 0 ≤ 2 * observed) (by omega),
    check_of_nonneg (by omega : 0 ≤ interval + 1) (by omega),
    check_of_nonneg (by omega : 0 ≤ (interval + 1) * spacing) (by omega), hone]
  rfl

theorem linearTarget_eq_ok (target : Target) (hspacing : 1 ≤ spacing) (hinterval : 0 ≤ interval)
    (hobserved : 0 ≤ observed) (hdouble : 20 * spacing ≤ largest)
    (hsum : (interval + 19) * spacing ≤ largest) :
    linearTarget target observed spacing interval =
      .ok (blended target (min observed (spacing * 10)) spacing interval) := by
  have hcap : check (spacing * 10) = .ok (spacing * 10) := check_of_nonneg (by omega) (by omega)
  unfold linearTarget
  simp only [hcap, bind, Except.bind]
  exact blend_eq_ok target hspacing hinterval (by omega) (by omega) hdouble hsum

theorem step_eq_ok (previous : BlockRecord) (earlierTime : Int64) (limit : Target)
    (hspacing : 1 ≤ spacing) (hdouble : 20 * spacing ≤ largest) :
    let observed := clamp (previous.time.toInt - earlierTime.toInt)
    step previous earlierTime spacing limit =
      .ok ((blended previous.bits.target (min (if observed < 0 then 1 else observed) (spacing * 10))
        spacing 1).clampedBits limit) := by
  intro observed
  have hcap : check (spacing * 10) = .ok (spacing * 10) := check_of_nonneg (by omega) (by omega)
  have hpositive : 0 ≤ min (if observed < 0 then 1 else observed) (spacing * 10) := by
    split <;> omega
  have hcapped : min (if observed < 0 then 1 else observed) (spacing * 10) ≤ 10 * spacing := by
    omega
  have hone : (0 : Int) ≤ 1 := by decide
  unfold step
  simp only [hcap, bind, Except.bind]
  rw [blend_eq_ok previous.bits.target hspacing hone hpositive hcapped hdouble (by omega)]
  rfl

theorem exponentialTarget_eq_ok (target : Target) (hspacing : 1 ≤ spacing)
    (hinterval : 0 ≤ interval) (hgranularity : 1 ≤ granularity) (hobserved : 0 ≤ observed)
    (hdouble : 38 * spacing ≤ largest) (hspan : (interval + 1) * spacing ≤ largest) :
    exponentialTarget target observed spacing interval granularity =
      .ok (target.mulExp ((2 * (min observed (spacing * 20) - spacing)).tdiv granularity)
        (((interval + 1) * spacing).tdiv granularity)) := by
  have hlonger : interval + 1 ≤ (interval + 1) * spacing :=
    le_mul_of_one_le_right (by omega) hspacing
  have hcap : check (spacing * 20) = .ok (spacing * 20) := check_of_nonneg (by omega) (by omega)
  have hexcess : InRange (min observed (spacing * 20) - spacing) :=
    inRange_of_neg_le (by omega) (by omega)
  have hdoubled : InRange (2 * (min observed (spacing * 20) - spacing)) :=
    inRange_of_neg_le (by omega) (by omega)
  have hweight : InRange ((interval + 1) * spacing) := inRange_of_neg_le (by omega) hspan
  unfold exponentialTarget
  simp only [hcap, bind, Except.bind, check_eq_ok hexcess, check_eq_ok hdoubled,
    divide_eq_ok hdoubled hgranularity, check_of_nonneg (by omega : 0 ≤ interval + 1) (by omega),
    check_eq_ok hweight, divide_eq_ok hweight hgranularity]
  rfl

theorem spacingAt_inRange (params : ConsensusParams) (height : Nat) :
    InRange (params.spacingAt height) := by
  unfold ConsensusParams.spacingAt
  split <;> exact toInt_inRange _

theorem timespanAt_inRange (params : ConsensusParams) (height : Nat) :
    InRange (params.timespanAt height) := by
  unfold ConsensusParams.timespanAt
  split
  · exact toInt_inRange _
  split <;> exact toInt_inRange _

theorem intervalAt_eq_ok {params : ConsensusParams} (h : params.Valid) (height : Nat) :
    params.intervalAt height = .ok ((params.timespanAt height).tdiv (params.spacingAt height)) :=
  divide_eq_ok (timespanAt_inRange params height) (h.spacingAt_pos height)

/-- The spacing that a move counts: never more than `longest`, and `instead` if the later block has
the earlier time. -/
def countedSpacing (observed instead longest : Int) : Int :=
  min (if observed < 0 then instead else observed) longest

theorem countedSpacing_nonneg {instead longest : Int} (hinstead : 0 ≤ instead)
    (hlongest : 0 ≤ longest) : 0 ≤ countedSpacing observed instead longest := by
  unfold countedSpacing
  split <;> omega

/-- The target that a move leads to, before the limit. -/
def moved (target : Target) (observed : Int) (params : ConsensusParams) (height : Nat) : Target :=
  let spacing := params.spacingAt height
  let interval := (params.timespanAt height).tdiv spacing
  let granularity : Int := (params.stakeTimeMaskAt height).toNat + 1
  let forward := if observed < 0 then spacing else observed
  if height < params.qip9Height.toNat then
    blended target (min forward (spacing * 10)) spacing interval
  else
    target.mulExp ((2 * (min forward (spacing * 20) - spacing)).tdiv granularity)
      (((interval + 1) * spacing).tdiv granularity)

theorem nextBits_eq_ok {params : ConsensusParams} (h : params.Valid) {kind : ProofKind}
    (hfixed : params.isFixed kind = false) (last : BlockRecord) (earlierTime : Int64)
    (hfits : FitsAt params (nextHeight last.height)) :
    nextBits last earlierTime params kind =
      .ok ((moved last.bits.target (clamp (last.time.toInt - earlierTime.toInt)) params
        (nextHeight last.height)).clampedBits (params.limitAt kind (nextHeight last.height))) := by
  have hspacing := h.spacingAt_pos (nextHeight last.height)
  have hinterval := h.interval_nonneg (nextHeight last.height)
  unfold nextBits moved
  simp only [hfixed, Bool.false_eq_true, ↓reduceIte, intervalAt_eq_ok h, bind, Except.bind]
  unfold FitsAt at hfits
  generalize clamp (last.time.toInt - earlierTime.toInt) = observed
  generalize nextHeight last.height = height at *
  have hforward : 0 ≤ if observed < 0 then params.spacingAt height else observed := by
    split <;> omega
  simp only at hfits
  split
  case isTrue hbefore =>
    rw [if_pos hbefore] at hfits
    rw [linearTarget_eq_ok last.bits.target hspacing hinterval hforward hfits.1 hfits.2]
    rfl
  case isFalse hafter =>
    rw [if_neg hafter] at hfits
    rw [exponentialTarget_eq_ok last.bits.target hspacing hinterval (by omega) hforward hfits.1
      hfits.2]
    rfl

end ExponentialAverage

end HybridConsensus
