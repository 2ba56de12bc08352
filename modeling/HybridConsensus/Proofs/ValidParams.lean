import HybridConsensus.Params.Schedule
import Mathlib.Tactic.Common

/-!
# What a check of the parameters promises

`validate` stops at the first reason against the parameters. What passes it has a window, spacings
and timespans of at least one, and no limit that is zero.
-/

namespace HybridConsensus

theorem ite_error_eq_ok_iff {ε α : Type} {condition : Prop} [Decidable condition] {error : ε}
    {rest : Except ε α} {value : α} :
    (if condition then .error error else rest) = .ok value ↔ ¬ condition ∧ rest = .ok value := by
  split <;> simp_all

namespace ConsensusParams

structure Valid (params : ConsensusParams) : Prop where
  window : 1 ≤ params.averagingWindow.toInt
  spacing : 1 ≤ params.spacing.toInt
  fastSpacing : 1 ≤ params.fastSpacing.toInt
  timespan : params.spacing.toInt ≤ params.timespan.toInt
  qip9Timespan : params.spacing.toInt ≤ params.qip9Timespan.toInt
  fastTimespan : params.fastSpacing.toInt ≤ params.fastTimespan.toInt
  seedInterval : params.seedInterval ≠ 0
  workLimit : params.workLimit.value ≠ 0
  stakeLimit : params.stakeLimit.value ≠ 0
  qip9StakeLimit : params.qip9StakeLimit.value ≠ 0
  fastStakeLimit : params.fastStakeLimit.value ≠ 0

variable {params : ConsensusParams}

theorem validate_eq (params : ConsensusParams) :
    params.validate =
      if params.averagingWindow.toInt < 1 then .error .emptyWindow
      else if params.spacing.toInt < 1 ∨ params.fastSpacing.toInt < 1 then .error .emptySpacing
      else if params.timespan.toInt < params.spacing.toInt ∨
          params.qip9Timespan.toInt < params.spacing.toInt ∨
          params.fastTimespan.toInt < params.fastSpacing.toInt then .error .shortTimespan
      else if params.seedInterval = 0 then .error .emptySeedInterval
      else if params.workLimit.isZero ∨ params.stakeLimit.isZero ∨ params.qip9StakeLimit.isZero ∨
          params.fastStakeLimit.isZero then .error .zeroLimit
      else .ok () := by
  unfold validate
  refine ite_congr rfl (fun _ => rfl) fun _ => ?_
  refine ite_congr rfl (fun _ => rfl) fun _ => ?_
  refine ite_congr rfl (fun _ => rfl) fun _ => ?_
  exact ite_congr rfl (fun _ => rfl) fun _ => rfl

theorem validate_eq_ok_iff : params.validate = .ok () ↔ params.Valid := by
  rw [validate_eq]
  simp only [ite_error_eq_ok_iff, Target.isZero_iff, not_or, Int.not_lt, and_true]
  constructor
  · rintro ⟨hwindow, ⟨hspacing, hfast⟩, ⟨htimespan, hqip9, hlast⟩, hseed, hwork, hstake, hsecond,
      hthird⟩
    exact ⟨hwindow, hspacing, hfast, htimespan, hqip9, hlast, hseed, hwork, hstake, hsecond, hthird⟩
  · intro h
    exact ⟨h.window, ⟨h.spacing, h.fastSpacing⟩, ⟨h.timespan, h.qip9Timespan, h.fastTimespan⟩,
      h.seedInterval, h.workLimit, h.stakeLimit, h.qip9StakeLimit, h.fastStakeLimit⟩

/-! ### Along the heights -/

theorem Valid.spacingAt_pos (h : params.Valid) (height : Nat) : 1 ≤ params.spacingAt height := by
  unfold spacingAt
  split
  · exact h.spacing
  · exact h.fastSpacing

theorem Valid.timespanAt_pos (h : params.Valid) (height : Nat) : 1 ≤ params.timespanAt height := by
  have hspacing := h.spacing
  have hfast := h.fastSpacing
  unfold timespanAt
  split
  · exact Int.le_trans hspacing h.timespan
  split
  · exact Int.le_trans hspacing h.qip9Timespan
  · exact Int.le_trans hfast h.fastTimespan

theorem Valid.interval_nonneg (h : params.Valid) (height : Nat) :
    0 ≤ (params.timespanAt height).tdiv (params.spacingAt height) :=
  Int.tdiv_nonneg (Int.le_of_lt (h.timespanAt_pos height)) (Int.le_of_lt (h.spacingAt_pos height))

theorem Valid.interval_mul_spacing_le (h : params.Valid) (height : Nat) :
    (params.timespanAt height).tdiv (params.spacingAt height) * params.spacingAt height ≤
      params.timespanAt height := by
  have hspacing := h.spacingAt_pos height
  rw [Int.tdiv_eq_ediv_of_nonneg (Int.le_of_lt (h.timespanAt_pos height))]
  exact Int.ediv_mul_le _ (by omega)

theorem Valid.limit_ne_zero (h : params.Valid) (kind : ProofKind) :
    (params.limit kind).value ≠ 0 := by
  cases kind with
  | work => exact h.workLimit
  | stake => exact h.stakeLimit

theorem Valid.limitAt_ne_zero (h : params.Valid) (kind : ProofKind) (height : Nat) :
    (params.limitAt kind height).value ≠ 0 := by
  cases kind with
  | work => exact h.workLimit
  | stake =>
    unfold limitAt
    simp only
    split
    · exact h.stakeLimit
    split
    · exact h.qip9StakeLimit
    · exact h.fastStakeLimit

end ConsensusParams

end HybridConsensus
