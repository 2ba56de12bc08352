import HybridConsensus.Proofs.ExponentialMove
import HybridConsensus.Proofs.LinearMove
import HybridConsensus.Proofs.SeriesRun

/-!
# How long a move runs

Block times come from whoever makes the blocks, and none may keep the others busy. A move counts at
most twenty spacings, nineteen more than the goal, and twice that is nineteen times the two spacings
that the divisor of the exponent has at least. Both are then counted in steps of the stake clock. If
the two spacings are shorter than one step, the divisor is zero and counts as one, but then
nineteen times as much is below nineteen steps. So an exponent is at most 38 in every case, and the
series of a move ends after a fixed number of terms.
-/

namespace HybridConsensus

open Signed64

/-- The quotient of what is at most nineteen times as much is below twenty times the quotient. -/
theorem div_le_of_le_nineteen_mul {excess weight granularity : Nat} (hgranularity : 0 < granularity)
    (hle : excess ≤ 19 * weight) : excess / granularity ≤ 38 * max (weight / granularity) 1 := by
  have hless : excess / granularity < 19 * (weight / granularity + 1) := by
    rw [Nat.div_lt_iff_lt_mul hgranularity]
    calc excess
        ≤ 19 * weight := hle
      _ < 19 * (granularity * (weight / granularity + 1)) :=
          Nat.mul_lt_mul_of_pos_left (Nat.lt_mul_div_succ weight hgranularity) (by decide)
      _ = 19 * (weight / granularity + 1) * granularity := by ring
  omega

namespace ExponentialAverage

variable {params : ConsensusParams} {kind : ProofKind} {height : Nat} {target : Target}
  {observed : Int}

/-- How often a step of the stake clock fits in twice the excess over the goal. -/
def excessAt (params : ConsensusParams) (height : Nat) (observed : Int) : Int :=
  let spacing := params.spacingAt height
  (2 * (countedSpacing observed spacing (spacing * 20) - spacing)).tdiv
    ((params.stakeTimeMaskAt height).toNat + 1)

/-- How often a step of the stake clock fits in one spacing more than a timespan holds. -/
def weightAt (params : ConsensusParams) (height : Nat) : Int :=
  (params.spanAt height).tdiv ((params.stakeTimeMaskAt height).toNat + 1)

theorem moved_eq_mulExp (hafter : params.qip9Height.toNat ≤ height) :
    moved target observed params height =
      target.mulExp (excessAt params height observed) (weightAt params height) :=
  moved_of_after hafter

theorem natAbs_excess_le {spacing : Int} (hspacing : 1 ≤ spacing) (observed : Int) :
    (2 * (countedSpacing observed spacing (spacing * 20) - spacing)).natAbs ≤
      38 * spacing.natAbs := by
  unfold countedSpacing
  split <;> omega

theorem two_mul_spacingAt_le_spanAt (h : params.Valid)
    (hafter : params.qip9Height.toNat ≤ height) :
    2 * params.spacingAt height ≤ params.spanAt height := by
  have hspacing := h.spacingAt_pos height
  have hinterval := h.one_le_interval_of_after hafter
  exact Int.mul_le_mul_of_nonneg_right (by omega) (by omega)

theorem natAbs_excessAt (params : ConsensusParams) (height : Nat) (observed : Int) :
    (excessAt params height observed).natAbs =
      (2 * (countedSpacing observed (params.spacingAt height) (params.spacingAt height * 20) -
        params.spacingAt height)).natAbs / ((params.stakeTimeMaskAt height).toNat + 1) :=
  Int.natAbs_tdiv _ _

theorem natAbs_weightAt (params : ConsensusParams) (height : Nat) :
    (weightAt params height).natAbs =
      (params.spanAt height).natAbs / ((params.stakeTimeMaskAt height).toNat + 1) :=
  Int.natAbs_tdiv _ _

theorem weightAt_nonneg (h : params.Valid) (height : Nat) : 0 ≤ weightAt params height := by
  have hspan := (h.spanAt_bounds height).1
  exact Int.tdiv_nonneg (by omega) (by omega)

theorem excessAt_le (h : params.Valid) (hafter : params.qip9Height.toNat ≤ height)
    (observed : Int) : |excessAt params height observed| ≤ 38 * max (weightAt params height) 1 := by
  have hspacing := h.spacingAt_pos height
  have hspan := two_mul_spacingAt_le_spanAt h hafter
  have hweight := weightAt_nonneg h height
  have hexcess := natAbs_excess_le hspacing observed
  have hquotient := div_le_of_le_nineteen_mul
    (Nat.succ_pos (params.stakeTimeMaskAt height).toNat)
    (Nat.le_trans hexcess (by omega : _ ≤ 19 * (params.spanAt height).natAbs))
  rw [Nat.succ_eq_add_one, ← natAbs_excessAt, ← natAbs_weightAt] at hquotient
  rw [Int.abs_eq_natAbs]
  omega

theorem steps_le_of_abs_le {p q : Int} (h : |p| ≤ 38 * max q 1) (target : Target) :
    target.steps p q ≤ 333 := by
  rw [Int.abs_eq_natAbs] at h
  have hlate : 2 * p.natAbs ≤ (max q 1).toNat * (76 + 1) := by omega
  exact Nat.le_trans (Target.steps_le_of_late hlate) (by decide)

/-- **Series end, and those of moves soon.** The term of an exponential is zero after at most 257
steps more than twice the exponent, rounded up. There its sum ends, with any fuel that reaches so
far. From the first switch height on, a block of a kind that is retargeted moves the target by an
exponential if the products fit, and by no other if it gets bits at all. Its exponent is at most 38
times its divisor, where a divisor below one counts as one, whatever the times of the blocks. So
whatever their bits are, the series of a move has no more than 333 steps. -/
theorem nextBits_runs_short :
    (∀ (target : Target) (p q : Int),
      let divisor := (max q 1).toNat
      let bound := ⌈2 * |(p : ℚ)| / max (q : ℚ) 1⌉₊ + 257
      (target.termAt p.natAbs divisor bound).value = 0 ∧ target.steps p q ≤ bound ∧
        ∀ fuel, target.steps p q ≤ fuel →
          Target.addTerms (p < 0) p.natAbs divisor fuel 0 target target = target.mulExp p q) ∧
    ∀ params : ConsensusParams, params.validate = .ok () → ∀ kind, params.isFixed kind = false →
      ∀ (last : BlockRecord) (earlierTime : Int64),
        params.qip9Height.toNat ≤ nextHeight last.height →
        let height := nextHeight last.height
        let p := excessAt params height (clamp (last.time.toInt - earlierTime.toInt))
        let q := weightAt params height
        let moved := (last.bits.target.mulExp p q).clampedBits (params.limitAt kind height)
        |p| ≤ 38 * max q 1 ∧ last.bits.target.steps p q ≤ 333 ∧
          (FitsAt params height → nextBits last earlierTime params kind = .ok moved) ∧
          ∀ bits, nextBits last earlierTime params kind = .ok bits → bits = moved := by
  constructor
  · intro target p q divisor bound
    have hsteps := target.steps_le_ceil p q
    refine ⟨Target.value_termAt_of_zero (target.value_termAt_steps p q) hsteps, hsteps, ?_⟩
    intro fuel hfuel
    rw [Target.mulExp_eq_sumAt]
    exact Target.addTerms_of_steps_le hfuel
  · intro params hparams kind hfixed last earlierTime hafter height p q moved
    rw [ConsensusParams.validate_eq_ok_iff] at hparams
    have hexponent := excessAt_le hparams hafter (clamp (last.time.toInt - earlierTime.toInt))
    refine ⟨hexponent, steps_le_of_abs_le hexponent _, fun hfits => ?_, fun bits hbits => ?_⟩
    · rw [nextBits_eq_ok hparams hfixed last earlierTime hfits, moved_eq_mulExp hafter]
    · rw [nextBits_of_eq_ok hparams hfixed hbits, moved_eq_mulExp hafter]

/-- A spacing one second shorter than a step of the stake clock, a timespan that holds one spacing,
and a block far behind the one before it. -/
theorem nextBits_runs_short_of_coarse_clock :
    let params := { ConsensusParams.main with
      spacing := 63, qip9Timespan := 63, stakeTimeMask := 63 }
    let last : BlockRecord := { ChainStore.numbered 10 .work 9000 0x1b00ffff with
      id := 10, height := 10, parent := some 9 }
    let p := excessAt params (nextHeight last.height) (clamp (last.time.toInt - Int64.toInt 1000))
    let q := weightAt params (nextHeight last.height)
    p = 37 ∧ q = 1 ∧ |p| ≤ 38 * max q 1 ∧ last.bits.target.steps p q ≤ 333 ∧
      nextBits last 1000 params .work =
        .ok ((last.bits.target.mulExp p q).clampedBits params.workLimit) := by
  intro params last p q
  have hvalid : params.validate = .ok () := by decide
  have hfits : FitsAt params (nextHeight last.height) := by
    unfold FitsAt
    decide
  obtain ⟨hexponent, hsteps, hbits, -⟩ :=
    nextBits_runs_short.2 params hvalid .work rfl last 1000 (by decide)
  exact ⟨by decide, by decide, hexponent, hsteps, hbits hfits⟩

end ExponentialAverage

end HybridConsensus
