import HybridConsensus.Proofs.IntervalSchedule
import HybridConsensus.Proofs.ScheduledLimit
import HybridConsensus.Proofs.SeriesBounds

/-!
# Which way an exponential move goes

From the first switch height on, the exponent of a move is twice the excess of the spacing over the
goal, divided by one spacing more than a timespan holds. Blocks that come together miss the goal by
one spacing, and a timespan holds at least one, so no exponent is below minus one. That is what
keeps the series from taking more away than there is. Both parts are first counted in steps of the
stake clock, which rounds them toward zero, and so turns around neither their order nor the sign of
the excess. What the series leaves of a target is about a third, and what bits leave of that is more
than a quarter.
-/

namespace HybridConsensus

open Signed64

/-- No timespan is paired with a spacing of another era once the first era is over. -/
theorem ConsensusParams.Valid.one_le_interval_of_after {params : ConsensusParams}
    (h : params.Valid) {height : Nat} (hafter : params.qip9Height.toNat ≤ height) :
    1 ≤ (params.timespanAt height).tdiv (params.spacingAt height) := by
  rw [h.one_le_interval_iff, h.spacingAt_le_timespanAt_iff]
  intro _ hbefore
  omega

namespace ExponentialAverage

variable {params : ConsensusParams} {kind : ProofKind} {height : Nat} {target limit : Target}
  {counted spacing interval granularity : Int}

/-! ### The exponent -/

theorem exponent_nonneg (hgranularity : 0 ≤ granularity) (hslow : spacing ≤ counted) :
    0 ≤ (2 * (counted - spacing)).tdiv granularity :=
  Int.tdiv_nonneg (by omega) hgranularity

theorem exponent_eq_neg (counted spacing granularity : Int) :
    (2 * (counted - spacing)).tdiv granularity =
      -(2 * (spacing - counted)).tdiv granularity := by
  rw [← Int.neg_tdiv, ← Int.mul_neg, Int.neg_sub]

theorem exponent_nonpos (hgranularity : 0 ≤ granularity) (hfast : counted ≤ spacing) :
    (2 * (counted - spacing)).tdiv granularity ≤ 0 := by
  have hshort : 0 ≤ (2 * (spacing - counted)).tdiv granularity :=
    Int.tdiv_nonneg (by omega) hgranularity
  rw [exponent_eq_neg]
  omega

theorem neg_exponent_le (hgranularity : 0 < granularity) (hcounted : 0 ≤ counted)
    (hspacing : 0 ≤ spacing) (hinterval : 1 ≤ interval) :
    -(2 * (counted - spacing)).tdiv granularity ≤
      ((interval + 1) * spacing).tdiv granularity := by
  have htwice : 2 * (spacing - counted) ≤ (interval + 1) * spacing := by
    calc 2 * (spacing - counted)
        ≤ 2 * spacing := by omega
      _ ≤ (interval + 1) * spacing := Int.mul_le_mul_of_nonneg_right (by omega) hspacing
  rw [exponent_eq_neg, Int.neg_neg]
  exact Int.tdiv_le_tdiv hgranularity htwice

/-! ### The target -/

theorem moved_of_after {observed : Int} (hafter : params.qip9Height.toNat ≤ height) :
    moved target observed params height =
      let spacing := params.spacingAt height
      let granularity : Int := (params.stakeTimeMaskAt height).toNat + 1
      target.mulExp
        ((2 * (countedSpacing observed spacing (spacing * 20) - spacing)).tdiv granularity)
        ((((params.timespanAt height).tdiv spacing + 1) * spacing).tdiv granularity) :=
  if_neg (Nat.not_lt_of_le hafter)

theorem le_moved_of_slow (hafter : params.qip9Height.toNat ≤ height) {observed : Int}
    (hslow : params.spacingAt height ≤
      countedSpacing observed (params.spacingAt height) (params.spacingAt height * 20)) :
    target ≤ moved target observed params height := by
  rw [moved_of_after hafter]
  exact Target.le_mulExp (exponent_nonneg (by omega) hslow) _ _

theorem moved_bounds_of_fast (h : params.Valid) (hafter : params.qip9Height.toNat ≤ height)
    {observed : Int}
    (hfast : countedSpacing observed (params.spacingAt height) (params.spacingAt height * 20) ≤
      params.spacingAt height) :
    moved target observed params height ≤ target ∧
      target.value ≤ 3 * (moved target observed params height).value + 1 := by
  have hspacing := h.spacingAt_pos height
  have hcounted : 0 ≤ countedSpacing observed (params.spacingAt height)
      (params.spacingAt height * 20) :=
    countedSpacing_nonneg (by omega) (by omega)
  have hexponent := neg_exponent_le
    (by omega : 0 < ((params.stakeTimeMaskAt height).toNat + 1 : Int)) hcounted
    (Int.le_of_lt hspacing) (h.one_le_interval_of_after hafter)
  rw [moved_of_after hafter]
  exact Target.mulExp_bounds_of_falling (exponent_nonpos (by omega) hfast)
    (Int.le_trans hexponent (Int.le_max_left _ _)) target

/-! ### The bits -/

theorem bits_of_fast {moved : Target} (hle : moved ≤ target)
    (hthird : target.value ≤ 3 * moved.value + 1) (hlimit : target ≤ limit)
    (htwo : 2 ≤ target.value) :
    (moved.clampedBits limit).target.value ≠ 0 ∧ (moved.clampedBits limit).target ≤ target ∧
      target.value ≤ 4 * (moved.clampedBits limit).target.value := by
  have hnonzero : moved.value ≠ 0 := by omega
  have hkept := moved.value_mul_le_toCompact
  rw [Target.clampedBits_of_le hnonzero (Nat.le_trans hle hlimit)]
  exact ⟨Target.value_target_toCompact_ne_zero hnonzero,
    Nat.le_trans moved.target_toCompact_le hle, by omega⟩

/-- **Direction and strength of an exponential move.** From the first switch height on, a block of a
kind that is retargeted gets bits if the products fit. If it was no faster than the goal, its target
is not below that of the block before. If it was no slower and that target is at least two, its own
is not zero, not above that one and not below a quarter of it. That holds with a product that stops
at the largest target too. -/
theorem nextBits_follows_spacing (hparams : params.validate = .ok ())
    (hfixed : params.isFixed kind = false) (last : BlockRecord) (earlierTime : Int64)
    (hafter : params.qip9Height.toNat ≤ nextHeight last.height)
    (hvalid : last.bits.decode.isValid = true)
    (hlimit : last.bits.target ≤ params.limitAt kind (nextHeight last.height)) :
    let spacing := params.spacingAt (nextHeight last.height)
    let observed := clamp (last.time.toInt - earlierTime.toInt)
    let counted := countedSpacing observed spacing (spacing * 20)
    (FitsAt params (nextHeight last.height) →
      ∃ bits, nextBits last earlierTime params kind = .ok bits) ∧
    ∀ bits, nextBits last earlierTime params kind = .ok bits →
      (spacing ≤ counted → last.bits.target ≤ bits.target) ∧
      (counted ≤ spacing → 2 ≤ last.bits.target.value →
        bits.target.value ≠ 0 ∧ bits.target ≤ last.bits.target ∧
          last.bits.target.value ≤ 4 * bits.target.value) := by
  intro spacing observed counted
  rw [ConsensusParams.validate_eq_ok_iff] at hparams
  have hpositive : last.bits.target.value ≠ 0 := CompactBits.target_ne_zero_of_isValid hvalid
  refine ⟨fun hfits => ⟨_, nextBits_eq_ok hparams hfixed last earlierTime hfits⟩, ?_⟩
  intro bits hbits
  rw [nextBits_of_eq_ok hparams hfixed hbits]
  constructor
  · intro hslow
    have hmoved : last.bits.target.value ≤ (moved last.bits.target
        (clamp (last.time.toInt - earlierTime.toInt)) params (nextHeight last.height)).value :=
      le_moved_of_slow hafter hslow
    exact (Target.le_target_clampedBits_iff (by omega) hlimit).mpr hmoved
  · intro hfast htwo
    obtain ⟨hle, hthird⟩ := moved_bounds_of_fast hparams hafter hfast
    exact bits_of_fast hle hthird hlimit htwo

/-- Two blocks of one time and a timespan of one spacing, which is an exponent of minus one. The
product for the first term is above the largest target. -/
theorem nextBits_follows_spacing_of_large_product :
    let params := { ConsensusParams.regtest with workIsFixed := false, qip9Timespan := 150 }
    let last : BlockRecord := { ChainStore.numbered 10 .work 1000 0x207fffff with
      id := 10, height := 10, parent := some 9 }
    last.bits.target.mul (2 * 150 / 16) = .maximum ∧
      ∃ bits, nextBits last 1000 params .work = .ok bits ∧ bits.target.value ≠ 0 ∧
        bits.target ≤ last.bits.target ∧ last.bits.target.value ≤ 4 * bits.target.value := by
  intro params last
  have hvalid : params.validate = .ok () := by decide
  have hlast : last.bits.decode.isValid = true ∧
      last.bits.target ≤ params.limitAt .work (nextHeight last.height) := by decide +kernel
  have hfits : FitsAt params (nextHeight last.height) := by
    unfold FitsAt
    decide
  obtain ⟨hsome, hbounds⟩ :=
    nextBits_follows_spacing hvalid rfl last 1000 (by decide) hlast.1 hlast.2
  obtain ⟨bits, hbits⟩ := hsome hfits
  exact ⟨by decide +kernel, bits, hbits,
    (hbounds bits hbits).2 (by decide) (by decide +kernel)⟩

end ExponentialAverage

end HybridConsensus
