import HybridConsensus.Proofs.ScheduledLimit

/-!
# Which way a linear move goes

Below the first switch height a move multiplies the target by the spacings of an interval, two of
them replaced by twice the observed spacing, and divides by one spacing more than an interval holds.
If the observed spacing is not below the goal, the factor is not below the divisor. But the product
stops at the largest target, and the quotient is of what is left of it. So the target is kept just
if it fits when multiplied by the divisor: always below a moderate limit, not below every limit.
-/

namespace HybridConsensus

open Signed64

/-- One spacing more than a timespan holds, in seconds. -/
def ConsensusParams.spanAt (params : ConsensusParams) (height : Nat) : Int :=
  ((params.timespanAt height).tdiv (params.spacingAt height) + 1) * params.spacingAt height

theorem ConsensusParams.Valid.spanAt_bounds {params : ConsensusParams} (h : params.Valid)
    (height : Nat) : 1 ≤ params.spanAt height ∧ params.spanAt height ≤ 2 * largest := by
  have hspacing := h.spacingAt_pos height
  have hwhole : 0 ≤ (params.timespanAt height).tdiv (params.spacingAt height) *
      params.spacingAt height :=
    Int.mul_nonneg (h.interval_nonneg height) (by omega)
  have htimespan := h.interval_mul_spacing_le height
  have hspacingRange := (ExponentialAverage.spacingAt_inRange params height).2
  have htimespanRange := (ExponentialAverage.timespanAt_inRange params height).2
  unfold spanAt
  rw [Int.add_mul, Int.one_mul]
  omega

namespace ExponentialAverage

variable {params : ConsensusParams} {kind : ProofKind} {height : Nat} {target : Target}
  {observed spacing interval : Int}

theorem moved_of_before (hbefore : height < params.qip9Height.toNat) :
    moved target observed params height =
      let spacing := params.spacingAt height
      blended target (countedSpacing observed spacing (spacing * 10)) spacing
        ((params.timespanAt height).tdiv spacing) :=
  if_pos hbefore

/-! ### What the product loses -/

theorem span_le_factor (interval : Int) (hslow : spacing ≤ observed) :
    ((interval + 1) * spacing).toNat ≤ (max ((interval - 1) * spacing + 2 * observed) 0).toNat := by
  have hfactor : (interval + 1) * spacing ≤ (interval - 1) * spacing + 2 * observed := by
    linarith
  omega

/-- A quotient is not below the target just if the product with the divisor alone would fit. -/
theorem le_blended_iff (hspan : 1 ≤ (interval + 1) * spacing) (hslow : spacing ≤ observed) :
    target ≤ blended target observed spacing interval ↔
      target.value * ((interval + 1) * spacing).toNat < 1 <<< 256 := by
  have hproduct := Nat.mul_le_mul_left target.value (span_le_factor interval hslow)
  rw [Target.le_iff, value_blended, Nat.le_div_iff_mul_le (by omega)]
  omega

theorem blended_ne_zero (hpositive : target.value ≠ 0) (hspan : 1 ≤ (interval + 1) * spacing)
    (hhigh : (interval + 1) * spacing ≤ 2 * largest) (hslow : spacing ≤ observed) :
    (blended target observed spacing interval).value ≠ 0 := by
  have hfactor := span_le_factor interval hslow
  have hproduct := Nat.le_mul_of_pos_left
    (max ((interval - 1) * spacing + 2 * observed) 0).toNat (Nat.pos_of_ne_zero hpositive)
  rw [value_blended, Ne, Nat.div_eq_zero_iff]
  simp only [largest] at hhigh
  omega

/-! ### The bits -/

/-- **When a slow block keeps the target.** Below the first switch height, a block of a kind that is
retargeted gets bits if the products fit. If it was no faster than the goal, its target is not below
that of the block before exactly if that target, multiplied by one spacing more than a timespan
holds, is below `2 ^ 256`. So it never is on top of a limit for which that is true. -/
theorem nextBits_keeps_target_iff (hparams : params.validate = .ok ())
    (hfixed : params.isFixed kind = false) (last : BlockRecord) (earlierTime : Int64)
    (hbefore : nextHeight last.height < params.qip9Height.toNat)
    (hvalid : last.bits.decode.isValid = true)
    (hlimit : last.bits.target ≤ params.limitAt kind (nextHeight last.height))
    (hslow : params.spacingAt (nextHeight last.height) ≤
      last.time.toInt - earlierTime.toInt) :
    let span := (params.spanAt (nextHeight last.height)).toNat
    (FitsAt params (nextHeight last.height) →
      ∃ bits, nextBits last earlierTime params kind = .ok bits) ∧
    ∀ bits, nextBits last earlierTime params kind = .ok bits →
      (last.bits.target ≤ bits.target ↔ last.bits.target.value * span < 1 <<< 256) ∧
      ((params.limitAt kind (nextHeight last.height)).value * span < 1 <<< 256 →
        last.bits.target ≤ bits.target) := by
  intro span
  rw [ConsensusParams.validate_eq_ok_iff] at hparams
  refine ⟨fun hfits => ⟨_, nextBits_eq_ok hparams hfixed last earlierTime hfits⟩, ?_⟩
  intro bits hbits
  have hspacing := hparams.spacingAt_pos (nextHeight last.height)
  have hspacingRange := (spacingAt_inRange params (nextHeight last.height)).2
  have hcounted : params.spacingAt (nextHeight last.height) ≤
      countedSpacing (clamp (last.time.toInt - earlierTime.toInt))
        (params.spacingAt (nextHeight last.height))
        (params.spacingAt (nextHeight last.height) * 10) := by
    simp only [countedSpacing, clamp, smallest, largest] at *
    omega
  obtain ⟨hspan, hhigh⟩ := hparams.spanAt_bounds (nextHeight last.height)
  have hnonzero :=
    blended_ne_zero (CompactBits.target_ne_zero_of_isValid hvalid) hspan hhigh hcounted
  have hkept : last.bits.target ≤ bits.target ↔ last.bits.target.value * span < 1 <<< 256 := by
    rw [nextBits_of_eq_ok hparams hfixed hbits, moved_of_before hbefore,
      Target.le_target_clampedBits_iff hnonzero hlimit]
    exact le_blended_iff hspan hcounted
  exact ⟨hkept, fun hroom => hkept.mpr (Nat.lt_of_le_of_lt (Nat.mul_le_mul_right _ hlimit) hroom)⟩

/-- A target as far below a limit of half of all targets as the product needs. -/
theorem nextBits_keeps_target_iff_of_low_target :
    let params := { ConsensusParams.regtest with workIsFixed := false, qip9Height := 1000 }
    let last : BlockRecord := { ChainStore.numbered 10 .work 1150 0x1f1fffff with
      id := 10, height := 10, parent := some 9 }
    ∃ bits, nextBits last 1000 params .work = .ok bits ∧ last.bits.target ≤ bits.target := by
  intro params last
  have hvalid : params.validate = .ok () := by decide
  have hlast : last.bits.decode.isValid = true ∧
      last.bits.target ≤ params.limitAt .work (nextHeight last.height) := by decide +kernel
  have hfits : FitsAt params (nextHeight last.height) := by
    unfold FitsAt
    decide
  have hroom : last.bits.target.value * (params.spanAt (nextHeight last.height)).toNat <
      1 <<< 256 := by
    decide +kernel
  obtain ⟨hsome, hkept⟩ :=
    nextBits_keeps_target_iff hvalid rfl last 1000 (by decide) hlast.1 hlast.2 (by decide)
  obtain ⟨bits, hbits⟩ := hsome hfits
  exact ⟨bits, hbits, (hkept bits hbits).1.mpr hroom⟩

/-- A block exactly one spacing after the one before it, at that limit, is followed by a target that
is more than five hundred times as hard. -/
theorem nextBits_loses_target_of_high_limit :
    let params := { ConsensusParams.regtest with workIsFixed := false, qip9Height := 1000 }
    let last : BlockRecord := { ChainStore.numbered 10 .work 1150 0x207fffff with
      id := 10, height := 10, parent := some 9 }
    params.validate = .ok () ∧ params.isFixed .work = false ∧
      nextHeight last.height < params.qip9Height.toNat ∧ last.bits.decode.isValid = true ∧
      last.bits.target ≤ params.limitAt .work (nextHeight last.height) ∧
      params.spacingAt (nextHeight last.height) ≤ last.time.toInt - Int64.toInt 1000 ∧
      nextBits last 1000 params .work = .ok 0x1f3e6a4d ∧
      500 * (CompactBits.target 0x1f3e6a4d).value < last.bits.target.value := by
  intro params last
  exact ⟨by decide, rfl, by decide, by decide +kernel, by decide +kernel, by decide,
    by decide +kernel, by decide +kernel⟩

end ExponentialAverage

end HybridConsensus
