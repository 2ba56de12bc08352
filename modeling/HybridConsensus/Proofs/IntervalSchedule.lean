import HybridConsensus.Proofs.ProductRange

/-!
# Spacing and timespan at one height

The spacing changes at one of the switch heights and the timespan at both, and the check of the
parameters compares the spacing and the timespan of each era. If the eras follow in order, no other
two meet. If the fast era begins before the first one ends, the first timespan holds on beside the
fast spacing, and nothing has compared the two. Everywhere else a timespan holds at least one
spacing, so that the interval between two adjustments is at least one block.
-/

namespace HybridConsensus.ConsensusParams

variable {params : ConsensusParams}

/-- Where the fast spacing meets the first timespan, it has to fit in. -/
def PairFits (params : ConsensusParams) (height : Nat) : Prop :=
  params.fastHeight.toNat ≤ height → height < params.qip9Height.toNat →
    params.fastSpacing.toInt ≤ params.timespan.toInt

theorem Valid.spacingAt_le_timespanAt_iff (h : params.Valid) (height : Nat) :
    params.spacingAt height ≤ params.timespanAt height ↔ params.PairFits height := by
  unfold spacingAt timespanAt PairFits
  by_cases hfast : height < params.fastHeight.toNat
  · have hpair : params.spacing.toInt ≤
        if height < params.qip9Height.toNat then params.timespan.toInt
        else params.qip9Timespan.toInt := by
      by_cases hqip9 : height < params.qip9Height.toNat
      · rw [if_pos hqip9]
        exact h.timespan
      · rw [if_neg hqip9]
        exact h.qip9Timespan
    simp only [hfast, ↓reduceIte, hpair, true_iff]
    intro hbegun
    omega
  · have hbegun : params.fastHeight.toNat ≤ height := Nat.le_of_not_lt hfast
    by_cases hqip9 : height < params.qip9Height.toNat
    · simp only [hfast, hqip9, hbegun, ↓reduceIte, forall_const]
    · simp only [hfast, hqip9, ↓reduceIte, h.fastTimespan, false_implies, implies_true]

/-- A timespan holds a spacing just when it holds a whole number of them that is not zero. -/
theorem Valid.one_le_interval_iff (h : params.Valid) (height : Nat) :
    1 ≤ (params.timespanAt height).tdiv (params.spacingAt height) ↔
      params.spacingAt height ≤ params.timespanAt height := by
  have hspacing : 0 < params.spacingAt height := h.spacingAt_pos height
  have htimespan : 0 ≤ params.timespanAt height := Int.le_of_lt (h.timespanAt_pos height)
  rw [Int.tdiv_eq_ediv_of_nonneg htimespan, Int.le_ediv_iff_mul_le hspacing, Int.one_mul]

theorem Valid.exists_intervalAt_eq_ok (h : params.Valid) (height : Nat) :
    ∃ interval, params.intervalAt height = .ok interval ∧ 0 ≤ interval ∧
      (1 ≤ interval ↔ params.PairFits height) := by
  refine ⟨_, ExponentialAverage.intervalAt_eq_ok h height, h.interval_nonneg height, ?_⟩
  rw [h.one_le_interval_iff, h.spacingAt_le_timespanAt_iff]

/-- The pair that is not compared occurs first where the fast era begins. -/
theorem forall_pairFits_iff :
    (∀ height ≤ maxHeight, params.PairFits height) ↔
      params.qip9Height ≤ params.fastHeight ∨ params.fastSpacing ≤ params.timespan := by
  rw [UInt32.le_iff_toNat_le, Int64.le_iff_toInt_le]
  constructor
  · intro hpairs
    by_cases horder : params.qip9Height.toNat ≤ params.fastHeight.toNat
    · exact .inl horder
    · have hheight : params.fastHeight.toNat ≤ maxHeight :=
        Nat.le_of_lt_succ params.fastHeight.toNat_lt
      exact .inr (hpairs _ hheight (Nat.le_refl _) (Nat.lt_of_not_le horder))
  · rintro (horder | hfits) height - hbegun hbefore
    · omega
    · exact hfits

/-- **When a check of the parameters is enough for the heights.** Parameters that pass it have a
spacing of at least one and an interval at every height, and no division by zero. The timespan holds
a spacing, and the interval is at least one, exactly at the heights where the fast spacing does not
meet a shorter first timespan. So they do at every height exactly if the fast era does not begin
before the first one ends, or if the first timespan happens to hold the fast spacing. -/
theorem validate_suffices_iff (hvalidate : params.validate = .ok ()) :
    (∀ height, 1 ≤ params.spacingAt height ∧
      (params.spacingAt height ≤ params.timespanAt height ↔ params.PairFits height) ∧
      ∃ interval, params.intervalAt height = .ok interval ∧ 0 ≤ interval ∧
        (1 ≤ interval ↔ params.PairFits height)) ∧
    ((∀ height ≤ maxHeight, params.spacingAt height ≤ params.timespanAt height) ↔
      params.qip9Height ≤ params.fastHeight ∨ params.fastSpacing ≤ params.timespan) := by
  have hvalid := validate_eq_ok_iff.mp hvalidate
  constructor
  · intro height
    exact ⟨hvalid.spacingAt_pos height, hvalid.spacingAt_le_timespanAt_iff height,
      hvalid.exists_intervalAt_eq_ok height⟩
  · simp only [hvalid.spacingAt_le_timespanAt_iff, forall_pairFits_iff]

/-- An early fast era whose spacing just fits in the first timespan. -/
theorem validate_suffices_iff_of_early_fast_era :
    let params := { ConsensusParams.main with
      qip9Height := 200, fastHeight := 100, fastSpacing := 960 }
    params.validate = .ok () ∧ params.spacingAt 150 ≤ params.timespanAt 150 ∧
      ∃ interval, params.intervalAt 150 = .ok interval ∧ 1 ≤ interval := by
  intro params
  have hvalidate : params.validate = .ok () := by decide
  have hfits : params.PairFits 150 := by
    unfold PairFits
    decide
  obtain ⟨-, hpair, interval, hinterval, -, hpositive⟩ := (validate_suffices_iff hvalidate).1 150
  exact ⟨hvalidate, hpair.mpr hfits, interval, hinterval, hpositive.mpr hfits⟩

/-- Parameters that pass the check have no interval where the fast era is early and slow. -/
theorem validate_accepts_empty_interval :
    let params := { ConsensusParams.main with
      qip9Height := 200, fastHeight := 100, fastSpacing := 2000 }
    params.validate = .ok () ∧ params.spacingAt 150 = 2000 ∧ params.timespanAt 150 = 960 ∧
      params.intervalAt 150 = .ok 0 := by
  intro params
  exact ⟨by decide, by decide, by decide, by decide⟩

end HybridConsensus.ConsensusParams
