import HybridConsensus.Proofs.CompactFloor
import HybridConsensus.Retarget.Exponential

/-!
# Order and the limit

Sums and products that stop at the largest target keep the order of targets, and so do bits that
round down. A clamp keeps it but for one thing: the limit stands in for a target of zero, and a
target above zero can be below that. So what is known of a target before the clamp is known of its
bits only once the target is known not to be zero.
-/

namespace HybridConsensus.Target

variable {target limit other : Target} {bits : CompactBits}

theorem saturate_mono {value other : Nat} (h : value ≤ other) : saturate value ≤ saturate other :=
  min_le_min_right _ h

theorem value_saturate_eq_zero_iff {value : Nat} : (saturate value).value = 0 ↔ value = 0 := by
  simp only [saturate]
  omega

theorem target_toCompact_mono (h : target ≤ other) :
    target.toCompact.target ≤ other.toCompact.target :=
  target_le_target_toCompact (Nat.le_trans target.target_toCompact_le h)

/-- The bits of a target lose at most one part in `2 ^ 15` of what they stand for. -/
theorem value_mul_le_toCompact (target : Target) :
    target.value * 0x8000 ≤ target.toCompact.target.value * 0x8001 := by
  rcases Nat.lt_or_ge 3 target.compactExponent with hlong | hshort
  · have hnonzero : target.value ≠ 0 := by
      intro hzero
      rw [compactExponent_of_value_eq_zero hzero] at hlong
      omega
    have hunit := byte_pow_pos (target.compactExponent - 3)
    have hmantissa : target.compactMantissa =
        target.value / 256 ^ (target.compactExponent - 3) :=
      mul_byte_pow_div_upper (Nat.le_of_lt hlong) target.value
    have hfull : 0x8000 ≤ target.value / 256 ^ (target.compactExponent - 3) :=
      hmantissa ▸ (normal_compactExponent hnonzero).1
    rw [value_target_toCompact_eq_units (Nat.le_of_lt hlong)]
    generalize 256 ^ (target.compactExponent - 3) = unit at *
    have hrest : target.value < (target.value / unit + 1) * unit :=
      Nat.lt_mul_of_div_lt (Nat.lt_succ_self _) hunit
    have hloss : 0x8000 * unit ≤ target.value / unit * unit := Nat.mul_le_mul_right _ hfull
    rw [Nat.add_mul] at hrest
    omega
  · rw [target_toCompact_of_short hshort]
    omega

/-! ### Clamped targets -/

theorem clampedBits_of_le (hnonzero : target.value ≠ 0) (hle : target ≤ limit) :
    target.clampedBits limit = target.toCompact := by
  refine if_neg ?_
  rw [not_or, isZero_iff]
  exact ⟨hnonzero, Nat.not_lt_of_le hle⟩

theorem clampedBits_of_zero (hzero : target.value = 0) :
    target.clampedBits limit = limit.toCompact :=
  if_pos (.inl (isZero_iff.mpr hzero))

theorem toCompact_target_clampedBits (target limit : Target) :
    (target.clampedBits limit).target.toCompact = target.clampedBits limit := by
  unfold clampedBits
  split <;> exact toCompact_target_toCompact _

/-- Rounded down after it is clamped to one limit, a target is within another if that limit is, or
if the target is without the clamp. -/
theorem target_clampedBits_le_iff :
    (target.clampedBits limit).target ≤ other ↔
      limit.toCompact.target ≤ other ∨ target.value ≠ 0 ∧ target.toCompact.target ≤ other := by
  unfold clampedBits
  by_cases hclamp : target.isZero = true ∨ limit < target
  · rw [if_pos hclamp]
    constructor
    · exact .inl
    · rintro (hlimit | ⟨hnonzero, htarget⟩)
      · exact hlimit
      · have hlt : limit < target := hclamp.resolve_left (isZero_iff.not.mpr hnonzero)
        exact Nat.le_trans (target_toCompact_mono (Nat.le_of_lt hlt)) htarget
  · rw [if_neg hclamp]
    rw [not_or, isZero_iff] at hclamp
    constructor
    · exact fun htarget => .inr ⟨hclamp.1, htarget⟩
    · rintro (hlimit | ⟨-, htarget⟩)
      · exact Nat.le_trans (target_toCompact_mono (Nat.le_of_not_lt hclamp.2)) hlimit
      · exact htarget

/-- Bits within the limit are below a clamped target just if they are below the target. -/
theorem le_target_clampedBits_iff (hnonzero : target.value ≠ 0) (hlimit : bits.target ≤ limit) :
    bits.target ≤ (target.clampedBits limit).target ↔ bits.target ≤ target := by
  rcases Nat.lt_or_ge limit.value target.value with hlt | hle
  · have hclamped : target.clampedBits limit = limit.toCompact := if_pos (.inr hlt)
    rw [hclamped]
    exact iff_of_true (target_le_target_toCompact hlimit)
      (Nat.le_trans hlimit (Nat.le_of_lt hlt))
  · rw [clampedBits_of_le hnonzero hle]
    exact ⟨fun h => Nat.le_trans h target.target_toCompact_le, target_le_target_toCompact⟩

/-- The limit that stands in for a target of zero is the one exception to the order. -/
theorem target_clampedBits_mono (h : target ≤ other) (hnonzero : target.value ≠ 0)
    (limit : Target) : (target.clampedBits limit).target ≤ (other.clampedBits limit).target := by
  rw [target_clampedBits_le_iff]
  unfold clampedBits
  split
  · exact .inl (Nat.le_refl _)
  · exact .inr ⟨hnonzero, target_toCompact_mono h⟩

theorem target_clampedBits_mono_of_zero (h : target ≤ other)
    (hzero : target.value = 0 → other.value = 0) (limit : Target) :
    (target.clampedBits limit).target ≤ (other.clampedBits limit).target := by
  by_cases hvalue : target.value = 0
  · rw [ext (hvalue.trans (hzero hvalue).symm)]
    exact Nat.le_refl _
  · exact target_clampedBits_mono h hvalue limit

/-- No clamped target is above the limit, and only the bits of the limit are as high as it. -/
theorem limit_le_clampedBits_iff :
    limit.toCompact.target ≤ (target.clampedBits limit).target ↔
      target.clampedBits limit = limit.toCompact := by
  constructor
  · intro hhigh
    have hlow : (target.clampedBits limit).target ≤ limit.toCompact.target :=
      target_clampedBits_le_iff.mpr (.inl (Nat.le_refl _))
    have hsame : (target.clampedBits limit).target = limit.toCompact.target :=
      ext (Nat.le_antisymm hlow hhigh)
    rw [← toCompact_target_clampedBits, hsame, toCompact_target_toCompact]
  · intro hsame
    rw [hsame]
    exact Nat.le_refl _

end HybridConsensus.Target
