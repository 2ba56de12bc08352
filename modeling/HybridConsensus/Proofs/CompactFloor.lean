import HybridConsensus.Proofs.CompactRounding

/-!
# Nothing lies between a target and its bits

The bits of a target stand for a target below it, and no other bits come closer from below. Bits of
a smaller exponent than the target's stand for too little, because the mantissas of that exponent
end where those of the next one begin. Bits of the same or a larger exponent stand for a whole
number of the target's units, and the target loses only a part of one unit. So encoding is the right
adjoint of decoding, and what has been decoded once comes back unchanged.
-/

namespace HybridConsensus

namespace CompactBits

variable {bits : CompactBits} {exponent : Nat}

theorem value_target_mul_le (h : bits.overflows = false) :
    bits.target.value * 256 ^ 3 ≤ bits.mantissa * 256 ^ bits.exponent := by
  rw [value_target h]
  exact Nat.div_mul_le_self _ _

theorem value_target_lt_of_exponent_lt (h : bits.overflows = false)
    (hexponent : bits.exponent < exponent) :
    bits.target.value * 256 ^ 3 < 0x8000 * 256 ^ exponent := by
  calc bits.target.value * 256 ^ 3
      ≤ bits.mantissa * 256 ^ bits.exponent := value_target_mul_le h
    _ < 0x800000 * 256 ^ bits.exponent :=
        Nat.mul_lt_mul_of_pos_right bits.mantissa_lt (byte_pow_pos _)
    _ = 0x8000 * 256 ^ (bits.exponent + 1) := by ring
    _ ≤ 0x8000 * 256 ^ exponent :=
        Nat.mul_le_mul_left _ (Nat.pow_le_pow_right (by decide) hexponent)

/-- Bits stand for a whole number of the units of any exponent that is not above theirs. -/
theorem value_target_eq_units (h : bits.overflows = false) (hlong : 3 ≤ exponent)
    (hexponent : exponent ≤ bits.exponent) :
    bits.target.value =
      bits.mantissa * 256 ^ (bits.exponent - exponent) * 256 ^ (exponent - 3) := by
  have hsplit : bits.exponent - 3 = (bits.exponent - exponent) + (exponent - 3) := by omega
  rw [value_target h, mul_byte_pow_div_lower (Nat.le_trans hlong hexponent), hsplit, pow_add,
    mul_assoc]

end CompactBits

namespace Target

variable {target : Target} {bits : CompactBits}

theorem value_target_toCompact_eq_units (h : 3 ≤ target.compactExponent) :
    target.toCompact.target.value =
      target.value / 256 ^ (target.compactExponent - 3) * 256 ^ (target.compactExponent - 3) := by
  rw [value_target_toCompact, mul_byte_pow_div_lower h, compactMantissa, mantissaAt,
    mul_byte_pow_div_upper h]

/-- Every target that has bits and is at most `target` is at most what the bits of `target` stand
for. -/
theorem target_le_target_toCompact (h : bits.target ≤ target) :
    bits.target ≤ target.toCompact.target := by
  rw [le_iff] at h ⊢
  cases hoverflow : bits.overflows with
  | true =>
    rw [CompactBits.value_target_of_overflows hoverflow]
    exact Nat.zero_le _
  | false =>
    rcases Nat.lt_or_ge 3 target.compactExponent with hlong | hshort
    · rcases Nat.lt_or_ge bits.exponent target.compactExponent with hless | hmore
      · -- The mantissa of the target's bits is never below the one that a smaller exponent ends at.
        have hnonzero : target.value ≠ 0 := by
          intro hzero
          rw [compactExponent_of_value_eq_zero hzero] at hlong
          omega
        have hnormal := (normal_compactExponent hnonzero).1
        have hbound : bits.target.value * 256 ^ 3 < target.toCompact.target.value * 256 ^ 3 := by
          calc bits.target.value * 256 ^ 3
              < 0x8000 * 256 ^ target.compactExponent :=
                CompactBits.value_target_lt_of_exponent_lt hoverflow hless
            _ ≤ target.compactMantissa * 256 ^ target.compactExponent :=
                Nat.mul_le_mul_right _ hnormal
            _ = target.toCompact.target.value * 256 ^ 3 :=
                (value_target_toCompact_of_long (Nat.le_of_lt hlong)).symm
        exact Nat.le_of_lt (Nat.lt_of_mul_lt_mul_right hbound)
      · -- Both are whole numbers of units, and the target's bits count the units that fit in it.
        rw [CompactBits.value_target_eq_units hoverflow (Nat.le_of_lt hlong) hmore] at h ⊢
        rw [value_target_toCompact_eq_units (Nat.le_of_lt hlong)]
        have hunits := (Nat.le_div_iff_mul_le (byte_pow_pos _)).mpr h
        exact Nat.mul_le_mul_right _ hunits
    · rw [target_toCompact_of_short hshort]
      exact h

theorem target_toCompact_target (bits : CompactBits) :
    bits.target.toCompact.target = bits.target := by
  have hdown : bits.target.toCompact.target ≤ bits.target := bits.target.target_toCompact_le
  have hup : bits.target ≤ bits.target.toCompact.target :=
    target_le_target_toCompact (Nat.le_refl _)
  exact Target.ext (Nat.le_antisymm hdown hup)

/-- **The bits of a target round it down to the nearest target that has bits.** They carry no sign
and do not overflow, what they stand for is not above the target, and nothing that bits stand for
lies between the two. So bits that have been decoded lose nothing when their target is encoded
again. That holds of bits with a sign and of bits that overflow too, as these decode to a target as
well. -/
theorem toCompact_rounds_down (target : Target) :
    target.toCompact.decode.negative = false ∧ target.toCompact.decode.overflow = false ∧
      target.toCompact.decode.target ≤ target ∧
      (∀ bits : CompactBits, bits.decode.target ≤ target →
        bits.decode.target ≤ target.toCompact.target) ∧
      ∀ bits : CompactBits, bits.target.toCompact.target = bits.target :=
  ⟨target.negative_toCompact, target.overflows_toCompact, target.target_toCompact_le,
    fun _ => target_le_target_toCompact, target_toCompact_target⟩

/-- The largest target takes an exponent of 33 bytes, and the largest 32-byte bits stay below. -/
theorem toCompact_rounds_down_of_largest :
    let largest : Target := .saturate (2 ^ 256)
    let below : CompactBits := 0x207fffff
    largest.toCompact = 0x2100ffff ∧ below.decode.target ≤ largest ∧
      below.decode.target ≤ largest.toCompact.target := by
  intro largest below
  have hle : below.decode.target ≤ largest := by decide +kernel
  exact ⟨by decide +kernel, hle, (toCompact_rounds_down largest).2.2.2.1 below hle⟩

end Target

end HybridConsensus
