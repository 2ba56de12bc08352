import HybridConsensus.Proofs.CompactFloor

/-!
# Canonical bits

Two nodes compare bits and not targets, so one target has to have one encoding, and the order of the
encodings has to be that of the targets. A larger target never has a smaller exponent, and under one
exponent never a smaller mantissa. As the exponent is the high byte, the bits as numbers are in the
same order. Not all bits are the bits of a target. Those that are have a mantissa that fills its
field but for the sign, and nothing in the bytes that a small exponent cuts off. Then the target
they decode to has their exponent and mantissa, and is encoded to them again.
-/

namespace HybridConsensus

namespace CompactBits

variable {bits : CompactBits}

/-- The mantissa fills its field but for the sign. Under an exponent of one or two only its leading
bytes count, and the others are zero. -/
def Filled (bits : CompactBits) : Prop :=
  3 ≤ bits.exponent ∧ 0x8000 ≤ bits.mantissa ∧ bits.mantissa ≤ 0x7fffff ∨
    bits.exponent = 2 ∧ 0x8000 ≤ bits.mantissa ∧ bits.mantissa ≤ 0x7fff00 ∧
      bits.mantissa % 0x100 = 0 ∨
    bits.exponent = 1 ∧ 0x10000 ≤ bits.mantissa ∧ bits.mantissa ≤ 0x7f0000 ∧
      bits.mantissa % 0x10000 = 0

/-- The bits that targets other than zero are encoded to. -/
structure Canonical (bits : CompactBits) : Prop where
  positive : bits.decode.negative = false
  fits : bits.decode.overflow = false
  filled : bits.Filled

/-- Decoding cuts off nothing of a filled mantissa. -/
theorem filled_iff :
    bits.Filled ↔ 0x8000 ≤ bits.mantissa ∧ 256 ^ (3 - bits.exponent) ∣ bits.mantissa := by
  have hfield := bits.mantissa_lt
  unfold Filled
  generalize bits.mantissa = word at *
  rcases Nat.lt_or_ge bits.exponent 3 with hshort | hlong
  · -- An exponent of zero would cut off three bytes, and no mantissa has more.
    have hcases : bits.exponent = 0 ∨ bits.exponent = 1 ∨ bits.exponent = 2 := by omega
    rcases hcases with h | h | h <;> rw [h] <;> omega
  · rw [Nat.sub_eq_zero_of_le hlong, pow_zero]
    omega

/-- Bits without a sign are made of their exponent and their mantissa. -/
theorem toNat_eq_of_signed_eq_false (h : bits.signed = false) :
    bits.toNat = bits.mantissa + bits.exponent * 0x1000000 := by
  rw [signed, Nat.testBit_eq_decide_div_mod_eq, decide_eq_false_iff_not] at h
  rw [mantissa, exponent, Nat.shiftRight_eq_div_pow]
  omega

/-- Nothing is lost when filled bits are decoded. -/
theorem Filled.value_target_mul (h : bits.Filled) (hfits : bits.overflows = false) :
    bits.target.value * 256 ^ 3 = bits.mantissa * 256 ^ bits.exponent := by
  rw [value_target hfits]
  apply Nat.div_mul_cancel
  calc 256 ^ 3 ∣ 256 ^ (3 - bits.exponent) * 256 ^ bits.exponent := by
        rw [← pow_add]
        exact pow_dvd_pow 256 (by omega)
    _ ∣ bits.mantissa * 256 ^ bits.exponent := Nat.mul_dvd_mul_right (filled_iff.mp h).2 _

theorem Filled.mantissaAt_target (h : bits.Filled) (hfits : bits.overflows = false) :
    bits.target.mantissaAt bits.exponent = bits.mantissa := by
  rw [Target.mantissaAt, h.value_target_mul hfits, Nat.mul_div_cancel _ (byte_pow_pos _)]

theorem Canonical.toCompact_target (h : bits.Canonical) : bits.target.toCompact = bits := by
  have hfull := (filled_iff.mp h.filled).1
  have hmantissa := h.filled.mantissaAt_target h.fits
  have hnormal : bits.target.Normal bits.exponent := by
    unfold Target.Normal
    rw [hmantissa]
    exact ⟨hfull, bits.mantissa_lt⟩
  have hsigned : bits.signed = false := by
    have hnonzero : bits.mantissa ≠ 0 := by omega
    simpa [decode, hnonzero] using h.positive
  apply UInt32.toNat_inj.mp
  rw [Target.toNat_toCompact, Target.compactMantissa, hnormal.compactExponent_eq, hmantissa,
    toNat_eq_of_signed_eq_false hsigned]

end CompactBits

namespace Target

variable {target other : Target} {bits : CompactBits}

theorem filled_toCompact (h : target.value ≠ 0) : target.toCompact.Filled := by
  rw [CompactBits.filled_iff, mantissa_toCompact, exponent_toCompact]
  refine ⟨(normal_compactExponent h).1, ?_⟩
  rcases Nat.le_total target.compactExponent 3 with hshort | hlong
  · rw [compactMantissa, mantissaAt, mul_byte_pow_div_lower hshort]
    exact Nat.dvd_mul_left _ _
  · rw [Nat.sub_eq_zero_of_le hlong]
    exact one_dvd _

theorem canonical_toCompact (h : target.value ≠ 0) : target.toCompact.Canonical :=
  ⟨target.negative_toCompact, target.overflows_toCompact, filled_toCompact h⟩

theorem toCompact_of_value_eq_zero (h : target.value = 0) : target.toCompact = 0 := by
  rw [toCompact_eq, compactMantissa, compactExponent_of_value_eq_zero h, mantissaAt, h]
  rfl

theorem exists_toCompact_eq_iff :
    (∃ target : Target, target.toCompact = bits) ↔ bits = 0 ∨ bits.Canonical := by
  constructor
  · rintro ⟨target, rfl⟩
    by_cases hzero : target.value = 0
    · exact .inl (toCompact_of_value_eq_zero hzero)
    · exact .inr (canonical_toCompact hzero)
  · rintro (rfl | hcanonical)
    · exact ⟨zero, toCompact_of_value_eq_zero rfl⟩
    · exact ⟨bits.target, hcanonical.toCompact_target⟩

/-! ### Order -/

theorem mantissaAt_mono (h : target ≤ other) (exponent : Nat) :
    target.mantissaAt exponent ≤ other.mantissaAt exponent :=
  Nat.div_le_div_right (Nat.mul_le_mul_right _ h)

theorem compactExponent_mono (h : target ≤ other) :
    target.compactExponent ≤ other.compactExponent := by
  by_contra hless
  have hnonzero : target.value ≠ 0 := by
    intro hzero
    rw [compactExponent_of_value_eq_zero hzero] at hless
    omega
  -- One exponent higher, no mantissa of the larger target fills its field any more.
  have hfull := (normal_compactExponent hnonzero).1
  have hmore := mantissaAt_mono h target.compactExponent
  have hfewer := other.mantissaAt_antitone (Nat.succ_le_of_lt (Nat.lt_of_not_le hless))
  have hfield := other.compactMantissa_lt
  rw [Nat.succ_eq_add_one, mantissaAt_succ, ← compactMantissa] at hfewer
  omega

theorem toCompact_mono (h : target ≤ other) : target.toCompact ≤ other.toCompact := by
  have hexponent := compactExponent_mono h
  have hfield := target.compactMantissa_lt
  rw [UInt32.le_iff_toNat_le, toNat_toCompact, toNat_toCompact]
  rcases Nat.lt_or_eq_of_le hexponent with hless | hsame
  · omega
  · have hmantissa : target.compactMantissa ≤ other.compactMantissa := by
      rw [compactMantissa, compactMantissa, hsame]
      exact mantissaAt_mono h _
    omega

theorem toCompact_eq_iff :
    target.toCompact = other.toCompact ↔ target.toCompact.target = other.toCompact.target := by
  constructor
  · intro hsame
    rw [hsame]
  · intro hsame
    rw [← toCompact_target_toCompact target, hsame, toCompact_target_toCompact]

theorem toCompact_le_iff :
    target.toCompact ≤ other.toCompact ↔ target.toCompact.target ≤ other.toCompact.target := by
  constructor
  · intro hle
    rcases Nat.le_total target.toCompact.target.value other.toCompact.target.value with
      horder | horder
    · exact horder
    · have hback : other.toCompact.target.toCompact ≤ target.toCompact.target.toCompact :=
        toCompact_mono horder
      rw [toCompact_target_toCompact, toCompact_target_toCompact] at hback
      rw [UInt32.le_antisymm hle hback]
      exact Nat.le_refl _
  · intro hle
    rw [← toCompact_target_toCompact target, ← toCompact_target_toCompact other]
    exact toCompact_mono hle

/-- **Canonical bits order and identify targets.** A larger target never has smaller bits, as
numbers. The bits of two targets are in the order of what they decode to, and are the same exactly
if they decode to the same. And some target has given bits exactly if they are zero or canonical. -/
theorem toCompact_orders_and_identifies (target other : Target) :
    (target ≤ other → target.toCompact ≤ other.toCompact) ∧
      (target.toCompact ≤ other.toCompact ↔ target.toCompact.target ≤ other.toCompact.target) ∧
      (target.toCompact = other.toCompact ↔ target.toCompact.target = other.toCompact.target) ∧
      ∀ bits : CompactBits,
        (∃ encoded : Target, encoded.toCompact = bits) ↔ bits = 0 ∨ bits.Canonical :=
  ⟨toCompact_mono, toCompact_le_iff, toCompact_eq_iff, fun _ => exists_toCompact_eq_iff⟩

/-- The largest mantissa under an exponent of three, and the target that is one above it. -/
theorem toCompact_orders_and_identifies_of_full_mantissa :
    let full : Target := .saturate 0x7fffff
    let above : Target := .saturate 0x800000
    full.toCompact = 0x037fffff ∧ above.toCompact = 0x04008000 ∧ full ≤ above ∧
      full.toCompact ≤ above.toCompact := by
  intro full above
  have hle : full ≤ above := by decide +kernel
  exact ⟨by decide +kernel, by decide +kernel, hle,
    (toCompact_orders_and_identifies full above).1 hle⟩

end Target

end HybridConsensus
