import HybridConsensus.Target.Compact
import Mathlib.Tactic.Linarith
import Mathlib.Tactic.Ring

/-!
# What compact bits keep of a target

The mantissa of a target at an exponent is the target in units of `256 ^ (exponent - 3)`. From one
exponent to the next it shrinks by 256, and the mantissas from `0x8000` to below `0x800000` are just
as wide, so a target other than zero has one exponent with its mantissa there. The bits of a target
are that exponent and that mantissa. They carry no sign, do not overflow, and decode to the target
rounded down, which has the same exponent and the same mantissa.
-/

namespace HybridConsensus

theorem two_pow_eight_mul (count : Nat) : 2 ^ (8 * count) = 256 ^ count := by
  rw [pow_mul]
  rfl

theorem byte_pow_pos (count : Nat) : 0 < 256 ^ count :=
  Nat.pow_pos (by decide)

theorem mul_byte_pow_div_lower {lower upper : Nat} (h : lower ≤ upper) (value : Nat) :
    value * 256 ^ upper / 256 ^ lower = value * 256 ^ (upper - lower) := by
  have hsplit : 256 ^ upper = 256 ^ (upper - lower) * 256 ^ lower := by
    rw [← pow_add, Nat.sub_add_cancel h]
  rw [hsplit, ← mul_assoc, Nat.mul_div_cancel _ (byte_pow_pos _)]

theorem mul_byte_pow_div_upper {lower upper : Nat} (h : lower ≤ upper) (value : Nat) :
    value * 256 ^ lower / 256 ^ upper = value / 256 ^ (upper - lower) := by
  have hsplit : 256 ^ upper = 256 ^ (upper - lower) * 256 ^ lower := by
    rw [← pow_add, Nat.sub_add_cancel h]
  rw [hsplit, Nat.mul_div_mul_right _ _ (byte_pow_pos _)]

namespace Target

variable {target : Target} {exponent : Nat}

def mantissaAt (target : Target) (exponent : Nat) : Nat :=
  target.value * 256 ^ 3 / 256 ^ exponent

/-- The mantissa fills its field but for the sign. -/
def Normal (target : Target) (exponent : Nat) : Prop :=
  0x8000 ≤ target.mantissaAt exponent ∧ target.mantissaAt exponent < 0x800000

theorem mantissaAt_succ (target : Target) (exponent : Nat) :
    target.mantissaAt (exponent + 1) = target.mantissaAt exponent / 256 := by
  rw [mantissaAt, mantissaAt, Nat.div_div_eq_div_mul, pow_succ 256 exponent]

theorem mantissaAt_antitone (target : Target) {lower upper : Nat} (h : lower ≤ upper) :
    target.mantissaAt upper ≤ target.mantissaAt lower :=
  Nat.div_le_div_left (Nat.pow_le_pow_right (by decide) h) (byte_pow_pos _)

theorem Normal.unique {other : Nat} (h : target.Normal exponent) (hother : target.Normal other) :
    exponent = other := by
  have hstep : ∀ lower upper, target.Normal lower → target.Normal upper → ¬ lower < upper := by
    intro lower upper hlower hupper hlt
    have hshrunk := target.mantissaAt_antitone (Nat.succ_le_of_lt hlt)
    rw [Nat.succ_eq_add_one, mantissaAt_succ] at hshrunk
    have hlow := hlower.2
    have hhigh := hupper.1
    omega
  have hnotBelow := hstep exponent other h hother
  have hnotAbove := hstep other exponent hother h
  omega

theorem value_truncate_of_lt {value : Nat} (h : value < 1 <<< 256) :
    (truncate value).value = value :=
  Nat.mod_eq_of_lt h

/-! ### Lengths -/

theorem byteLength_le_iff : target.byteLength ≤ exponent ↔ target.value < 256 ^ exponent := by
  unfold byteLength bitLength
  rw [← two_pow_eight_mul]
  by_cases hzero : target.value = 0
  · simp [hzero]
  · rw [if_neg hzero, ← Nat.log2_lt hzero]
    omega

theorem value_lt_pow_byteLength (target : Target) : target.value < 256 ^ target.byteLength :=
  byteLength_le_iff.mp (Nat.le_refl _)

theorem byteLength_le (target : Target) : target.byteLength ≤ 32 :=
  byteLength_le_iff.mpr target.bounded

theorem byteLength_pos (h : target.value ≠ 0) : 0 < target.byteLength := by
  rw [Nat.pos_iff_ne_zero]
  intro hzero
  have hvalue := target.value_lt_pow_byteLength
  rw [hzero, pow_zero] at hvalue
  omega

theorem pow_byteLength_le (h : target.value ≠ 0) :
    256 ^ (target.byteLength - 1) ≤ target.value := by
  have hpos := byteLength_pos h
  rw [← Nat.not_lt, ← byteLength_le_iff]
  omega

theorem leadingWord_eq (target : Target) :
    target.leadingWord = target.mantissaAt target.byteLength := by
  unfold leadingWord mantissaAt
  split
  case isTrue hshort =>
    rw [Nat.shiftLeft_eq, two_pow_eight_mul, mul_byte_pow_div_lower hshort]
  case isFalse hlong =>
    rw [Nat.shiftRight_eq_div_pow, two_pow_eight_mul, mul_byte_pow_div_upper (by omega)]

theorem leadingWord_lt (target : Target) : target.leadingWord < 256 ^ 3 := by
  rw [leadingWord_eq, mantissaAt, Nat.div_lt_iff_lt_mul (byte_pow_pos _), mul_comm]
  exact Nat.mul_lt_mul_of_pos_left target.value_lt_pow_byteLength (byte_pow_pos 3)

theorem le_leadingWord (h : target.value ≠ 0) : 256 ^ 2 ≤ target.leadingWord := by
  rw [leadingWord_eq, mantissaAt, Nat.le_div_iff_mul_le (byte_pow_pos _)]
  calc 256 ^ 2 * 256 ^ target.byteLength
      = 256 ^ (target.byteLength - 1) * 256 ^ 3 := by
        rw [← pow_add, ← pow_add]
        have := byteLength_pos h
        congr 1
        omega
    _ ≤ target.value * 256 ^ 3 := Nat.mul_le_mul_right _ (pow_byteLength_le h)

/-! ### The exponent and mantissa of a target -/

def compactExponent (target : Target) : Nat :=
  if target.leadingWord < 0x800000 then target.byteLength else target.byteLength + 1

def compactMantissa (target : Target) : Nat :=
  target.mantissaAt target.compactExponent

theorem compactExponent_le (target : Target) : target.compactExponent ≤ 33 := by
  have hlength := target.byteLength_le
  unfold compactExponent
  split <;> omega

theorem compactMantissa_lt (target : Target) : target.compactMantissa < 0x800000 := by
  have hword := target.leadingWord_lt
  unfold compactMantissa compactExponent
  split
  case isTrue hfits => rwa [← leadingWord_eq]
  case isFalse =>
    rw [mantissaAt_succ, ← leadingWord_eq]
    omega

theorem normal_compactExponent (h : target.value ≠ 0) : target.Normal target.compactExponent := by
  refine ⟨?_, target.compactMantissa_lt⟩
  have hword := le_leadingWord h
  unfold compactExponent
  split
  case isTrue =>
    rw [← leadingWord_eq]
    omega
  case isFalse =>
    rw [mantissaAt_succ, ← leadingWord_eq]
    omega

theorem Normal.compactExponent_eq (h : target.Normal exponent) :
    target.compactExponent = exponent := by
  have hnonzero : target.value ≠ 0 := by
    intro hzero
    have hlow := h.1
    rw [mantissaAt, hzero, Nat.zero_mul, Nat.zero_div] at hlow
    omega
  exact (normal_compactExponent hnonzero).unique h

theorem toCompact_eq (target : Target) :
    target.toCompact =
      UInt32.ofNat (target.compactMantissa + target.compactExponent * 0x1000000) := by
  unfold toCompact compactMantissa compactExponent
  split
  case isTrue => rw [leadingWord_eq, Nat.shiftLeft_eq]
  case isFalse =>
    rw [mantissaAt_succ, leadingWord_eq, Nat.shiftLeft_eq, Nat.shiftRight_eq_div_pow]

theorem toNat_toCompact (target : Target) :
    target.toCompact.toNat = target.compactMantissa + target.compactExponent * 0x1000000 := by
  have hmantissa := target.compactMantissa_lt
  have hexponent := target.compactExponent_le
  rw [toCompact_eq, UInt32.toNat_ofNat', Nat.mod_eq_of_lt (by omega)]

@[simp]
theorem exponent_toCompact (target : Target) :
    target.toCompact.exponent = target.compactExponent := by
  have hmantissa := target.compactMantissa_lt
  rw [CompactBits.exponent, toNat_toCompact, Nat.shiftRight_eq_div_pow]
  omega

@[simp]
theorem mantissa_toCompact (target : Target) :
    target.toCompact.mantissa = target.compactMantissa := by
  have hmantissa := target.compactMantissa_lt
  rw [CompactBits.mantissa, toNat_toCompact]
  omega

@[simp]
theorem signed_toCompact (target : Target) : target.toCompact.signed = false := by
  have hmantissa := target.compactMantissa_lt
  rw [CompactBits.signed, toNat_toCompact, Nat.testBit_eq_decide_div_mod_eq]
  simp only [decide_eq_false_iff_not]
  omega

end Target

/-! ### Decoding -/

namespace CompactBits

variable {bits : CompactBits}

theorem mantissa_lt (bits : CompactBits) : bits.mantissa < 0x800000 :=
  Nat.mod_lt _ (by decide)

/-- The three tests for an overflow are one bound on the number that the bits stand for. -/
theorem overflows_iff :
    bits.overflows = true ↔ 256 ^ 35 ≤ bits.mantissa * 256 ^ bits.exponent := by
  have hsmall := bits.mantissa_lt
  unfold overflows
  generalize bits.mantissa = word at hsmall
  generalize bits.exponent = size
  simp only [bne_iff_ne, ne_eq, Bool.and_eq_true, Bool.or_eq_true, decide_eq_true_eq]
  rcases Nat.lt_or_ge size 35 with hsize | hsize
  · rcases Nat.lt_or_ge size 33 with hshort | hlong
    · have hfits : word * 256 ^ size < 256 ^ 35 := by
        calc word * 256 ^ size
            ≤ word * 256 ^ 32 := Nat.mul_le_mul_left _ (Nat.pow_le_pow_right (by decide) (by omega))
          _ < 256 ^ 35 := by omega
      omega
    · have hcases : size = 33 ∨ size = 34 := by omega
      rcases hcases with rfl | rfl <;> omega
  · have hpow : 256 ^ 35 ≤ 256 ^ size := Nat.pow_le_pow_right (by decide) hsize
    rcases Nat.eq_zero_or_pos word with rfl | hword
    · simp
    · have hover : 256 ^ 35 ≤ word * 256 ^ size :=
        Nat.le_trans hpow (Nat.le_mul_of_pos_left _ hword)
      omega

theorem value_target_of_overflows (h : bits.overflows = true) : bits.target.value = 0 := by
  simp only [target, decode, h, ↓reduceIte]
  rfl

theorem value_target (h : bits.overflows = false) :
    bits.target.value = bits.mantissa * 256 ^ bits.exponent / 256 ^ 3 := by
  have hfits : bits.mantissa * 256 ^ bits.exponent < 256 ^ 35 := by
    rw [← Nat.not_le, ← overflows_iff, h]
    simp
  have hword := bits.mantissa_lt
  simp only [target, decode, h, Bool.false_eq_true, ↓reduceIte]
  split
  case isTrue hsize =>
    have hvalue : bits.mantissa >>> (8 * (3 - bits.exponent)) =
        bits.mantissa * 256 ^ bits.exponent / 256 ^ 3 := by
      rw [mul_byte_pow_div_upper hsize, ← two_pow_eight_mul, Nat.shiftRight_eq_div_pow]
    have hle := Nat.shiftRight_le bits.mantissa (8 * (3 - bits.exponent))
    rw [Target.value_truncate_of_lt (by omega), hvalue]
  case isFalse hsize =>
    have hvalue : bits.mantissa <<< (8 * (bits.exponent - 3)) =
        bits.mantissa * 256 ^ bits.exponent / 256 ^ 3 := by
      rw [mul_byte_pow_div_lower (by omega), ← two_pow_eight_mul, Nat.shiftLeft_eq]
    rw [Target.value_truncate_of_lt (by omega), hvalue]

theorem isValid_iff :
    bits.decode.isValid = true ↔
      bits.decode.negative = false ∧ bits.decode.overflow = false ∧ bits.target.isZero = false := by
  simp [DecodedTarget.isValid, target, and_assoc]

theorem target_ne_zero_of_isValid (h : bits.decode.isValid = true) : bits.target.value ≠ 0 := by
  obtain ⟨-, -, hzero⟩ := isValid_iff.mp h
  intro hvalue
  rw [Target.isZero_iff.mpr hvalue] at hzero
  cases hzero

end CompactBits

/-! ### Encoding and decoding -/

namespace Target

variable {target : Target}

theorem compactMantissa_mul_le (target : Target) :
    target.compactMantissa * 256 ^ target.compactExponent ≤ target.value * 256 ^ 3 :=
  Nat.div_mul_le_self _ _

@[simp]
theorem overflows_toCompact (target : Target) : target.toCompact.overflows = false := by
  have hvalue : target.value < 256 ^ 32 := target.bounded
  have hle := target.compactMantissa_mul_le
  rw [Bool.eq_false_iff, Ne, CompactBits.overflows_iff, mantissa_toCompact, exponent_toCompact]
  omega

@[simp]
theorem negative_toCompact (target : Target) : target.toCompact.decode.negative = false := by
  simp [CompactBits.decode]

theorem value_target_toCompact (target : Target) :
    target.toCompact.target.value =
      target.compactMantissa * 256 ^ target.compactExponent / 256 ^ 3 := by
  rw [CompactBits.value_target target.overflows_toCompact, mantissa_toCompact, exponent_toCompact]

theorem target_toCompact_le (target : Target) : target.toCompact.target ≤ target := by
  rw [le_iff, value_target_toCompact]
  calc target.compactMantissa * 256 ^ target.compactExponent / 256 ^ 3
      ≤ target.value * 256 ^ 3 / 256 ^ 3 := Nat.div_le_div_right target.compactMantissa_mul_le
    _ = target.value := Nat.mul_div_cancel _ (byte_pow_pos 3)

theorem target_toCompact_of_short (h : target.compactExponent ≤ 3) :
    target.toCompact.target = target := by
  have hmantissa : target.compactMantissa = target.value * 256 ^ (3 - target.compactExponent) :=
    mul_byte_pow_div_lower h target.value
  apply Target.ext
  rw [value_target_toCompact, hmantissa, mul_assoc, ← pow_add, Nat.sub_add_cancel h,
    Nat.mul_div_cancel _ (byte_pow_pos 3)]

theorem value_target_toCompact_of_long (h : 3 ≤ target.compactExponent) :
    target.toCompact.target.value * 256 ^ 3 =
      target.compactMantissa * 256 ^ target.compactExponent := by
  rw [value_target_toCompact, mul_byte_pow_div_lower h, mul_assoc, ← pow_add, Nat.sub_add_cancel h]

theorem mantissaAt_target_toCompact (target : Target) :
    target.toCompact.target.mantissaAt target.compactExponent = target.compactMantissa := by
  rcases Nat.le_total target.compactExponent 3 with hshort | hlong
  · rw [target_toCompact_of_short hshort]
    rfl
  · rw [mantissaAt, value_target_toCompact_of_long hlong,
      Nat.mul_div_cancel _ (byte_pow_pos _)]

theorem compactExponent_of_value_eq_zero (h : target.value = 0) : target.compactExponent = 0 := by
  simp [compactExponent, leadingWord, byteLength, bitLength, h]

theorem toCompact_target_toCompact (target : Target) :
    target.toCompact.target.toCompact = target.toCompact := by
  rcases Nat.le_total target.compactExponent 3 with hshort | hlong
  · rw [target_toCompact_of_short hshort]
  · have hnonzero : target.value ≠ 0 := by
      intro hzero
      rw [compactExponent_of_value_eq_zero hzero] at hlong
      omega
    have hnormal : target.toCompact.target.Normal target.compactExponent := by
      unfold Normal
      rw [mantissaAt_target_toCompact]
      exact normal_compactExponent hnonzero
    rw [toCompact_eq, compactMantissa, hnormal.compactExponent_eq, mantissaAt_target_toCompact,
      toCompact_eq target]

theorem value_target_toCompact_ne_zero (h : target.value ≠ 0) :
    target.toCompact.target.value ≠ 0 := by
  intro hzero
  have hmantissa := target.mantissaAt_target_toCompact
  have hnormal := normal_compactExponent h
  rw [mantissaAt, hzero, Nat.zero_mul, Nat.zero_div] at hmantissa
  have hlow : 0x8000 ≤ target.compactMantissa := hnormal.1
  omega

theorem isValid_toCompact (h : target.value ≠ 0) : target.toCompact.decode.isValid = true := by
  have hnonzero : target.toCompact.decode.target.isZero = false := by
    rw [Bool.eq_false_iff, Ne, isZero_iff]
    exact value_target_toCompact_ne_zero h
  have hoverflow : target.toCompact.decode.overflow = false := target.overflows_toCompact
  simp [DecodedTarget.isValid, hnonzero, hoverflow]

end Target

end HybridConsensus
