import HybridConsensus.Proofs.CompactRounding
import HybridConsensus.ProofCheck
import Mathlib.Algebra.Order.Floor.Semifield
import Mathlib.Data.Nat.Bitwise
import Mathlib.Data.Nat.Digits.Defs
import Mathlib.Data.Rat.Floor
import Mathlib.Tactic.NormNum

/-!
# What bits stand for

Bits stand for the rational number `mantissa * 256 ^ (exponent - 3)`, and whoever reads them shifts
a word and tests three sizes. The tests together are one comparison with `2 ^ 256`, as a mantissa
has at most three bytes. Below that bound nothing is cut off at the top, and what the shift cuts off
at the bottom is the fraction. So a proof is checked against the whole part of that number: the
check needs no case for an overflow, which no limit is above, and none for a sign on a mantissa of
zero.
-/

namespace HybridConsensus

theorem littleEndian_eq_ofDigits (bytes : List UInt8) :
    littleEndian bytes = Nat.ofDigits 256 (bytes.map UInt8.toNat) := by
  induction bytes with
  | nil => rfl
  | cons byte rest ih => rw [littleEndian, ih, List.map_cons, Nat.ofDigits_cons]

namespace CompactBits

variable {bits : CompactBits}

/-! ### The fields -/

theorem exponent_eq (bits : CompactBits) : bits.exponent = (bits >>> 24).toNat :=
  rfl

theorem mantissa_eq (bits : CompactBits) : bits.mantissa = (bits &&& 0x7fffff).toNat :=
  (Nat.and_two_pow_sub_one_eq_mod bits.toNat 23).symm

theorem signed_eq_false_iff : bits.signed = false ↔ bits &&& 0x800000 = 0 := by
  have hsign : (bits &&& 0x800000).toNat = bits.signed.toNat * 2 ^ 23 :=
    Nat.and_two_pow bits.toNat 23
  rw [← UInt32.toNat_inj, hsign]
  cases bits.signed <;> simp

/-! ### The number -/

/-- What bits stand for but for their sign, before anything is cut off. -/
def number (bits : CompactBits) : ℚ :=
  bits.mantissa * 256 ^ ((bits.exponent : ℤ) - 3)

theorem number_eq_div (bits : CompactBits) :
    bits.number = ((bits.mantissa * 256 ^ bits.exponent : ℕ) : ℚ) / ((256 ^ 3 : ℕ) : ℚ) := by
  rw [number, zpow_sub₀ (by norm_num), zpow_natCast, ← mul_div_assoc]
  push_cast
  rfl

theorem overflows_iff_le_number : bits.overflows = true ↔ 2 ^ 256 ≤ bits.number := by
  have hbound : (2 ^ 256 : ℚ) = ((256 ^ 32 : ℕ) : ℚ) := by norm_num
  rw [overflows_iff, number_eq_div, hbound, le_div_iff₀ (by norm_num)]
  norm_cast

theorem floor_number (bits : CompactBits) :
    ⌊bits.number⌋₊ = bits.mantissa * 256 ^ bits.exponent / 256 ^ 3 := by
  rw [number_eq_div, Nat.floor_div_eq_div]

theorem value_target_eq_floor (bits : CompactBits) :
    bits.target.value = if 2 ^ 256 ≤ bits.number then 0 else ⌊bits.number⌋₊ := by
  by_cases hover : bits.overflows = true
  · rw [if_pos (overflows_iff_le_number.mp hover), value_target_of_overflows hover]
  · rw [if_neg (overflows_iff_le_number.not.mp hover), floor_number,
      value_target (Bool.eq_false_iff.mpr hover)]

theorem negative_eq_false_iff :
    bits.decode.negative = false ↔ bits.mantissa = 0 ∨ bits.signed = false := by
  simp [decode, or_iff_not_imp_left]

/-! ### The check -/

/-- The whole part of an overflow is above every target. -/
theorem bounded_of_floor_le {limit : Target} (h : ⌊bits.number⌋₊ ≤ limit.value) :
    ¬ 2 ^ 256 ≤ bits.number := by
  intro hover
  have hfloor : 2 ^ 256 ≤ ⌊bits.number⌋₊ := Nat.le_floor (by exact_mod_cast hover)
  have hlimit : limit.value < 2 ^ 256 := limit.bounded
  omega

theorem mantissa_ne_zero_of_floor (h : 1 ≤ ⌊bits.number⌋₊) : bits.mantissa ≠ 0 := by
  intro hzero
  rw [floor_number, hzero, Nat.zero_mul, Nat.zero_div] at h
  omega

end CompactBits

namespace BlockHash

open CompactBits

variable {hash : BlockHash} {bits : CompactBits} {params : ConsensusParams}

theorem meets_iff : hash.meets bits params = true ↔
    bits.decode.isValid = true ∧ bits.target ≤ params.workLimit ∧ hash.toTarget ≤ bits.target := by
  simp only [meets, Bool.and_eq_true, decide_eq_true_eq, and_assoc]
  rfl

theorem meets_iff_floor : hash.meets bits params = true ↔
    bits.signed = false ∧ 1 ≤ ⌊bits.number⌋₊ ∧ ⌊bits.number⌋₊ ≤ params.workLimit.value ∧
      littleEndian hash.bytes.toList ≤ ⌊bits.number⌋₊ := by
  have hzero : bits.target.isZero = false ↔ ¬ bits.target.value = 0 := by
    rw [Bool.eq_false_iff, Ne, Target.isZero_iff]
  rw [meets_iff, isValid_iff, negative_eq_false_iff, hzero, Target.le_iff, Target.le_iff]
  constructor
  · rintro ⟨⟨hsign, hfits, hnonzero⟩, hlimit, hhash⟩
    have hvalue := bits.value_target_eq_floor
    rw [if_neg (overflows_iff_le_number.not.mp (Bool.eq_false_iff.mp hfits))] at hvalue
    rw [hvalue] at hnonzero hlimit hhash
    have hone : 1 ≤ ⌊bits.number⌋₊ := Nat.pos_of_ne_zero hnonzero
    exact ⟨hsign.resolve_left (mantissa_ne_zero_of_floor hone), hone, hlimit, hhash⟩
  · rintro ⟨hsign, hone, hlimit, hhash⟩
    have hfits := bounded_of_floor_le hlimit
    have hvalue := bits.value_target_eq_floor
    rw [if_neg hfits] at hvalue
    rw [hvalue]
    exact ⟨⟨.inr hsign, Bool.eq_false_iff.mpr (overflows_iff_le_number.not.mpr hfits), by omega⟩,
      hlimit, hhash⟩

end BlockHash

/-- **Bits read as a number.** With the high byte of the bits as the exponent and the low 23 bits as
the mantissa, bits overflow exactly if the number they stand for is at least `2 ^ 256`, and are
negative exactly if bit 23 is set and the mantissa is not zero. Their target is the whole part of
the number, or zero if they overflow. A hash meets bits exactly if bit 23 is clear, the whole part
is at least one and at most the work limit, and the bytes of the hash, lowest first, are a number
that is at most the whole part. -/
theorem CompactBits.decode_exact (bits : CompactBits) :
    let exponent := (bits >>> 24).toNat
    let mantissa := (bits &&& 0x7fffff).toNat
    let number : ℚ := mantissa * 256 ^ ((exponent : ℤ) - 3)
    (bits.decode.overflow = true ↔ 2 ^ 256 ≤ number) ∧
      (bits.decode.negative = true ↔ mantissa ≠ 0 ∧ bits &&& 0x800000 ≠ 0) ∧
      bits.decode.target.value = (if 2 ^ 256 ≤ number then 0 else ⌊number⌋₊) ∧
      ∀ (hash : BlockHash) (params : ConsensusParams), hash.meets bits params = true ↔
        bits &&& 0x800000 = 0 ∧ 1 ≤ ⌊number⌋₊ ∧ ⌊number⌋₊ ≤ params.workLimit.value ∧
          Nat.ofDigits 256 (hash.bytes.toList.map UInt8.toNat) ≤ ⌊number⌋₊ := by
  intro exponent mantissa number
  have hnumber : number = bits.number := by
    simp only [number, mantissa, exponent, CompactBits.number, exponent_eq, mantissa_eq]
  rw [hnumber, ← signed_eq_false_iff]
  refine ⟨overflows_iff_le_number, ?_, bits.value_target_eq_floor, fun hash params => ?_⟩
  · rw [← Bool.not_eq_false, negative_eq_false_iff, mantissa_eq, not_or]
    exact and_congr Iff.rfl signed_eq_false_iff.not
  · rw [BlockHash.meets_iff_floor, littleEndian_eq_ofDigits]

end HybridConsensus
