import HybridConsensus.Proofs.SeriesBounds
import Mathlib.Data.Nat.Find
import Mathlib.Data.Rat.Floor

/-!
# How long a series runs

Nothing limits the exponent of a series, so its first terms can grow, or stay at the largest target,
for as long as the index is below the exponent. But from twice the exponent on each term is at most
half the one before it. No target is halved more than 256 times before it is zero, and a term of
zero ends the series. The fuel of the sum is more than that, so it is never what ends it.
-/

namespace HybridConsensus.Target

variable {magnitude divisor n fuel : Nat} {falling : Bool} {target : Target} {p q : Int}

/-- The term of index `n`. -/
def termAt (target : Target) (magnitude divisor : Nat) : Nat → Target
  | 0 => target
  | n + 1 => nextTerm magnitude divisor n (target.termAt magnitude divisor n)

/-- The terms up to index `n`, added up. -/
def sumAt (falling : Bool) (target : Target) (magnitude divisor : Nat) : Nat → Target
  | 0 => target
  | n + 1 =>
    addTerm falling (n + 1) (sumAt falling target magnitude divisor n)
      (target.termAt magnitude divisor (n + 1))

theorem addTerms_eq_sumAt (falling : Bool) (target : Target) (magnitude divisor fuel n : Nat) :
    addTerms falling magnitude divisor fuel n (target.termAt magnitude divisor n)
        (sumAt falling target magnitude divisor n) =
      sumAt falling target magnitude divisor (n + fuel) := by
  induction fuel generalizing n with
  | zero => rfl
  | succ fuel ih =>
    have hnext := ih (n + 1)
    rw [Nat.add_right_comm, Nat.add_assoc] at hnext
    rw [addTerms_succ, ← hnext]
    rfl

/-! ### After a term of zero -/

theorem value_termAt_of_zero {last : Nat} (hzero : (target.termAt magnitude divisor last).value = 0)
    (hle : last ≤ n) : (target.termAt magnitude divisor n).value = 0 := by
  induction n, hle using Nat.le_induction with
  | base => exact hzero
  | succ n _ ih => exact value_nextTerm_of_zero (by rw [ih, Nat.zero_mul])

theorem sumAt_of_zero {last : Nat} (hzero : (target.termAt magnitude divisor last).value = 0)
    (hle : last ≤ n) :
    sumAt falling target magnitude divisor n = sumAt falling target magnitude divisor last := by
  induction n, hle using Nat.le_induction with
  | base => rfl
  | succ n hle ih =>
    rw [sumAt, addTerm_of_zero (value_termAt_of_zero hzero (Nat.le_succ_of_le hle)), ih]

/-! ### Until a term of zero -/

theorem two_mul_termAt_succ_le (hdivisor : 0 < divisor)
    (hlate : 2 * magnitude ≤ divisor * (n + 1)) :
    2 * (target.termAt magnitude divisor (n + 1)).value ≤
      (target.termAt magnitude divisor n).value := by
  have hnext :
      (target.termAt magnitude divisor (n + 1)).value * (n + 1) * divisor ≤
        (target.termAt magnitude divisor n).value * magnitude :=
    value_nextTerm_mul_le magnitude divisor n _
  generalize (target.termAt magnitude divisor (n + 1)).value = next at *
  generalize (target.termAt magnitude divisor n).value = current at *
  have hpositive : 0 < divisor * (n + 1) := Nat.mul_pos hdivisor (Nat.succ_pos n)
  refine Nat.le_of_mul_le_mul_right ?_ hpositive
  calc 2 * next * (divisor * (n + 1))
      = 2 * (next * (n + 1) * divisor) := by ring
    _ ≤ 2 * (current * magnitude) := Nat.mul_le_mul_left 2 hnext
    _ = current * (2 * magnitude) := by ring
    _ ≤ current * (divisor * (n + 1)) := Nat.mul_le_mul_left current hlate

theorem value_termAt_mul_le (hdivisor : 0 < divisor) {first : Nat}
    (hlate : 2 * magnitude ≤ divisor * (first + 1)) (more : Nat) :
    (target.termAt magnitude divisor (first + more)).value * 2 ^ more ≤
      (target.termAt magnitude divisor first).value := by
  induction more with
  | zero => rw [Nat.add_zero, pow_zero, Nat.mul_one]
  | succ more ih =>
    have hlater : 2 * magnitude ≤ divisor * (first + more + 1) :=
      Nat.le_trans hlate (Nat.mul_le_mul_left _ (by omega))
    calc (target.termAt magnitude divisor (first + more + 1)).value * 2 ^ (more + 1)
        = 2 * (target.termAt magnitude divisor (first + more + 1)).value * 2 ^ more := by ring
      _ ≤ (target.termAt magnitude divisor (first + more)).value * 2 ^ more :=
          Nat.mul_le_mul_right _ (two_mul_termAt_succ_le hdivisor hlater)
      _ ≤ (target.termAt magnitude divisor first).value := ih

theorem value_termAt_eq_zero (hdivisor : 0 < divisor) {first : Nat}
    (hlate : 2 * magnitude ≤ divisor * (first + 1)) :
    (target.termAt magnitude divisor (first + 256)).value = 0 := by
  have hhalved : (target.termAt magnitude divisor (first + 256)).value * 2 ^ 256 ≤
      (target.termAt magnitude divisor first).value :=
    value_termAt_mul_le hdivisor hlate 256
  have hbounded : (target.termAt magnitude divisor first).value < 2 ^ 256 :=
    (target.termAt magnitude divisor first).bounded
  omega

/-! ### The steps of an exponential -/

theorem divisor_pos (q : Int) : 0 < (max q 1).toNat := by
  omega

theorem exists_termAt_eq_zero (target : Target) (p q : Int) :
    ∃ n, (target.termAt p.natAbs (max q 1).toNat n).value = 0 := by
  have hlate : 2 * p.natAbs ≤ (max q 1).toNat * (2 * p.natAbs + 1) :=
    Nat.le_trans (Nat.le_succ _) (Nat.le_mul_of_pos_left _ (divisor_pos q))
  exact ⟨_, value_termAt_eq_zero (divisor_pos q) hlate⟩

/-- How many terms are added before one is zero, that one included. -/
def steps (target : Target) (p q : Int) : Nat :=
  Nat.find (target.exists_termAt_eq_zero p q)

theorem value_termAt_steps (target : Target) (p q : Int) :
    (target.termAt p.natAbs (max q 1).toNat (target.steps p q)).value = 0 :=
  Nat.find_spec (target.exists_termAt_eq_zero p q)

theorem steps_le (h : (target.termAt p.natAbs (max q 1).toNat n).value = 0) :
    target.steps p q ≤ n :=
  Nat.find_min' _ h

theorem steps_le_of_late {first : Nat} (hlate : 2 * p.natAbs ≤ (max q 1).toNat * (first + 1)) :
    target.steps p q ≤ first + 256 :=
  steps_le (value_termAt_eq_zero (divisor_pos q) hlate)

theorem two_mul_le_of_ceil (p q : Int) :
    2 * p.natAbs ≤ (max q 1).toNat * ⌈2 * |(p : ℚ)| / max (q : ℚ) 1⌉₊ := by
  have hdivisor : max (q : ℚ) 1 = ((max q 1).toNat : ℚ) := by
    rw [← Int.cast_natCast, Int.toNat_of_nonneg (by omega), Int.cast_max, Int.cast_one]
  have hpositive : (0 : ℚ) < ((max q 1).toNat : ℚ) := Nat.cast_pos.mpr (divisor_pos q)
  have hceil := Nat.le_ceil (2 * |(p : ℚ)| / max (q : ℚ) 1)
  generalize ⌈2 * |(p : ℚ)| / max (q : ℚ) 1⌉₊ = ceiling at *
  rw [hdivisor, div_le_iff₀' hpositive, ← Int.cast_abs, ← Nat.cast_natAbs] at hceil
  exact_mod_cast hceil

theorem steps_le_ceil (target : Target) (p q : Int) :
    target.steps p q ≤ ⌈2 * |(p : ℚ)| / max (q : ℚ) 1⌉₊ + 257 := by
  have hceil := two_mul_le_of_ceil p q
  refine Nat.le_trans (steps_le_of_late (Nat.le_trans hceil ?_)) (Nat.le_succ _)
  exact Nat.mul_le_mul_left _ (Nat.le_succ _)

theorem steps_le_termBound (target : Target) (p q : Int) :
    target.steps p q ≤ termBound p.natAbs (max q 1).toNat := by
  have hquotient := Nat.lt_mul_div_succ (2 * p.natAbs) (divisor_pos q)
  exact Nat.le_trans (steps_le_of_late (Nat.le_of_lt hquotient)) (by unfold termBound; omega)

/-- Whatever ends the sum, it is not the fuel. -/
theorem addTerms_of_steps_le (h : target.steps p q ≤ fuel) :
    addTerms (decide (p < 0)) p.natAbs (max q 1).toNat fuel 0 target target =
      sumAt (decide (p < 0)) target p.natAbs (max q 1).toNat (target.steps p q) := by
  rw [← sumAt_of_zero (target.value_termAt_steps p q) h]
  have hrun := addTerms_eq_sumAt (decide (p < 0)) target p.natAbs (max q 1).toNat fuel 0
  rw [Nat.zero_add] at hrun
  exact hrun

theorem mulExp_eq_sumAt (target : Target) (p q : Int) :
    target.mulExp p q =
      sumAt (decide (p < 0)) target p.natAbs (max q 1).toNat (target.steps p q) :=
  addTerms_of_steps_le (target.steps_le_termBound p q)

end HybridConsensus.Target
