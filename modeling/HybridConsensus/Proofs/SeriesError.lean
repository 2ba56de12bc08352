import HybridConsensus.Proofs.SeriesRun
import Mathlib.Algebra.BigOperators.Field
import Mathlib.Algebra.BigOperators.Intervals
import Mathlib.Algebra.Order.BigOperators.Group.Finset
import Mathlib.Data.Nat.Factorial.Basic
import Mathlib.Tactic.FieldSimp
import Mathlib.Tactic.GCongr
import Mathlib.Tactic.Positivity

/-!
# How exact a series is

Each term is cut from the term before it by two divisions that round down, so it lacks less than one
of its own and a share of what the one before it lacked. That share is the exponent over the index,
which is more than all of it while the index is small. But it is the share by which the exact terms
grow as well, so what a term lacks is at most the exact series of the terms before it, started at
one. All terms together lack at most one whole series for each of them. Where no operation stops at
the largest target or at zero, that is all that the sum can be off by, whatever the signs are.
-/

namespace HybridConsensus

/-! ### The exact series -/

/-- The first terms of the series of the exponential, added up. -/
def expSum (x : ℚ) (count : Nat) : ℚ :=
  ∑ n ∈ Finset.range count, x ^ n / n.factorial

section ExpSum

variable {x : ℚ} {n count : Nat}

theorem expSum_succ (x : ℚ) (count : Nat) :
    expSum x (count + 1) = expSum x count + x ^ count / count.factorial :=
  Finset.sum_range_succ _ _

theorem expSum_mono (hx : 0 ≤ x) (h : n ≤ count) : expSum x n ≤ expSum x count := by
  unfold expSum
  refine Finset.sum_le_sum_of_subset_of_nonneg (Finset.range_subset_range.mpr h) ?_
  intro k _ _
  positivity

theorem pow_div_factorial_le_expSum (hx : 0 ≤ x) (h : n < count) :
    x ^ n / n.factorial ≤ expSum x count := by
  have hterms (k : Nat) : 0 ≤ x ^ k / (k.factorial : ℚ) := by positivity
  unfold expSum
  exact Finset.single_le_sum (fun k _ => hterms k) (Finset.mem_range.mpr h)

/-- The first term is one. -/
theorem expSum_succ_eq (x : ℚ) (count : Nat) :
    expSum x (count + 1) =
      ∑ n ∈ Finset.range count, x ^ (n + 1) / (n + 1).factorial + 1 := by
  unfold expSum
  rw [Finset.sum_range_succ', pow_zero, Nat.factorial_zero, Nat.cast_one, div_one]

theorem pow_succ_div_factorial (x : ℚ) (n : Nat) :
    x ^ (n + 1) / (n + 1).factorial = x ^ n / n.factorial * (x / (n + 1)) := by
  rw [Nat.factorial_succ, pow_succ]
  push_cast
  field_simp

/-- Scaled by the share that leads to the last term, no term gets further than to the next. -/
theorem expSum_mul_add_one_le (hx : 0 ≤ x) (n : Nat) :
    expSum x n * (x / (n + 1)) + 1 ≤ expSum x (n + 1) := by
  rw [expSum_succ_eq, expSum, Finset.sum_mul]
  gcongr with k hk
  have hearlier : (k : ℚ) ≤ n := by exact_mod_cast (Finset.mem_range.mp hk).le
  rw [pow_succ_div_factorial]
  gcongr

end ExpSum

namespace Target

variable {target : Target} {magnitude divisor n last : Nat} {falling : Bool}

/-- The size of the exponent. -/
def ratio (magnitude divisor : Nat) : ℚ :=
  magnitude / divisor

theorem ratio_nonneg (magnitude divisor : Nat) : 0 ≤ ratio magnitude divisor := by
  unfold ratio
  positivity

/-! ### What a term lacks -/

def lost (target : Target) (magnitude divisor n : Nat) : ℚ :=
  target.value * (ratio magnitude divisor ^ n / n.factorial) -
    (target.termAt magnitude divisor n).value

theorem mul_share_eq (term : ℚ) (magnitude divisor n : Nat) :
    term * (ratio magnitude divisor / (n + 1)) = term * magnitude / (divisor * (n + 1)) := by
  rw [ratio, div_div, mul_div_assoc]

theorem scale_pos (hdivisor : 0 < divisor) (n : Nat) : (0 : ℚ) < divisor * (n + 1) :=
  mul_pos (Nat.cast_pos.mpr hdivisor) (Nat.cast_add_one_pos n)

theorem termAt_succ_le (hdivisor : 0 < divisor) (n : Nat) :
    ((target.termAt magnitude divisor (n + 1)).value : ℚ) ≤
      (target.termAt magnitude divisor n).value * (ratio magnitude divisor / (n + 1)) := by
  have hnext : ((target.termAt magnitude divisor (n + 1)).value : ℚ) * (n + 1) * divisor ≤
      (target.termAt magnitude divisor n).value * magnitude := by
    exact_mod_cast value_nextTerm_mul_le magnitude divisor n (target.termAt magnitude divisor n)
  rw [mul_share_eq, le_div_iff₀ (scale_pos hdivisor n)]
  linarith

theorem lt_termAt_succ_add_one (hdivisor : 0 < divisor)
    (hfits : (target.termAt magnitude divisor n).value * magnitude < 1 <<< 256) :
    (target.termAt magnitude divisor n).value * (ratio magnitude divisor / (n + 1)) <
      (target.termAt magnitude divisor (n + 1)).value + 1 := by
  have hvalue : (target.termAt magnitude divisor (n + 1)).value =
      (target.termAt magnitude divisor n).value * magnitude / (divisor * (n + 1)) := by
    have hkept : (target.termAt magnitude divisor n).value * magnitude ≤ (1 <<< 256) - 1 :=
      Nat.le_sub_one_of_lt hfits
    rw [termAt, value_nextTerm, Nat.min_eq_left hkept, Nat.div_div_eq_div_mul]
  have hnext := Nat.lt_mul_div_succ ((target.termAt magnitude divisor n).value * magnitude)
    (Nat.mul_pos hdivisor (Nat.succ_pos n))
  rw [Nat.succ_eq_add_one, ← hvalue] at hnext
  have hcast : ((target.termAt magnitude divisor n).value : ℚ) * magnitude <
      divisor * (n + 1) * ((target.termAt magnitude divisor (n + 1)).value + 1) := by
    exact_mod_cast hnext
  rw [mul_share_eq, div_lt_iff₀ (scale_pos hdivisor n)]
  linarith

theorem lost_zero (target : Target) (magnitude divisor : Nat) :
    target.lost magnitude divisor 0 = 0 := by
  simp [lost, termAt]

theorem lost_succ (target : Target) (magnitude divisor n : Nat) :
    target.lost magnitude divisor (n + 1) =
      (target.lost magnitude divisor n + (target.termAt magnitude divisor n).value) *
          (ratio magnitude divisor / (n + 1)) -
        (target.termAt magnitude divisor (n + 1)).value := by
  rw [lost, lost, pow_succ_div_factorial]
  ring

theorem share_nonneg (magnitude divisor n : Nat) : 0 ≤ ratio magnitude divisor / (n + 1) :=
  div_nonneg (ratio_nonneg magnitude divisor) (Nat.cast_add_one_pos n).le

theorem lost_nonneg (hdivisor : 0 < divisor) (target : Target) (magnitude n : Nat) :
    0 ≤ target.lost magnitude divisor n := by
  induction n with
  | zero => rw [lost_zero]
  | succ n ih =>
    have hnext : ((target.termAt magnitude divisor (n + 1)).value : ℚ) ≤ _ :=
      termAt_succ_le hdivisor n
    have hkept := mul_nonneg ih (share_nonneg magnitude divisor n)
    rw [lost_succ, add_mul]
    linarith

/-- No product for a term before `last` is above the largest target. -/
def ProductsFit (target : Target) (magnitude divisor last : Nat) : Prop :=
  ∀ n < last, (target.termAt magnitude divisor n).value * magnitude < 1 <<< 256

theorem lost_le (hdivisor : 0 < divisor) (hfits : target.ProductsFit magnitude divisor n) :
    target.lost magnitude divisor n ≤ expSum (ratio magnitude divisor) n := by
  induction n with
  | zero =>
    rw [lost_zero]
    rfl
  | succ n ih =>
    have hbefore := ih fun k hk => hfits k (Nat.lt_succ_of_lt hk)
    have hnext := lt_termAt_succ_add_one hdivisor (hfits n (Nat.lt_succ_self n))
    have hshare := share_nonneg magnitude divisor n
    rw [lost_succ, add_mul]
    -- The share may be above one, so what is lost can grow. But the exact terms grow by it as well.
    calc _ ≤ target.lost magnitude divisor n * (ratio magnitude divisor / (n + 1)) + 1 := by
          linarith
      _ ≤ expSum (ratio magnitude divisor) n * (ratio magnitude divisor / (n + 1)) + 1 := by gcongr
      _ ≤ expSum (ratio magnitude divisor) (n + 1) := expSum_mul_add_one_le (ratio_nonneg _ _) n

/-- The first term lacks nothing. -/
theorem sum_lost_le (hdivisor : 0 < divisor) (hfits : target.ProductsFit magnitude divisor last) :
    ∑ n ∈ Finset.range (last + 1), target.lost magnitude divisor n ≤
      last * expSum (ratio magnitude divisor) (last + 1) := by
  rw [Finset.sum_range_succ', lost_zero, add_zero]
  have hterm : ∀ n ∈ Finset.range last, target.lost magnitude divisor (n + 1) ≤
      expSum (ratio magnitude divisor) (last + 1) := by
    intro n hn
    have hlast := Finset.mem_range.mp hn
    have hlost := lost_le hdivisor fun k (hk : k < n + 1) =>
      hfits k (Nat.lt_of_lt_of_le hk hlast)
    exact hlost.trans (expSum_mono (ratio_nonneg _ _) (by omega))
  have hsum := Finset.sum_le_card_nsmul _ _ _ hterm
  rwa [Finset.card_range, nsmul_eq_mul] at hsum

/-! ### Steps that stop at nothing -/

/-- The term of index `n + 1` is taken away. -/
def Takes (falling : Bool) (n : Nat) : Prop :=
  falling = true ∧ n % 2 = 0

instance (falling : Bool) (n : Nat) : Decidable (Takes falling n) :=
  inferInstanceAs (Decidable (_ ∧ _))

/-- No operation of the step behind term `n` stops at the largest target or at zero. -/
structure StepFits (falling : Bool) (target : Target) (magnitude divisor n : Nat) : Prop where
  product : (target.termAt magnitude divisor n).value * magnitude < 1 <<< 256
  added : ¬ Takes falling n →
    (sumAt falling target magnitude divisor n).value +
      (target.termAt magnitude divisor (n + 1)).value < 1 <<< 256
  taken : Takes falling n →
    target.termAt magnitude divisor (n + 1) ≤ sumAt falling target magnitude divisor n

def sign (falling : Bool) : ℚ :=
  if falling then -1 else 1

theorem abs_sign (falling : Bool) : |sign falling| = 1 := by
  cases falling <;> simp [sign]

theorem sign_pow_succ (falling : Bool) (n : Nat) :
    sign falling ^ (n + 1) = if Takes falling n then -1 else 1 := by
  cases falling with
  | false => simp [sign, Takes]
  | true =>
    rcases Nat.mod_two_eq_zero_or_one n with heven | hodd
    · have hodd : Odd (n + 1) := Nat.odd_iff.mpr (by omega)
      simp [sign, Takes, heven, hodd.neg_one_pow]
    · have heven : Even (n + 1) := Nat.even_iff.mpr (by omega)
      simp [sign, Takes, hodd, heven.neg_one_pow]

theorem addTerm_succ (falling : Bool) (n : Nat) (sum term : Target) :
    addTerm falling (n + 1) sum term = if Takes falling n then sum.sub term else sum.add term := by
  have hparity : (n + 1) % 2 = 1 ↔ n % 2 = 0 := by omega
  unfold addTerm
  refine if_congr ?_ rfl rfl
  rw [Takes, Bool.and_eq_true, beq_iff_eq, hparity]

theorem StepFits.cast_sumAt_succ (h : StepFits falling target magnitude divisor n) :
    ((sumAt falling target magnitude divisor (n + 1)).value : ℚ) =
      (sumAt falling target magnitude divisor n).value +
        sign falling ^ (n + 1) * (target.termAt magnitude divisor (n + 1)).value := by
  rw [sumAt, addTerm_succ, sign_pow_succ]
  by_cases htakes : Takes falling n
  · rw [if_pos htakes, if_pos htakes, sub, Nat.cast_sub (h.taken htakes)]
    ring
  · rw [if_neg htakes, if_neg htakes, add, value_saturate_of_lt (h.added htakes), Nat.cast_add,
      one_mul]

theorem cast_sumAt (h : ∀ k < n, StepFits falling target magnitude divisor k) :
    ((sumAt falling target magnitude divisor n).value : ℚ) =
      ∑ k ∈ Finset.range (n + 1), sign falling ^ k * (target.termAt magnitude divisor k).value := by
  induction n with
  | zero => simp [sumAt, termAt]
  | succ n ih =>
    rw [(h n (Nat.lt_succ_self n)).cast_sumAt_succ, ih fun k hk => h k (Nat.lt_succ_of_lt hk),
      Finset.sum_range_succ _ (n + 1)]

theorem exact_sub_sumAt (h : ∀ k < n, StepFits falling target magnitude divisor k) :
    target.value * expSum (sign falling * ratio magnitude divisor) (n + 1) -
        (sumAt falling target magnitude divisor n).value =
      ∑ k ∈ Finset.range (n + 1), sign falling ^ k * target.lost magnitude divisor k := by
  rw [cast_sumAt h, expSum, Finset.mul_sum, ← Finset.sum_sub_distrib]
  refine Finset.sum_congr rfl fun k _ => ?_
  rw [lost, mul_pow]
  ring

theorem abs_exact_sub_sumAt_le (hdivisor : 0 < divisor)
    (h : ∀ k < last, StepFits falling target magnitude divisor k) :
    |target.value * expSum (sign falling * ratio magnitude divisor) (last + 1) -
        (sumAt falling target magnitude divisor last).value| ≤
      last * expSum (ratio magnitude divisor) (last + 1) := by
  rw [exact_sub_sumAt h]
  calc |∑ k ∈ Finset.range (last + 1), sign falling ^ k * target.lost magnitude divisor k|
      ≤ ∑ k ∈ Finset.range (last + 1), |sign falling ^ k * target.lost magnitude divisor k| :=
        Finset.abs_sum_le_sum_abs _ _
    _ = ∑ k ∈ Finset.range (last + 1), target.lost magnitude divisor k := by
        refine Finset.sum_congr rfl fun k _ => ?_
        rw [abs_mul, abs_pow, abs_sign, one_pow, one_mul,
          abs_of_nonneg (lost_nonneg hdivisor target magnitude k)]
    _ ≤ last * expSum (ratio magnitude divisor) (last + 1) :=
        sum_lost_le hdivisor fun k hk => (h k hk).product

/-! ### What makes the steps fit -/

/-- The exact sum fits in a target, also when multiplied by the magnitude. -/
def SumFits (target : Target) (magnitude divisor last : Nat) : Prop :=
  target.value * expSum (ratio magnitude divisor) (last + 1) * max (magnitude : ℚ) 1 < 2 ^ 256

theorem termAt_le_exact (hdivisor : 0 < divisor) (target : Target) (magnitude n : Nat) :
    ((target.termAt magnitude divisor n).value : ℚ) ≤
      target.value * (ratio magnitude divisor ^ n / n.factorial) :=
  sub_nonneg.mp (lost_nonneg hdivisor target magnitude n)

theorem exact_nonneg (target : Target) (magnitude divisor count : Nat) :
    0 ≤ target.value * expSum (ratio magnitude divisor) count :=
  mul_nonneg (Nat.cast_nonneg _) (Finset.sum_nonneg fun k _ =>
    div_nonneg (pow_nonneg (ratio_nonneg magnitude divisor) k) (Nat.cast_nonneg _))

theorem SumFits.exact_lt (h : target.SumFits magnitude divisor last) :
    target.value * expSum (ratio magnitude divisor) (last + 1) < 2 ^ 256 :=
  lt_of_le_of_lt
    (le_mul_of_one_le_right (exact_nonneg target magnitude divisor _) (le_max_right _ _)) h

theorem lt_bound_of_cast_lt {value : Nat} (h : (value : ℚ) < 2 ^ 256) : value < 1 <<< 256 := by
  rw [Nat.shiftLeft_eq, Nat.one_mul]
  exact_mod_cast h

theorem SumFits.product_lt (h : target.SumFits magnitude divisor last) (hdivisor : 0 < divisor)
    (hle : n ≤ last) : (target.termAt magnitude divisor n).value * magnitude < 1 <<< 256 := by
  have hterm : ((target.termAt magnitude divisor n).value : ℚ) ≤
      target.value * expSum (ratio magnitude divisor) (last + 1) :=
    (termAt_le_exact hdivisor target magnitude n).trans (mul_le_mul_of_nonneg_left
      (pow_div_factorial_le_expSum (ratio_nonneg _ _) (Nat.lt_succ_of_le hle)) (Nat.cast_nonneg _))
  have hproduct : ((target.termAt magnitude divisor n).value : ℚ) * magnitude < 2 ^ 256 :=
    lt_of_le_of_lt (mul_le_mul hterm (le_max_left _ _) (Nat.cast_nonneg _)
      (exact_nonneg target magnitude divisor _)) h
  exact lt_bound_of_cast_lt (by exact_mod_cast hproduct)

/-- A rising sum stays below the exact one. -/
theorem sumAt_rising_le (hdivisor : 0 < divisor)
    (h : ∀ k < n, StepFits false target magnitude divisor k) :
    ((sumAt false target magnitude divisor n).value : ℚ) ≤
      target.value * expSum (ratio magnitude divisor) (n + 1) := by
  have hlost : 0 ≤ ∑ k ∈ Finset.range (n + 1), target.lost magnitude divisor k :=
    Finset.sum_nonneg fun k _ => lost_nonneg hdivisor target magnitude k
  have hexact := exact_sub_sumAt h
  simp only [sign, if_neg Bool.false_ne_true, one_pow, one_mul] at hexact
  linarith

theorem SumFits.stepFits_rising (h : target.SumFits magnitude divisor last)
    (hdivisor : 0 < divisor) : ∀ n < last, StepFits false target magnitude divisor n := by
  intro n
  -- The sum so far is only known to be below the exact one if no step before this one stopped.
  induction n using Nat.strong_induction_on with
  | h n ih =>
    intro hlast
    refine ⟨h.product_lt hdivisor hlast.le, fun _ => ?_, fun htakes => nomatch htakes.1⟩
    have hbefore := sumAt_rising_le hdivisor fun k hk => ih k hk (hk.trans hlast)
    have hnext := termAt_le_exact hdivisor target magnitude (n + 1)
    have hsum : ((sumAt false target magnitude divisor n).value : ℚ) +
        (target.termAt magnitude divisor (n + 1)).value < 2 ^ 256 := by
      calc ((sumAt false target magnitude divisor n).value : ℚ) +
            (target.termAt magnitude divisor (n + 1)).value
          ≤ target.value * expSum (ratio magnitude divisor) (n + 1 + 1) := by
            rw [expSum_succ _ (n + 1), mul_add]
            exact add_le_add hbefore hnext
        _ ≤ target.value * expSum (ratio magnitude divisor) (last + 1) :=
            mul_le_mul_of_nonneg_left (expSum_mono (ratio_nonneg _ _) (by omega))
              (Nat.cast_nonneg _)
        _ < 2 ^ 256 := h.exact_lt
    exact lt_bound_of_cast_lt (by exact_mod_cast hsum)

/-- No term is larger than the one before it. So a sum that a term was added to has room for the
next to be taken away, and one that a term was taken from has room up to the target for the next. -/
theorem sumAt_falling_between (h : magnitude ≤ divisor) (target : Target) (n : Nat) :
    (n % 2 = 0 → target.termAt magnitude divisor n ≤ sumAt true target magnitude divisor n ∧
      sumAt true target magnitude divisor n ≤ target) ∧
    (n % 2 = 1 → (sumAt true target magnitude divisor n).value +
      (target.termAt magnitude divisor n).value ≤ target.value) := by
  induction n with
  | zero => exact ⟨fun _ => ⟨Nat.le_refl _, Nat.le_refl _⟩, fun hodd => nomatch hodd⟩
  | succ n ih =>
    have hnext : (target.termAt magnitude divisor (n + 1)).value ≤
        (target.termAt magnitude divisor n).value := nextTerm_le h n _
    obtain ⟨hadded, htaken⟩ := ih
    rw [le_iff, le_iff] at hadded
    constructor
    · intro heven
      have hsum := value_addTerm_even heven (sumAt true target magnitude divisor n)
        (target.termAt magnitude divisor (n + 1)) target (by omega)
      rw [le_iff, le_iff, sumAt]
      omega
    · intro hodd
      have hsum := value_addTerm_odd hodd (sumAt true target magnitude divisor n)
        (target.termAt magnitude divisor (n + 1))
      rw [sumAt]
      omega

theorem SumFits.stepFits_falling (h : target.SumFits magnitude divisor last)
    (hdivisor : 0 < divisor) (hle : magnitude ≤ divisor) :
    ∀ n < last, StepFits true target magnitude divisor n := by
  intro n hlast
  obtain ⟨hadded, htaken⟩ := sumAt_falling_between hle target n
  have hnext : (target.termAt magnitude divisor (n + 1)).value ≤
      (target.termAt magnitude divisor n).value := nextTerm_le hle n _
  refine ⟨h.product_lt hdivisor hlast.le, fun hadds => ?_, fun htakes => ?_⟩
  · have hodd : n % 2 = 1 := by
      have hnot : ¬ n % 2 = 0 := fun heven => hadds ⟨rfl, heven⟩
      omega
    exact Nat.lt_of_le_of_lt
      (Nat.le_trans (Nat.add_le_add_left hnext _) (htaken hodd)) target.bounded
  · exact Nat.le_trans hnext (hadded htakes.2).1

/-! ### The exponential -/

variable {p q : Int}

theorem ratio_eq (hq : 1 ≤ q) (p : Int) : ratio p.natAbs q.toNat = |(p : ℚ)| / q := by
  have hdivisor : ((q.toNat : ℤ) : ℚ) = q := by rw [Int.toNat_of_nonneg (by omega)]
  rw [ratio, Nat.cast_natAbs, Int.cast_abs, ← hdivisor, Int.cast_natCast]

/-- A falling exponential takes away no more than the first term, which is cut off only at the
bottom or at the largest target. -/
theorem mulExp_between (hp : p < 0) (hpq : |p| ≤ q) (target : Target) :
    (target.value : ℤ) - target.value * |p| / q ≤ (target.mulExp p q).value ∧
      target.mulExp p q ≤ target := by
  rw [Int.abs_eq_natAbs] at hpq ⊢
  have hle : p.natAbs ≤ (max q 1).toNat := by omega
  obtain ⟨hlow, hhigh⟩ := (addTerms_between hle (termBound p.natAbs (max q 1).toNat) 0 target
    target).1 rfl (Nat.le_refl _)
  rw [← mulExp_of_falling hp] at hlow hhigh
  refine ⟨?_, hhigh⟩
  have hfirst : (nextTerm p.natAbs (max q 1).toNat 0 target).value ≤
      target.value * p.natAbs / (max q 1).toNat := by
    rw [value_nextTerm, Nat.zero_add, Nat.div_one]
    exact Nat.div_le_div_right (Nat.min_le_left _ _)
  have hshare : (target.value : ℤ) * p.natAbs / q =
      ((target.value * p.natAbs / (max q 1).toNat : ℕ) : ℤ) := by
    rw [Int.natCast_ediv, Nat.cast_mul, Int.toNat_of_nonneg (by omega), max_eq_left (by omega)]
  omega

/-- **How exact a series is.** Take any start, and an exponent not below minus one over a divisor of
at least one. Add up the exact terms for the size of the exponent, as many as the series has, and
let the start times that sum fit below the largest target, also when multiplied by the numerator.
Then no step stops at the largest target or at zero. A rising exponential is at most the exact sum,
and lacks at most the sum started at one for each step. A falling one is no further than that from
the exact sum with signs, and ends between the start and what the first term leaves of it. -/
theorem mulExp_tracks_series (target : Target) (p q : Int) (hq : 1 ≤ q)
    (hp : 0 ≤ p ∨ |p| ≤ q) :
    let steps := target.steps p q
    let x : ℚ := |(p : ℚ)| / q
    let series := expSum x (steps + 1)
    target.value * series * max |(p : ℚ)| 1 < 2 ^ 256 →
      (∀ n < steps, StepFits (decide (p < 0)) target p.natAbs q.toNat n) ∧
      (0 ≤ p → (target.value - steps) * series ≤ (target.mulExp p q).value ∧
        (target.mulExp p q).value ≤ target.value * series) ∧
      (p < 0 →
        |(target.mulExp p q).value - target.value * expSum (-x) (steps + 1)| ≤ steps * series ∧
        (target.value : ℤ) - target.value * |p| / q ≤ (target.mulExp p q).value ∧
        target.mulExp p q ≤ target) := by
  intro steps x series hexact
  have hdivisor : 0 < q.toNat := by omega
  have hx : ratio p.natAbs q.toNat = x := ratio_eq hq p
  have hfits : target.SumFits p.natAbs q.toNat steps := by
    rw [SumFits, hx, Nat.cast_natAbs, Int.cast_abs]
    exact hexact
  have hresult : target.mulExp p q = sumAt (decide (p < 0)) target p.natAbs q.toNat steps := by
    rw [mulExp_eq_sumAt, max_eq_left hq]
  rcases Int.lt_or_le p 0 with hfalling | hrising
  · have hpq : |p| ≤ q := hp.resolve_left (Int.not_le.mpr hfalling)
    have hle : p.natAbs ≤ q.toNat := by
      rw [Int.abs_eq_natAbs] at hpq
      omega
    have hsteps := hfits.stepFits_falling hdivisor hle
    have herror := abs_exact_sub_sumAt_le hdivisor hsteps
    rw [decide_eq_true hfalling] at hresult ⊢
    rw [← hresult, hx, sign, if_pos rfl, neg_one_mul, abs_sub_comm] at herror
    exact ⟨hsteps, fun hrising => absurd hfalling (Int.not_lt.mpr hrising),
      fun _ => ⟨herror, mulExp_between hfalling hpq target⟩⟩
  · have hsteps := hfits.stepFits_rising hdivisor
    have hbelow := sumAt_rising_le hdivisor hsteps
    have herror := (le_abs_self _).trans (abs_exact_sub_sumAt_le hdivisor hsteps)
    rw [decide_eq_false (Int.not_lt.mpr hrising)] at hresult ⊢
    rw [← hresult, hx] at hbelow herror
    rw [sign, if_neg Bool.false_ne_true, one_mul] at herror
    refine ⟨hsteps, fun _ => ⟨?_, hbelow⟩, fun hfalling => absurd hfalling (Int.not_lt.mpr hrising)⟩
    rw [sub_mul]
    linarith

/-- A billion times the exponential of minus a tenth: the seventh term is zero. -/
theorem mulExp_tracks_series_of_minus_tenth :
    let target : Target := .saturate 1000000000
    let series := expSum (|((-10 : Int) : ℚ)| / (100 : Int)) 8
    target.steps (-10) 100 = 7 ∧ target.value * series * max |((-10 : Int) : ℚ)| 1 < 2 ^ 256 ∧
      (∀ n < 7, StepFits true target 10 100 n) ∧ (target.mulExp (-10) 100).value = 904837418 ∧
      |(target.mulExp (-10) 100).value -
        target.value * expSum (-(|((-10 : Int) : ℚ)| / (100 : Int))) 8| ≤ 7 * series := by
  intro target series
  have hsteps : target.steps (-10) 100 = 7 := by
    unfold steps
    rw [Nat.find_eq_iff]
    decide +kernel
  have hfits : target.value * series * max |((-10 : Int) : ℚ)| 1 < 2 ^ 256 := by
    decide +kernel
  have hseries := mulExp_tracks_series target (-10) 100 (by decide) (.inr (by decide))
  rw [hsteps] at hseries
  obtain ⟨hfit, -, hfalls⟩ := hseries hfits
  exact ⟨hsteps, hfits, hfit, by decide +kernel, (hfalls (by decide)).1⟩

end Target

end HybridConsensus
