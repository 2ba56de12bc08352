import HybridConsensus.Target.Series
import Mathlib.Tactic.Linarith
import Mathlib.Tactic.Ring

/-!
# How far a truncated series goes

A rising exponential only adds, so it ends no lower than it started, also where a product stops at
the largest target. A falling one takes terms away and gives some of them back. While the exponent
is not below minus one no term is larger than the one before it, so whatever is added up ends
between any two sums in a row. Between the first two that is no more than the start. Between the
third and the fourth it is a third of it, up to one: the first term takes away at most everything,
and the second gives back the square of that share, halved. Only the first product can be too large,
and if it is, less is taken away.
-/

namespace HybridConsensus.Target

variable {magnitude divisor n fuel : Nat} {falling : Bool} {target term sum : Target}

/-! ### Terms -/

theorem value_nextTerm (magnitude divisor n : Nat) (term : Target) :
    (nextTerm magnitude divisor n term).value =
      min (term.value * magnitude) ((1 <<< 256) - 1) / divisor / (n + 1) :=
  rfl

theorem value_nextTerm_mul_le (magnitude divisor n : Nat) (term : Target) :
    (nextTerm magnitude divisor n term).value * (n + 1) * divisor ≤ term.value * magnitude := by
  rw [value_nextTerm]
  generalize hproduct : min (term.value * magnitude) ((1 <<< 256) - 1) = product
  calc product / divisor / (n + 1) * (n + 1) * divisor
      ≤ product / divisor * divisor := Nat.mul_le_mul_right _ (Nat.div_mul_le_self _ _)
    _ ≤ product := Nat.div_mul_le_self _ _
    _ ≤ term.value * magnitude := hproduct ▸ Nat.min_le_left _ _

theorem nextTerm_mul_le (h : magnitude ≤ divisor) (n : Nat) (term : Target) :
    (nextTerm magnitude divisor n term).value * (n + 1) ≤ term.value := by
  rw [value_nextTerm]
  calc min (term.value * magnitude) ((1 <<< 256) - 1) / divisor / (n + 1) * (n + 1)
      ≤ min (term.value * magnitude) ((1 <<< 256) - 1) / divisor := Nat.div_mul_le_self _ _
    _ ≤ term.value * magnitude / divisor := Nat.div_le_div_right (Nat.min_le_left _ _)
    _ ≤ term.value := Nat.div_le_of_le_mul (by
        rw [Nat.mul_comm divisor]
        exact Nat.mul_le_mul_left _ h)

theorem nextTerm_le (h : magnitude ≤ divisor) (n : Nat) (term : Target) :
    nextTerm magnitude divisor n term ≤ term :=
  Nat.le_trans (Nat.le_mul_of_pos_right _ (Nat.succ_pos n)) (nextTerm_mul_le h n term)

theorem value_nextTerm_of_zero (h : term.value * magnitude = 0) :
    (nextTerm magnitude divisor n term).value = 0 := by
  rw [value_nextTerm, h, Nat.zero_min, Nat.zero_div, Nat.zero_div]

/-! ### Sums -/

theorem value_add_of_le {left right bound : Target} (h : left.value + right.value ≤ bound.value) :
    (left.add right).value = left.value + right.value :=
  value_saturate_of_lt (Nat.lt_of_le_of_lt h bound.bounded)

theorem le_add (left right : Target) : left ≤ left.add right := by
  have hbounded := left.bounded
  simp only [le_iff, add, saturate]
  omega

theorem addTerm_of_zero (h : term.value = 0) : addTerm falling n sum term = sum := by
  apply ext
  unfold addTerm
  split
  · exact congrArg (sum.value - ·) h
  · have hkept : sum.value + term.value ≤ sum.value := by omega
    rw [value_add_of_le hkept, h, Nat.add_zero]

theorem addTerms_of_zero (h : term.value = 0) :
    addTerms falling magnitude divisor fuel n term sum = sum := by
  cases fuel with
  | zero => rfl
  | succ fuel => exact if_pos (isZero_iff.mpr h)

/-- A term of zero has only terms of zero behind it, so the stop at one changes nothing. -/
theorem addTerms_succ (falling : Bool) (magnitude divisor fuel n : Nat) (term sum : Target) :
    addTerms falling magnitude divisor (fuel + 1) n term sum =
      addTerms falling magnitude divisor fuel (n + 1) (nextTerm magnitude divisor n term)
        (addTerm falling (n + 1) sum (nextTerm magnitude divisor n term)) := by
  by_cases hzero : term.value = 0
  · have hnext : (nextTerm magnitude divisor n term).value = 0 :=
      value_nextTerm_of_zero (by rw [hzero, Nat.zero_mul])
    rw [addTerms_of_zero hzero, addTerms_of_zero hnext, addTerm_of_zero hnext]
  · exact if_neg (isZero_iff.not.mpr hzero)

theorem le_addTerms (magnitude divisor fuel n : Nat) (term sum : Target) :
    sum ≤ addTerms false magnitude divisor fuel n term sum := by
  induction fuel generalizing n term sum with
  | zero => exact Nat.le_refl _
  | succ fuel ih =>
    rw [addTerms_succ]
    exact Nat.le_trans (le_add _ _) (ih _ _ _)

/-! ### A falling series -/

theorem value_addTerm_odd (h : n % 2 = 1) (sum term : Target) :
    (addTerm true n sum term).value = sum.value - term.value := by
  unfold addTerm
  rw [if_pos (by simp [h])]
  rfl

theorem value_addTerm_even (h : n % 2 = 0) (sum term bound : Target)
    (hbound : sum.value + term.value ≤ bound.value) :
    (addTerm true n sum term).value = sum.value + term.value := by
  unfold addTerm
  rw [if_neg (by simp [h]), value_add_of_le hbound]

/-- Behind a term that was added, the rest takes away at most the next term. Behind one that was
taken away, it gives back at most the next. The next term is never above what is left to take it
from, so no difference stops at zero and no sum at the largest target. -/
theorem addTerms_between (h : magnitude ≤ divisor) (fuel n : Nat) (term sum : Target) :
    (n % 2 = 0 → term ≤ sum →
      sum.value - (nextTerm magnitude divisor n term).value ≤
          (addTerms true magnitude divisor fuel n term sum).value ∧
        addTerms true magnitude divisor fuel n term sum ≤ sum) ∧
    (n % 2 = 1 → ∀ bound : Target, sum.value + term.value ≤ bound.value →
      sum ≤ addTerms true magnitude divisor fuel n term sum ∧
        (addTerms true magnitude divisor fuel n term sum).value ≤
          sum.value + (nextTerm magnitude divisor n term).value) := by
  induction fuel generalizing n term sum with
  | zero =>
    exact ⟨fun _ _ => ⟨Nat.sub_le _ _, Nat.le_refl _⟩,
      fun _ _ _ => ⟨Nat.le_refl _, Nat.le_add_right _ _⟩⟩
  | succ fuel ih =>
    have hnext : (nextTerm magnitude divisor n term).value ≤ term.value := nextTerm_le h n term
    have hafter : (nextTerm magnitude divisor (n + 1) (nextTerm magnitude divisor n term)).value ≤
        (nextTerm magnitude divisor n term).value := nextTerm_le h _ _
    rw [addTerms_succ]
    obtain ⟨hadded, htaken⟩ := ih (n + 1) (nextTerm magnitude divisor n term)
      (addTerm true (n + 1) sum (nextTerm magnitude divisor n term))
    constructor
    · intro heven hroom
      rw [le_iff] at hroom
      have hsum := value_addTerm_odd (by omega : (n + 1) % 2 = 1) sum
        (nextTerm magnitude divisor n term)
      obtain ⟨hlow, hhigh⟩ := htaken (by omega) sum (by omega)
      rw [le_iff] at hlow ⊢
      omega
    · intro hodd bound hroom
      have hsum := value_addTerm_even (by omega : (n + 1) % 2 = 0) sum
        (nextTerm magnitude divisor n term) bound (by omega)
      obtain ⟨hlow, hhigh⟩ := hadded (by omega) (by rw [le_iff]; omega)
      rw [le_iff] at hhigh ⊢
      omega

/-- The first term takes away its share of the start, and the second gives back half of that share
of the first. A third of the start is left, up to one. -/
theorem three_mul_first_le {start first second : Nat} (hle : first ≤ start)
    (hfirst : first * divisor ≤ start * magnitude)
    (hsecond : first * magnitude < (2 * second + 2) * divisor) :
    3 * first ≤ 2 * start + 2 * second + 1 := by
  by_contra hmore
  obtain ⟨rest, rfl⟩ := Nat.exists_eq_add_of_le hle
  have hroom : 2 * second + 2 + 2 * rest ≤ first := by omega
  have hless : first * magnitude + 2 * rest * divisor < first * divisor := by
    calc first * magnitude + 2 * rest * divisor
        < (2 * second + 2) * divisor + 2 * rest * divisor := Nat.add_lt_add_right hsecond _
      _ = (2 * second + 2 + 2 * rest) * divisor := by ring
      _ ≤ first * divisor := Nat.mul_le_mul_right _ hroom
  have hsquares : first * (first * divisor) + 2 * (rest * ((first + rest) * divisor)) <
      first * (first * divisor) + rest * (first * divisor) := by
    calc first * (first * divisor) + 2 * (rest * ((first + rest) * divisor))
        ≤ first * ((first + rest) * magnitude) + 2 * (rest * ((first + rest) * divisor)) :=
          Nat.add_le_add_right (Nat.mul_le_mul_left _ hfirst) _
      _ = (first + rest) * (first * magnitude + 2 * rest * divisor) := by ring
      _ < (first + rest) * (first * divisor) := Nat.mul_lt_mul_of_pos_left hless (by omega)
      _ = first * (first * divisor) + rest * (first * divisor) := by ring
  have hsmall : rest * (first * divisor) ≤ rest * ((first + rest) * divisor) :=
    Nat.mul_le_mul_left _ (Nat.mul_le_mul_right _ (Nat.le_add_right _ _))
  omega

/-- Only the product for the first term can be above the largest target. -/
theorem first_mul_lt (h : magnitude ≤ divisor) (hdivisor : 0 < divisor) (target : Target) :
    (nextTerm magnitude divisor 0 target).value * magnitude <
      (2 * (nextTerm magnitude divisor 1 (nextTerm magnitude divisor 0 target)).value + 2) *
        divisor := by
  generalize hfirst : nextTerm magnitude divisor 0 target = first
  have hproduct : first.value * magnitude ≤ (1 <<< 256) - 1 := by
    calc first.value * magnitude
        ≤ first.value * divisor := Nat.mul_le_mul_left _ h
      _ ≤ min (target.value * magnitude) ((1 <<< 256) - 1) := by
          rw [← hfirst, value_nextTerm, Nat.zero_add, Nat.div_one]
          exact Nat.div_mul_le_self _ _
      _ ≤ (1 <<< 256) - 1 := Nat.min_le_right _ _
  rw [value_nextTerm, Nat.min_eq_left hproduct, ← Nat.div_lt_iff_lt_mul hdivisor]
  omega

theorem bounds_addTerms_falling (h : magnitude ≤ divisor) (hdivisor : 0 < divisor) (fuel : Nat)
    (target : Target) :
    addTerms true magnitude divisor (fuel + 2) 0 target target ≤ target ∧
      target.value ≤
        3 * (addTerms true magnitude divisor (fuel + 2) 0 target target).value + 1 := by
  refine ⟨((addTerms_between h _ 0 target target).1 rfl (Nat.le_refl _)).2, ?_⟩
  have hfirst : (nextTerm magnitude divisor 0 target).value ≤ target.value := nextTerm_le h 0 target
  have hshare := value_nextTerm_mul_le magnitude divisor 0 target
  rw [Nat.zero_add, Nat.mul_one] at hshare
  have hleft := three_mul_first_le hfirst hshare (first_mul_lt h hdivisor target)
  have hunrolled : addTerms true magnitude divisor (fuel + 2) 0 target target =
      addTerms true magnitude divisor fuel 2
        (nextTerm magnitude divisor 1 (nextTerm magnitude divisor 0 target))
        (addTerm true 2 (addTerm true 1 target (nextTerm magnitude divisor 0 target))
          (nextTerm magnitude divisor 1 (nextTerm magnitude divisor 0 target))) := by
    rw [addTerms_succ, addTerms_succ]
  rw [hunrolled]
  generalize nextTerm magnitude divisor 0 target = first at *
  have hsecond : (nextTerm magnitude divisor 1 first).value ≤ first.value := nextTerm_le h 1 first
  generalize nextTerm magnitude divisor 1 first = second at *
  have hthird := nextTerm_mul_le h 2 second
  have hafterFirst := value_addTerm_odd (rfl : 1 % 2 = 1) target first
  have hafterSecond := value_addTerm_even (rfl : 2 % 2 = 0) (addTerm true 1 target first) second
    target (by omega)
  have hrest := ((addTerms_between h fuel 2 second _).1 rfl
    (by rw [le_iff, hafterSecond]; omega)).1
  rw [hafterSecond, hafterFirst] at hrest
  omega

/-! ### The exponential -/

variable {p q : Int}

theorem mulExp_of_falling (h : p < 0) (target : Target) (q : Int) :
    target.mulExp p q = addTerms true p.natAbs (max q 1).toNat
      (termBound p.natAbs (max q 1).toNat) 0 target target := by
  unfold mulExp
  simp only [h, decide_true]

theorem mulExp_of_rising (h : 0 ≤ p) (target : Target) (q : Int) :
    target.mulExp p q = addTerms false p.natAbs (max q 1).toNat
      (termBound p.natAbs (max q 1).toNat) 0 target target := by
  unfold mulExp
  simp only [Int.not_lt.mpr h, decide_false]

theorem le_mulExp (h : 0 ≤ p) (target : Target) (q : Int) : target ≤ target.mulExp p q := by
  rw [mulExp_of_rising h]
  exact le_addTerms _ _ _ _ _ _

theorem mulExp_zero (target : Target) (q : Int) : target.mulExp 0 q = target := by
  rw [mulExp_of_rising (Int.le_refl 0), termBound, addTerms_succ]
  have hnext : (nextTerm (0 : Int).natAbs (max q 1).toNat 0 target).value = 0 :=
    value_nextTerm_of_zero (Nat.mul_zero _)
  rw [addTerms_of_zero hnext, addTerm_of_zero hnext]

/-- An exponential that falls, but not faster than by minus one, ends between a third of the start
and all of it. -/
theorem mulExp_bounds_of_falling (hp : p ≤ 0) (hpq : -p ≤ max q 1) (target : Target) :
    target.mulExp p q ≤ target ∧ target.value ≤ 3 * (target.mulExp p q).value + 1 := by
  rcases Int.lt_or_eq_of_le hp with hfalling | rfl
  · rw [mulExp_of_falling hfalling, termBound]
    exact bounds_addTerms_falling (by omega) (by omega) _ target
  · rw [mulExp_zero]
    exact ⟨Nat.le_refl _, by omega⟩

end HybridConsensus.Target
