import HybridConsensus.Target.Basic

/-!
# The exponential series on targets

`target * exp (p / q)` as the sum of `target * (p / q) ^ n / n!`, each term taken from the one
before it by two divisions that round down, until a term is zero. All nodes add the same terms in
the same order, so all get the same target.
-/

namespace HybridConsensus.Target

/-- Term `n + 1` from term `n`. -/
def nextTerm (magnitude divisor n : Nat) (term : Target) : Target :=
  ((term.mul magnitude).div divisor).div (n + 1)

/-- An odd term of a falling exponential is taken away, every other one added. -/
def addTerm (falling : Bool) (n : Nat) (sum term : Target) : Target :=
  if falling && n % 2 == 1 then sum.sub term else sum.add term

/-- Adds the terms behind `term`, which has index `n`, to `sum`. -/
def addTerms (falling : Bool) (magnitude divisor : Nat) :
    (fuel n : Nat) → (term sum : Target) → Target
  | 0, _, _, sum => sum
  | fuel + 1, n, term, sum =>
    if term.isZero then sum
    else
      let next := nextTerm magnitude divisor n term
      addTerms falling magnitude divisor fuel (n + 1) next (addTerm falling (n + 1) sum next)

/-- From index `2 * magnitude / divisor` on each term is at most half the one before it, so no
series has more terms than this. -/
def termBound (magnitude divisor : Nat) : Nat :=
  2 * magnitude / divisor + 259

/-- A divisor below one counts as one. -/
def mulExp (target : Target) (p q : Int) : Target :=
  let divisor := (max q 1).toNat
  addTerms (p < 0) p.natAbs divisor (termBound p.natAbs divisor) 0 target target

end HybridConsensus.Target
