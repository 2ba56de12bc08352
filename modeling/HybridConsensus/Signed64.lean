/-!
# Signed 64-bit arithmetic

Times and spacings are signed 64-bit numbers. The arithmetic on them is that of the integers with a
check on each result: one that does not fit, or a division by zero, is a fault and ends the
computation.
-/

namespace HybridConsensus

inductive Fault
  | overflow
  | divisionByZero
deriving DecidableEq, Repr

namespace Signed64

def smallest : Int := -0x8000000000000000

def largest : Int := 0x7fffffffffffffff

def InRange (value : Int) : Prop :=
  smallest ≤ value ∧ value ≤ largest

instance (value : Int) : Decidable (InRange value) :=
  inferInstanceAs (Decidable (_ ∧ _))

def check (value : Int) : Except Fault Int :=
  if InRange value then .ok value else .error .overflow

/-- The number nearest to `value` that fits. -/
def clamp (value : Int) : Int :=
  max smallest (min value largest)

/-- Rounds toward zero. -/
def divide (value divisor : Int) : Except Fault Int :=
  if divisor = 0 then .error .divisionByZero else check (value.tdiv divisor)

/-- The 64 bits of `value`, read without a sign. -/
def unsigned (value : Int) : Nat :=
  (value % UInt64.size).toNat

/-- Counts are unsigned, with 64 bits as well. -/
def checkUnsigned (value : Nat) : Except Fault Nat :=
  if value < UInt64.size then .ok value else .error .overflow

theorem check_eq_ok {value : Int} (h : InRange value) : check value = .ok value :=
  if_pos h

theorem check_of_nonneg {value : Int} (hlow : 0 ≤ value) (hhigh : value ≤ largest) :
    check value = .ok value :=
  check_eq_ok ⟨Int.le_trans (by decide) hlow, hhigh⟩

theorem check_eq_ok_iff {value result : Int} :
    check value = .ok result ↔ InRange value ∧ value = result := by
  unfold check
  split <;> simp_all

theorem toInt_inRange (value : Int64) : InRange value.toInt := by
  have hlow := value.le_toInt
  have hhigh := value.toInt_lt
  simp only [InRange, smallest, largest]
  omega

theorem clamp_inRange (value : Int) : InRange (clamp value) := by
  simp only [clamp, InRange, smallest, largest]
  omega

theorem checkUnsigned_eq_ok {value : Nat} (h : value < UInt64.size) :
    checkUnsigned value = .ok value :=
  if_pos h

theorem unsigned_eq_toNat {value : Int} (hnonneg : 0 ≤ value) (hle : value ≤ largest) :
    unsigned value = value.toNat := by
  unfold unsigned
  rw [Int.emod_eq_of_lt hnonneg (Int.lt_of_le_of_lt hle (by decide))]

end Signed64

end HybridConsensus
