import HybridConsensus.Hex

/-!
# Targets

A target is an unsigned number below `2 ^ 256`. A block's hash, read as such a number, has to be at
most its target. Sums and products that do not fit stop at the largest target, differences at zero.
-/

namespace HybridConsensus

structure Target where
  value : Nat
  bounded : value < 1 <<< 256
deriving DecidableEq

namespace Target

def zero : Target :=
  ⟨0, by decide⟩

def maximum : Target :=
  ⟨(1 <<< 256) - 1, by decide⟩

instance : Inhabited Target :=
  ⟨zero⟩

instance : LE Target :=
  ⟨fun left right => left.value ≤ right.value⟩

instance : LT Target :=
  ⟨fun left right => left.value < right.value⟩

instance (left right : Target) : Decidable (left ≤ right) :=
  inferInstanceAs (Decidable (left.value ≤ right.value))

instance (left right : Target) : Decidable (left < right) :=
  inferInstanceAs (Decidable (left.value < right.value))

def isZero (target : Target) : Bool :=
  target.value == 0

/-- The nearest target to `value`. -/
def saturate (value : Nat) : Target :=
  ⟨min value ((1 <<< 256) - 1), by omega⟩

/-- The last 256 bits of `value`. -/
def truncate (value : Nat) : Target :=
  ⟨value % (1 <<< 256), Nat.mod_lt _ (by decide)⟩

def add (left right : Target) : Target :=
  saturate (left.value + right.value)

def sub (left right : Target) : Target :=
  ⟨left.value - right.value, by have := left.bounded; omega⟩

def mul (target : Target) (factor : Nat) : Target :=
  saturate (target.value * factor)

def div (target : Target) (divisor : Nat) : Target :=
  ⟨target.value / divisor, Nat.lt_of_le_of_lt (Nat.div_le_self _ _) target.bounded⟩

/-- Sixty-four digits, highest first. -/
def toHex (target : Target) : String :=
  Hex.ofNat 64 target.value

/-- Reads up to sixty-four digits behind an optional `0x`. An odd count gets a leading zero, which
counts in the position of a bad digit. -/
def ofHex (text : String) : Except HexError Target := do
  let digits := Hex.dropMarker text.toList
  let padded := if (utf8Bytes digits).length % 2 = 1 then '0' :: digits else digits
  let bytes ← Hex.toBytes padded
  if h : bytes.length ≤ 32 then
    return ⟨bigEndian bytes, bigEndian_lt_of_length_le (by omega)⟩
  else
    throw .invalidLength

theorem ext {left right : Target} (h : left.value = right.value) : left = right := by
  cases left; cases right; cases h; rfl

theorem le_iff {left right : Target} : left ≤ right ↔ left.value ≤ right.value :=
  Iff.rfl

theorem lt_iff {left right : Target} : left < right ↔ left.value < right.value :=
  Iff.rfl

theorem isZero_iff {target : Target} : target.isZero = true ↔ target.value = 0 := by
  simp [isZero]

theorem value_saturate_of_lt {value : Nat} (h : value < 1 <<< 256) :
    (saturate value).value = value := by
  simp only [saturate]
  omega

theorem value_saturate_le (value : Nat) : (saturate value).value ≤ value :=
  Nat.min_le_left _ _

end Target

end HybridConsensus
