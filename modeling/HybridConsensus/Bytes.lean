/-!
# Bytes and numbers

Numbers are read from byte sequences in either order and written as a fixed count of bytes, lowest
first. A text stands for the bytes of its UTF-8 form.
-/

namespace HybridConsensus

abbrev Digest := Vector UInt8 32

def littleEndian : List UInt8 → Nat
  | [] => 0
  | byte :: rest => byte.toNat + 256 * littleEndian rest

def bigEndian (bytes : List UInt8) : Nat :=
  littleEndian bytes.reverse

def littleEndianBytes : (count value : Nat) → List UInt8
  | 0, _ => []
  | count + 1, value => UInt8.ofNat value :: littleEndianBytes count (value / 256)

def utf8Bytes (text : List Char) : List UInt8 :=
  text.flatMap String.utf8EncodeChar

/-- One byte more makes room for 256 times as many numbers. -/
theorem shiftLeft_bytes_succ (count : Nat) : 1 <<< (8 * (count + 1)) = 256 * 1 <<< (8 * count) := by
  rw [Nat.shiftLeft_eq, Nat.shiftLeft_eq, Nat.mul_succ, Nat.pow_add]
  omega

theorem littleEndian_lt (bytes : List UInt8) : littleEndian bytes < 1 <<< (8 * bytes.length) := by
  induction bytes with
  | nil => simp [littleEndian]
  | cons byte rest ih =>
    have hbyte := byte.toNat_lt
    rw [List.length_cons, shiftLeft_bytes_succ, littleEndian]
    omega

theorem littleEndian_lt_of_length_le {bytes : List UInt8} {bits : Nat}
    (h : 8 * bytes.length ≤ bits) : littleEndian bytes < 1 <<< bits := by
  have hlt := littleEndian_lt bytes
  rw [Nat.shiftLeft_eq] at hlt ⊢
  exact Nat.lt_of_lt_of_le hlt (Nat.mul_le_mul_left 1 (Nat.pow_le_pow_right (by decide) h))

theorem bigEndian_lt_of_length_le {bytes : List UInt8} {bits : Nat}
    (h : 8 * bytes.length ≤ bits) : bigEndian bytes < 1 <<< bits :=
  littleEndian_lt_of_length_le (by rwa [List.length_reverse])

theorem length_littleEndianBytes (count value : Nat) :
    (littleEndianBytes count value).length = count := by
  induction count generalizing value with
  | zero => rfl
  | succ count ih => simp [littleEndianBytes, ih]

theorem littleEndian_littleEndianBytes (count value : Nat) :
    littleEndian (littleEndianBytes count value) = value % (1 <<< (8 * count)) := by
  induction count generalizing value with
  | zero => simp [littleEndianBytes, littleEndian, Nat.mod_one]
  | succ count ih =>
    rw [littleEndianBytes, littleEndian, ih, shiftLeft_bytes_succ, Nat.mod_mul,
      UInt8.toNat_ofNat']

theorem littleEndianBytes_littleEndian (bytes : List UInt8) :
    littleEndianBytes bytes.length (littleEndian bytes) = bytes := by
  induction bytes with
  | nil => rfl
  | cons byte rest ih =>
    have hbyte := byte.toNat_lt
    have hdiv : (byte.toNat + 256 * littleEndian rest) / 256 = littleEndian rest := by omega
    simp only [littleEndian, List.length_cons, littleEndianBytes, hdiv, ih, List.cons.injEq,
      and_true]
    apply UInt8.toNat_inj.mp
    rw [UInt8.toNat_ofNat']
    omega

end HybridConsensus
