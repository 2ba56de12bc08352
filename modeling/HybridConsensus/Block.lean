import HybridConsensus.Target.Compact

/-!
# Blocks

A block is known by its hash, which is kept in the order the hash function emits it and shown the
other way round. Its proof is either work or stake. A record is a block that a chain has taken in:
it has a place in the store, a height, and the place of the block before it, which only a genesis
block lacks.
-/

namespace HybridConsensus

inductive ProofKind
  | work
  | stake
deriving DecidableEq, Repr

def ProofKind.label : ProofKind → String
  | .work => "PoW"
  | .stake => "PoS"

structure BlockHash where
  bytes : Digest
deriving DecidableEq

namespace BlockHash

def zero : BlockHash :=
  ⟨Vector.replicate 32 0⟩

instance : Inhabited BlockHash :=
  ⟨zero⟩

def isZero (block : BlockHash) : Bool :=
  block == zero

/-- The stored bytes, lowest first. -/
def toTarget (block : BlockHash) : Target :=
  ⟨littleEndian block.bytes.toList,
    littleEndian_lt_of_length_le (by simp)⟩

theorem toTarget_injective {left right : BlockHash} (h : left.toTarget = right.toTarget) :
    left = right := by
  have hleft := littleEndianBytes_littleEndian left.bytes.toList
  have hright := littleEndianBytes_littleEndian right.bytes.toList
  have hvalue : littleEndian left.bytes.toList = littleEndian right.bytes.toList :=
    congrArg Target.value h
  rw [Vector.length_toList] at hleft hright
  have hlist : left.bytes.toList = right.bytes.toList := by rw [← hleft, ← hright, hvalue]
  cases left; cases right
  exact congrArg BlockHash.mk (Vector.toList_inj.mp hlist)

/-- Hashes are in the order of their stored bytes, and two seldom share the first of these. -/
instance : Ord BlockHash :=
  ⟨fun left right => compare left.bytes right.bytes⟩

theorem compare_eq (left right : BlockHash) : compare left right = compare left.bytes right.bytes :=
  rfl

instance : Std.TransOrd BlockHash where
  eq_swap := by
    intro left right
    rw [compare_eq, compare_eq]
    exact Std.OrientedCmp.eq_swap
  isLE_trans := by
    intro first second third h k
    rw [compare_eq] at *
    exact Std.TransCmp.isLE_trans h k

instance : Std.LawfulEqOrd BlockHash where
  compare_self := by
    intro block
    rw [compare_eq]
    exact Std.ReflCmp.compare_self
  eq_of_compare := by
    intro left right h
    rw [compare_eq] at h
    cases left; cases right
    exact congrArg BlockHash.mk (Std.LawfulEqCmp.eq_of_compare h)

def ofTarget (target : Target) : BlockHash :=
  ⟨⟨(littleEndianBytes 32 target.value).toArray, by simp [length_littleEndianBytes]⟩⟩

/-- The hash as it is shown: last byte first. -/
def toHex (block : BlockHash) : String :=
  Hex.ofBytes block.bytes.toList.reverse

/-- Reads sixty-four digits behind an optional `0x`. The count is looked at before the digits. -/
def ofHex (text : String) : Except HexError BlockHash := do
  let digits := Hex.dropMarker text.toList
  let size := (utf8Bytes digits).length
  if size % 2 = 1 then throw .oddLength
  if size ≠ 64 then throw .invalidLength
  let bytes ← Hex.toBytes digits
  if h : bytes.length = 32 then
    return ⟨⟨bytes.reverse.toArray, by simp [h]⟩⟩
  else
    throw .invalidLength

/-- The text that seeds the hash function: the shown form, as bytes. -/
def seedText (block : BlockHash) : List UInt8 :=
  utf8Bytes block.toHex.toList

end BlockHash

abbrev BlockId := Nat

structure BlockHeader where
  hash : BlockHash
  proof : ProofKind
  time : Int64
  bits : CompactBits
deriving DecidableEq

structure BlockRecord extends BlockHeader where
  id : BlockId
  height : Nat
  parent : Option BlockId
deriving DecidableEq

def BlockRecord.isGenesis (block : BlockRecord) : Bool :=
  block.parent.isNone

def BlockRecord.isStake (block : BlockRecord) : Bool :=
  block.proof == .stake

/-- Heights are counted in 32 bits. -/
def maxHeight : Nat := 0xffffffff

/-- The height on top of `height`; there is none above the last. -/
def nextHeight (height : Nat) : Nat :=
  min (height + 1) maxHeight

end HybridConsensus
