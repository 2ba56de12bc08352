import HybridConsensus.Chain.Store
import HybridConsensus.Signed64

/-!
# Windows of one proof kind

A hybrid chain mixes both kinds of blocks, and each kind is retargeted by its own past. The genesis
block never counts as a sample.
-/

namespace HybridConsensus

/-- Heights of the newest blocks of one kind, newest first. Samples are counted from one. -/
structure ProofWindow where
  heights : List Nat
deriving DecidableEq, Repr

namespace ProofWindow

def size (window : ProofWindow) : Nat :=
  window.heights.length

def isEmpty (window : ProofWindow) : Bool :=
  window.heights.isEmpty

def height? (window : ProofWindow) : (sample : Nat) → Option Nat
  | 0 => none
  | sample + 1 => window.heights[sample]?

def samples (window : ProofWindow) : List (Nat × Nat) :=
  window.heights.zipIdx.map fun (height, place) => (place + 1, height)

end ProofWindow

namespace ChainStore

/-- The newest block of `kind` from `block` down, or genesis. -/
def lastOfKind (store : ChainStore) (block : BlockRecord) (kind : ProofKind) : BlockRecord :=
  store.descendTo (·.proof == kind) block

/-- At most `limit` blocks of `kind` from `start` down, without genesis, oldest first, before
`newer`. -/
def samplesOnto (store : ChainStore) (kind : ProofKind) :
    (limit : Nat) → (start : BlockRecord) → (newer : List BlockRecord) → List BlockRecord
  | 0, _, newer => newer
  | limit + 1, start, newer =>
    let found := store.lastOfKind start kind
    if found.isGenesis ∨ found.proof ≠ kind then newer
    else match store.predecessor? found with
      | none => found :: newer
      | some older => store.samplesOnto kind limit older (found :: newer)

def sampleWindow (store : ChainStore) (start : BlockRecord) (limit : Nat) (kind : ProofKind) :
    ProofWindow where
  heights := ((store.samplesOnto kind limit start []).map (·.height)).reverse

/-- The window of at most `limit` samples. Room for all of them, four bytes each, is made before the
first is looked for, and more than a signed number can count is a fault. -/
def sampleWithRoom (store : ChainStore) (start : BlockRecord) (limit : Nat) (kind : ProofKind) :
    Except Fault ProofWindow :=
  if 4 * limit ≤ Signed64.largest then .ok (store.sampleWindow start limit kind)
  else .error .overflow

/-- How many stake blocks lie on the branch of `block` above `height`. -/
def countStake (store : ChainStore) (block : BlockRecord) (height : Nat) : Nat :=
  let isBelow (block : BlockRecord) : Bool := block.isGenesis || block.height ≤ height
  (store.pathTo isBelow block).countP fun block => !isBelow block && block.isStake

end ChainStore

end HybridConsensus
