import HybridConsensus.Chain.Store
import HybridConsensus.Digest.Sha256

/-!
# Chain fixtures

A chain written down block by block. A block without a parent extends the entry before it, and a
block without a hash gets one from its contents.
-/

namespace HybridConsensus

structure BlockEntry where
  time : Int64
  bits : String
  proof : ProofKind
  hash : Option String
  parent : Option String
deriving DecidableEq

structure ChainFixture where
  genesis : BlockEntry
  blocks : List BlockEntry
  /-- The active block; without one, the last entry. -/
  tip : Option String
deriving DecidableEq

inductive FixtureError
  | unreadable (reason : String)
  | invalidFormat
  | invalidHash (text : String)
  | invalidBits (text : String)
  | chain (error : ChainError)
deriving DecidableEq

def FixtureError.message : FixtureError → String
  | .unreadable reason => "File I/O error: " ++ reason
  | .invalidFormat => "Invalid fixture: not a chain fixture in JSON"
  | .invalidHash text => "Invalid hash " ++ text
  | .invalidBits text => "Invalid compact bits " ++ text
  | .chain error => error.message

namespace Fixture

def parseHash (text : String) : Except FixtureError BlockHash :=
  match BlockHash.ofHex text with
  | .ok hash => .ok hash
  | .error _ => .error (.invalidHash text)

def parseBits (text : String) : Except FixtureError CompactBits :=
  match CompactBits.ofHex? text with
  | some bits => .ok bits
  | none => .error (.invalidBits text)

def inChain {α : Type} (result : Except ChainError α) : Except FixtureError α :=
  result.mapError .chain

/-- What a block's own hash is made from: the parent's hash or zeros, then height, time and bits,
lowest byte first, and a last byte that tells stake from work. -/
def contents (parent : Option BlockHash) (height : Nat) (time : Int64) (bits : CompactBits)
    (proof : ProofKind) : List UInt8 :=
  (parent.getD .zero).bytes.toList ++ littleEndianBytes 4 height ++
    littleEndianBytes 8 time.toUInt64.toNat ++ littleEndianBytes 4 bits.toNat ++
    [if proof = .stake then 1 else 0]

end Fixture

open Fixture

variable (digest : List UInt8 → Digest)

def BlockEntry.header (entry : BlockEntry) (parent : Option BlockHash) (height : Nat) :
    Except FixtureError BlockHeader := do
  let bits ← parseBits entry.bits
  let hash ← match entry.hash with
    | some text => parseHash text
    | none => .ok ⟨digest (contents parent height entry.time bits entry.proof)⟩
  return { hash, proof := entry.proof, time := entry.time, bits }

/-- A chain in the making, and the hash and height of its last entry. -/
structure FixtureChain where
  store : ChainStore
  last : BlockHash
  height : Nat

def FixtureChain.parentOf (chain : FixtureChain) (entry : BlockEntry) :
    Except FixtureError (BlockHash × Nat) := do
  match entry.parent with
  | none => return (chain.last, chain.height)
  | some text =>
    let parent ← parseHash text
    if parent = chain.last then return (parent, chain.height)
    else match chain.store.find? parent with
      | some block => return (parent, block.height)
      | none => throw (.chain (.unknownParent parent))

def FixtureChain.add (chain : FixtureChain) (entry : BlockEntry) :
    Except FixtureError FixtureChain := do
  let (parent, below) ← chain.parentOf entry
  let header ← entry.header digest (some parent) (below + 1)
  let (store, answer) := chain.store.insert parent header
  let _ ← inChain answer
  return { store, last := header.hash, height := below + 1 }

/-- The store that a fixture describes, where `digest` makes the hashes that it does not name. -/
def ChainFixture.buildWith (fixture : ChainFixture) : Except FixtureError ChainStore := do
  let genesis ← fixture.genesis.header digest none 0
  let start : FixtureChain := { store := .ofGenesis genesis, last := genesis.hash, height := 0 }
  let chain ← fixture.blocks.foldlM (FixtureChain.add digest) start
  let tip ← match fixture.tip with
    | some text => parseHash text
    | none => .ok chain.last
  let (store, answer) := chain.store.activate tip
  let _ ← inChain answer
  return store

def ChainFixture.build (fixture : ChainFixture) : Except FixtureError ChainStore :=
  fixture.buildWith Sha256.digest

end HybridConsensus
