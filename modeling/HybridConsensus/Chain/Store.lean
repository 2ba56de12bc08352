import HybridConsensus.Block
import Std.Data.TreeMap

/-!
# The chain store

All blocks ever taken in, on every branch, with one branch active. A block keeps the place of its
parent, so the blocks below it are found by walking down; the active branch is also kept by height.
-/

namespace HybridConsensus

inductive ChainError
  | unknownParent (hash : BlockHash)
  | duplicate (hash : BlockHash)
  | unknownBlock (hash : BlockHash)
  | heightOverflow
deriving DecidableEq

def ChainError.message : ChainError → String
  | .unknownParent hash => "Unknown parent block " ++ hash.toHex
  | .duplicate hash => "Block " ++ hash.toHex ++ " already stored"
  | .unknownBlock hash => "Unknown block " ++ hash.toHex
  | .heightOverflow => "Chain height overflow"

/-- How many blocks a change of the active branch took off it and put on it. -/
structure Reorg where
  disconnected : Nat
  connected : Nat
deriving DecidableEq, Repr

structure ChainStore where
  records : Array BlockRecord
  places : Std.TreeMap BlockHash BlockId
  active : Array BlockId
  nonempty : 0 < records.size

namespace ChainStore

def ofGenesis (header : BlockHeader) : ChainStore where
  records := #[{ header with id := 0, height := 0, parent := none }]
  places := ({} : Std.TreeMap BlockHash BlockId).insert header.hash 0
  active := #[0]
  nonempty := by simp

def genesis (store : ChainStore) : BlockRecord :=
  have := store.nonempty
  store.records[0]

def find? (store : ChainStore) (hash : BlockHash) : Option BlockRecord := do
  store.records[← store.places[hash]?]?

/-- The active block at `height`. -/
def atHeight? (store : ChainStore) (height : Nat) : Option BlockRecord := do
  store.records[← store.active[height]?]?

def tip (store : ChainStore) : BlockRecord :=
  (store.atHeight? (store.active.size - 1)).getD store.genesis

def isActive (store : ChainStore) (block : BlockRecord) : Bool :=
  store.active[block.height]? == some block.id

/-- The block below `block`, which was taken in before it. -/
def predecessor? (store : ChainStore) (block : BlockRecord) : Option BlockRecord := do
  let older ← store.records[← block.parent]?
  if older.id < block.id then some older else none

theorem predecessor?_id_lt {store : ChainStore} {block older : BlockRecord}
    (h : store.predecessor? block = some older) : older.id < block.id := by
  unfold predecessor? at h
  cases hparent : block.parent with
  | none => simp [hparent] at h
  | some parent =>
    cases hrecord : store.records[parent]? with
    | none => simp [hparent, hrecord] at h
    | some record =>
      simp only [hparent, hrecord, Option.bind_eq_bind, Option.bind_some,
        Option.ite_none_right_eq_some, Option.some.injEq] at h
      obtain ⟨hlt, rfl⟩ := h
      exact hlt

/-- `block` and all blocks below it, newest first. -/
def lineage (store : ChainStore) (block : BlockRecord) : List BlockRecord :=
  block ::
    match _h : store.predecessor? block with
    | none => []
    | some older => store.lineage older
termination_by block.id
decreasing_by exact predecessor?_id_lt _h

/-- The first block from `block` down that `stop` holds of, or the last one there is. -/
def descendTo (store : ChainStore) (stop : BlockRecord → Bool) (block : BlockRecord) :
    BlockRecord :=
  if stop block then block
  else match _h : store.predecessor? block with
    | none => block
    | some older => store.descendTo stop older
termination_by block.id
decreasing_by exact predecessor?_id_lt _h

/-- The blocks from the first that `stop` holds of up to `block`, oldest first, before `newer`. -/
def pathOnto (store : ChainStore) (stop : BlockRecord → Bool) (block : BlockRecord)
    (newer : List BlockRecord) : List BlockRecord :=
  if stop block then block :: newer
  else match _h : store.predecessor? block with
    | none => block :: newer
    | some older => store.pathOnto stop older (block :: newer)
termination_by block.id
decreasing_by exact predecessor?_id_lt _h

/-- The blocks from the first that `stop` holds of up to `block`, oldest first. -/
def pathTo (store : ChainStore) (stop : BlockRecord → Bool) (block : BlockRecord) :
    List BlockRecord :=
  store.pathOnto stop block []

/-- The block at `height` on the branch of `block`, found by walking down. -/
def walkToHeight? (store : ChainStore) (block : BlockRecord) (height : Nat) : Option BlockRecord :=
  if block.height < height then none
  else
    let found := store.descendTo (·.height ≤ height) block
    if found.height ≤ height then some found else none

/-- The block at `height` on the branch of `block`. On the active branch it is looked up. -/
def ancestor? (store : ChainStore) (block : BlockRecord) (height : Nat) : Option BlockRecord :=
  if block.height < height then none
  else if store.isActive block then store.atHeight? height
  else store.walkToHeight? block height

/-- The active branch, from genesis to the tip. -/
def activeBlocks (store : ChainStore) : List BlockRecord :=
  store.active.toList.filterMap (store.records[·]?)

/-! ### Changes

A refused change leaves the store as it was. -/

/-- The block that a header is taken in on top of, or why it is not. -/
def parentFor (store : ChainStore) (parent : BlockHash) (header : BlockHeader) :
    Except ChainError BlockRecord :=
  if store.places.contains header.hash then .error (.duplicate header.hash)
  else match store.find? parent with
    | none => .error (.unknownParent parent)
    | some below => if below.height < maxHeight then .ok below else .error .heightOverflow

/-- Puts a block on top of `below` and leaves the active branch alone. -/
def putOn (store : ChainStore) (below : BlockRecord) (header : BlockHeader) : ChainStore :=
  let id := store.records.size
  { records := store.records.push
      { header with id, height := below.height + 1, parent := some below.id }
    places := store.places.insert header.hash id
    active := store.active
    nonempty := by simp }

def insert (store : ChainStore) (parent : BlockHash) (header : BlockHeader) :
    ChainStore × Except ChainError BlockId :=
  match store.parentFor parent header with
  | .error error => (store, .error error)
  | .ok below =>
    let id := store.records.size
    (store.putOn below header, .ok id)

/-- Makes the branch of `block` the active one. -/
def switchTo (store : ChainStore) (block : BlockRecord) : ChainStore × Reorg :=
  match store.pathTo store.isActive block with
  | [] => (store, { disconnected := 0, connected := 0 })
  | fork :: branch =>
    let disconnected := store.active.size - 1 - fork.height
    ({ store with
        active := store.active.shrink (fork.height + 1) ++ (branch.map (·.id)).toArray },
      { disconnected, connected := branch.length })

/-- Takes a block in on top of the tip and makes it the tip. -/
def push (store : ChainStore) (header : BlockHeader) :
    ChainStore × Except ChainError BlockId :=
  let (grown, answer) := store.insert store.tip.hash header
  match answer with
  | .error error => (grown, .error error)
  | .ok id =>
    match grown.records[id]? with
    | some block => ((grown.switchTo block).1, .ok id)
    | none => (grown, .ok id)

def activate (store : ChainStore) (hash : BlockHash) : ChainStore × Except ChainError Reorg :=
  match store.find? hash with
  | some block =>
    let (moved, reorg) := store.switchTo block
    (moved, .ok reorg)
  | none => (store, .error (.unknownBlock hash))

end ChainStore

end HybridConsensus
