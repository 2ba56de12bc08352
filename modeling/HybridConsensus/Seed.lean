import HybridConsensus.Chain.Store
import HybridConsensus.Params.Basic

/-!
# Seed blocks

The hash of a seed block seeds the proof-of-work function. Heights are grouped into windows. A
height that lies in its window above the switch offset is anchored at the start of that window, any
other at the start of the window before, and the seed block lies a fixed number of blocks below the
anchor. So every node has it long before it is needed.
-/

namespace HybridConsensus

structure SeedSchedule where
  seedHeight : Nat
  interval : Nat
deriving DecidableEq, Repr

namespace SeedSchedule

/-- An interval of zero counts as one. -/
def ofParams (params : ConsensusParams) : SeedSchedule where
  seedHeight := params.seedHeight.toNat
  interval := max params.seedInterval.toNat 1

def switchOffset (schedule : SeedSchedule) : Nat :=
  schedule.seedHeight % schedule.interval

/-- There is no anchor while the window before does not exist. -/
def anchorHeight? (schedule : SeedSchedule) (height : Nat) : Option Nat :=
  let remainder := height % schedule.interval
  let windowStart := height - remainder
  if schedule.switchOffset < remainder then some windowStart
  else if schedule.interval ≤ windowStart then some (windowStart - schedule.interval)
  else none

/-- Genesis seeds the heights that are too low for another seed block. -/
def seedBlockHeight (schedule : SeedSchedule) (height : Nat) : Nat :=
  match schedule.anchorHeight? height with
  | some anchor => anchor - schedule.seedHeight
  | none => 0

end SeedSchedule

/-- When a remembered seed is used again: as long as the anchor stays the same, or only while the
seed block is still the active one at its height. The first can go stale when the active branch
changes. -/
inductive SeedCachePolicy
  | heightWindow
  | blockIdentity
deriving DecidableEq, Repr, Inhabited

def SeedCachePolicy.name : SeedCachePolicy → String
  | .heightWindow => "height-window"
  | .blockIdentity => "block-identity"

structure CachedSeed where
  anchor : Nat
  height : Nat
  hash : BlockHash
deriving DecidableEq

structure SeedSelector where
  schedule : SeedSchedule
  policy : SeedCachePolicy
  cached : Option CachedSeed
deriving DecidableEq

namespace SeedSelector

def ofParams (params : ConsensusParams) (policy : SeedCachePolicy) : SeedSelector where
  schedule := .ofParams params
  policy := policy
  cached := none

def trusts (selector : SeedSelector) (store : ChainStore) (cached : CachedSeed) : Bool :=
  match selector.policy with
  | .heightWindow => true
  | .blockIdentity => (store.atHeight? cached.height).map (·.hash) == some cached.hash

/-- The seed for `height` as the active branch has it. -/
def select (selector : SeedSelector) (store : ChainStore) (height : Nat) : CachedSeed :=
  let seedHeight := selector.schedule.seedBlockHeight height
  { anchor := (selector.schedule.anchorHeight? height).getD 0
    height := seedHeight
    hash := ((store.atHeight? seedHeight).getD store.genesis).hash }

/-- The seed for `height`, remembered or selected anew. -/
def seedFor (selector : SeedSelector) (store : ChainStore) (height : Nat) :
    BlockHash × SeedSelector :=
  let selected := selector.select store height
  let renewed := (selected.hash, { selector with cached := some selected })
  match selector.cached with
  | some cached =>
    if cached.anchor = selected.anchor ∧ selector.trusts store cached then (cached.hash, selector)
    else renewed
  | none => renewed

def forget (selector : SeedSelector) : SeedSelector :=
  { selector with cached := none }

end SeedSelector

end HybridConsensus
