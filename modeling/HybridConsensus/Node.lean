import HybridConsensus.Chain.Command
import HybridConsensus.PowChecker

/-!
# A node

A chain and the checker of its headers, side by side. The chain changes under the checker, which is
told nothing of it.
-/

namespace HybridConsensus

/-- A refused command changes the checker as far as it came. -/
inductive NodeCommand
  | chain (command : ChainCommand)
  | forgetSeed
  | powHash (height : Nat) (header : List UInt8)
  | check (height : Nat) (header : List UInt8) (bits : CompactBits)
deriving DecidableEq

/-- The state of the checker's library is part of the node. -/
structure Node (World Cache Vm : Type) where
  store : ChainStore
  checker : PowChecker Cache Vm
  world : World

namespace Node

variable {World Flags Cache Vm : Type}

def start (params : ConsensusParams) (policy : SeedCachePolicy) (memoize : Bool)
    (genesis : BlockHeader) (world : World) : Node World Cache Vm where
  store := .ofGenesis genesis
  checker := .ofParams params policy memoize
  world := world

def powHash (library : HashLibrary World Flags Cache Vm) (node : Node World Cache Vm)
    (height : Nat) (header : List UInt8) :
    Except EngineError (BlockHash × BlockHash) × Node World Cache Vm :=
  let (answer, checker, world) := node.checker.powHash library node.store height header node.world
  (answer, { node with checker, world })

def check (library : HashLibrary World Flags Cache Vm) (node : Node World Cache Vm)
    (height : Nat) (header : List UInt8) (bits : CompactBits) :
    Except EngineError PowCheck × Node World Cache Vm :=
  let (answer, checker, world) :=
    node.checker.check library node.store height header bits node.world
  (answer, { node with checker, world })

def apply (library : HashLibrary World Flags Cache Vm) (node : Node World Cache Vm) :
    NodeCommand → Node World Cache Vm
  | .chain command => { node with store := (node.store.apply command).1 }
  | .forgetSeed => { node with checker := node.checker.forgetSeed }
  | .powHash height header => (node.powHash library height header).2
  | .check height header bits => (node.check library height header bits).2

def run (library : HashLibrary World Flags Cache Vm) (node : Node World Cache Vm)
    (commands : List NodeCommand) : Node World Cache Vm :=
  commands.foldl (apply library) node

end Node

end HybridConsensus
