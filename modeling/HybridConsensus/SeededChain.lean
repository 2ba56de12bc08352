import HybridConsensus.Chain.Command
import HybridConsensus.Seed

/-!
# A chain and its seed selector

The selector is asked while the chain changes, and is told nothing of the changes.
-/

namespace HybridConsensus

inductive SeedCommand
  | chain (command : ChainCommand)
  | lookUp (height : Nat)
  | forget
deriving DecidableEq

structure SeededChain where
  store : ChainStore
  selector : SeedSelector

namespace SeededChain

def start (params : ConsensusParams) (policy : SeedCachePolicy) (genesis : BlockHeader) :
    SeededChain where
  store := .ofGenesis genesis
  selector := .ofParams params policy

def apply (chain : SeededChain) : SeedCommand → SeededChain
  | .chain command => { chain with store := (chain.store.apply command).1 }
  | .lookUp height => { chain with selector := (chain.selector.seedFor chain.store height).2 }
  | .forget => { chain with selector := chain.selector.forget }

def run (chain : SeededChain) (commands : List SeedCommand) : SeededChain :=
  commands.foldl apply chain

end SeededChain

end HybridConsensus
