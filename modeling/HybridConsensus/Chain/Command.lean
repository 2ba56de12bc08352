import HybridConsensus.Chain.Store

/-!
# Commands to a chain store

What changes a store, as data. A refused command leaves the store as it was.
-/

namespace HybridConsensus

inductive ChainCommand
  | insert (parent : BlockHash) (header : BlockHeader)
  | push (header : BlockHeader)
  | activate (hash : BlockHash)
deriving DecidableEq

inductive ChainAnswer
  | added (id : BlockId)
  | switched (reorg : Reorg)
deriving DecidableEq

namespace ChainStore

def apply (store : ChainStore) : ChainCommand → ChainStore × Except ChainError ChainAnswer
  | .insert parent header =>
    let (store, answer) := store.insert parent header
    (store, answer.map .added)
  | .push header =>
    let (store, answer) := store.push header
    (store, answer.map .added)
  | .activate hash =>
    let (store, answer) := store.activate hash
    (store, answer.map .switched)

def run (store : ChainStore) (commands : List ChainCommand) : ChainStore :=
  commands.foldl (fun store command => (store.apply command).1) store

end ChainStore

end HybridConsensus
