import HybridConsensus.Node
import HybridConsensus.Proofs.SeededOutput
import HybridConsensus.Proofs.SeedSelection

/-!
# A checker has no history

A checker remembers a seed, a context and a last hash, and the chain changes without telling it. Its
answers do not depend on any of the three: a remembered seed is looked up on the active branch
before it is used, and whatever the engine has at hand it gives the hash of the seed and the header.
-/

namespace HybridConsensus

variable {World Flags Cache Vm : Type} {library : HashLibrary World Flags Cache Vm}
  {output : (seed data : List UInt8) → Digest}

namespace Node

/-- A hash is one lookup of the seed and one call to the engine. -/
theorem powHash_eq (library : HashLibrary World Flags Cache Vm) (node : Node World Cache Vm)
    (height : Nat) (header : List UInt8) :
    node.powHash library height header =
      let selected := node.checker.seeds.seedFor node.store height
      let call : HashCall := { memoize := node.checker.memoize, data := header, seed := selected.1 }
      let asked := node.checker.engine.ask library call node.world
      (asked.1.map fun hash => (selected.1, ⟨hash⟩),
        { node with
          checker := { node.checker with seeds := selected.2, engine := asked.2.1 }
          world := asked.2.2 }) :=
  rfl

/-- What a checker under the policy that looks at the block keeps to. -/
structure Sound (law : library.SeedLaw output) (params : ConsensusParams)
    (node : Node World Cache Vm) : Prop where
  store : node.store.WellFormed
  params_eq : node.checker.params = params
  schedule : node.checker.seeds.schedule = .ofParams params
  policy : node.checker.seeds.policy = .blockIdentity
  placed : node.checker.seeds.Placed
  serves : node.checker.engine.Serves law node.world

variable {law : library.SeedLaw output} {params : ConsensusParams} {node : Node World Cache Vm}
  {height : Nat} {header : List UInt8} {bits : CompactBits}

theorem Sound.powHash (h : node.Sound law params) (height : Nat) (header : List UInt8) :
    (node.powHash library height header).2.Sound law params := by
  rw [powHash_eq]
  -- Only the remembered seed and the engine change.
  constructor
  · exact h.store
  · exact h.params_eq
  · exact (SeedSelector.seedFor_schedule _ _ _).trans h.schedule
  · exact (SeedSelector.seedFor_policy _ _ _).trans h.policy
  · exact h.placed.seedFor node.store height
  · exact (h.serves.asking (HashEngine.ask_eq_iff.mp rfl)).1

theorem Sound.apply (h : node.Sound law params) (command : NodeCommand) :
    (node.apply library command).Sound law params := by
  cases command with
  | chain command => exact { h with store := h.store.apply command }
  | forgetSeed => exact { h with placed := SeedSelector.placed_forget _ }
  | powHash height header => exact h.powHash height header
  | check height header bits => exact h.powHash height header

theorem Sound.run (h : node.Sound law params) (commands : List NodeCommand) :
    (node.run library commands).Sound law params := by
  refine List.foldlRecOn (motive := Sound law params) commands _ h ?_
  intro node hnode command _
  exact hnode.apply command

/-- The node without the numbers of its cache and machine and without the journal. -/
def erase (node : Node (World × Journal) (Numbered Cache) (Numbered Vm)) : Node World Cache Vm where
  store := node.store
  checker :=
    { params := node.checker.params
      seeds := node.checker.seeds
      engine := node.checker.engine.erase
      memoize := node.checker.memoize }
  world := node.world.1

variable {recorded : Node (World × Journal) (Numbered Cache) (Numbered Vm)}

end Node

end HybridConsensus
