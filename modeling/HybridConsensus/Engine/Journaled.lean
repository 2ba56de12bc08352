import HybridConsensus.Engine.Recording

/-!
# Any library, with its calls written down

Whatever a library does, its calls can be written down beside its state: what each call was about
and whether it was granted. Caches and machines go by the number of the call that made them, so that
the journal tells them apart even where the library hands out equal ones.
-/

namespace HybridConsensus

/-- A cache or a machine under the number of the call that made it. -/
structure Numbered (Item : Type) where
  item : Item
  number : Nat

variable {World Flags Cache Vm : Type}

def HashLibrary.journaled (library : HashLibrary World Flags Cache Vm) :
    HashLibrary (World × Journal) Flags (Numbered Cache) (Numbered Vm) where
  flags state :=
    let (flags, world) := library.flags state.1
    (flags, world, state.2.note .flags)
  allocateCache flags state :=
    let (answer, world) := library.allocateCache flags state.1
    (answer.map fun cache => ⟨cache, state.2.allocated + 1⟩, world, state.2.allocate answer.isOk)
  initCache cache seed state :=
    let (answer, world) := library.initCache cache.item seed state.1
    (answer.map fun made => ⟨made, cache.number⟩, world,
      state.2.initialise cache.number seed answer.isOk)
  createVm flags cache state :=
    let (answer, world) := library.createVm flags cache.item state.1
    (answer.map fun vm => ⟨vm, state.2.created + 1⟩, world,
      state.2.createVm cache.number answer.isOk)
  compute vm data state :=
    let (answer, world) := library.compute vm.item data state.1
    (answer, world, state.2.compute vm.number data.length answer.isOk)
  destroyVm vm state := (library.destroyVm vm.item state.1, state.2.note (.destroyVm vm.number))
  releaseCache cache state :=
    (library.releaseCache cache.item state.1, state.2.note (.releaseCache cache.number))

def LibraryEvent.isRefusal : LibraryEvent → Bool
  | .allocate _ granted => !granted
  | .initialise _ _ granted => !granted
  | .createVm _ _ granted => !granted
  | .compute _ _ _ granted => !granted
  | _ => false

/-- Between `before` and `after` the library refused a call. -/
def Journal.Refused (before after : Journal) : Prop :=
  ∃ events, after.events = events ++ before.events ∧ events.any (·.isRefusal) = true

/-- The context without the numbers of its cache and machine. -/
def HashContext.erase (context : HashContext (Numbered Cache) (Numbered Vm)) :
    HashContext Cache Vm where
  seed := context.seed
  cache := context.cache.item
  vm := context.vm.item
  memo := context.memo

def HashEngine.erase (engine : HashEngine (Numbered Cache) (Numbered Vm)) : HashEngine Cache Vm :=
  ⟨engine.context.map (·.erase)⟩

end HybridConsensus
