import HybridConsensus.Engine.Basic
import HybridConsensus.Digest.Fnv

/-!
# A library that records its calls

It may refuse any call, named by its sort and by how many calls of that sort came before, and it
writes down every call. Its hashes are an arbitrary function of the seed text of the machine's cache
and of the data, so what holds of an engine on this library holds whatever is hashed and refused.
-/

namespace HybridConsensus

/-- The calls that may be refused. -/
inductive LibraryRequest
  | allocate
  | initialise
  | createVm
  | compute
deriving DecidableEq, Repr

/-- Caches and machines go by the number of the call that made them. -/
inductive LibraryEvent
  | flags
  | allocate (cache : Nat) (granted : Bool)
  | initialise (cache : Nat) (seed : List UInt8) (granted : Bool)
  | createVm (vm cache : Nat) (granted : Bool)
  | compute (call vm length : Nat) (granted : Bool)
  | destroyVm (vm : Nat)
  | releaseCache (cache : Nat)
deriving DecidableEq, Repr

/-- The events so far, newest first, and the number of calls of each sort. -/
structure Journal where
  events : List LibraryEvent
  allocated : Nat
  initialised : Nat
  created : Nat
  computed : Nat
deriving DecidableEq, Repr

def Journal.empty : Journal :=
  { events := [], allocated := 0, initialised := 0, created := 0, computed := 0 }

namespace Journal

/-- The events so far, oldest first, and a journal that has forgotten them. -/
def takeEvents (journal : Journal) : List LibraryEvent × Journal :=
  (journal.events.reverse, { journal with events := [] })

def note (journal : Journal) (event : LibraryEvent) : Journal :=
  { journal with events := event :: journal.events }

/-! Calls of each sort are counted from one, and refused calls count. -/

def allocate (journal : Journal) (granted : Bool) : Journal :=
  let call := journal.allocated + 1
  { journal with events := .allocate call granted :: journal.events, allocated := call }

def initialise (journal : Journal) (cache : Nat) (seed : List UInt8) (granted : Bool) : Journal :=
  { journal with
    events := .initialise cache seed granted :: journal.events
    initialised := journal.initialised + 1 }

def createVm (journal : Journal) (cache : Nat) (granted : Bool) : Journal :=
  let call := journal.created + 1
  { journal with events := .createVm call cache granted :: journal.events, created := call }

def compute (journal : Journal) (vm length : Nat) (granted : Bool) : Journal :=
  let call := journal.computed + 1
  { journal with events := .compute call vm length granted :: journal.events, computed := call }

end Journal

structure RecordedCache where
  number : Nat
  seed : List UInt8
deriving DecidableEq, Repr

structure RecordedVm where
  number : Nat
  seed : List UInt8
deriving DecidableEq, Repr

structure RecordingRules where
  refuses : LibraryRequest → (call : Nat) → Bool
  output : (seed data : List UInt8) → Digest

def Journal.refusal (call : Nat) : String :=
  "refused " ++ toString call

def recordedFlags : Nat := 7

def RecordingRules.library (rules : RecordingRules) :
    HashLibrary Journal Nat RecordedCache RecordedVm where
  flags journal := (recordedFlags, journal.note .flags)
  allocateCache _ journal :=
    let call := journal.allocated + 1
    let refused := rules.refuses .allocate call
    let journal := journal.allocate (!refused)
    if refused then (.error (.cacheAllocation (Journal.refusal call)), journal)
    else (.ok { number := call, seed := [] }, journal)
  initCache cache seed journal :=
    let call := journal.initialised + 1
    let refused := rules.refuses .initialise call
    let journal := journal.initialise cache.number seed (!refused)
    if refused then (.error (.cacheInit (Journal.refusal call)), journal)
    else (.ok { cache with seed }, journal)
  createVm _ cache journal :=
    let call := journal.created + 1
    let refused := rules.refuses .createVm call
    let journal := journal.createVm cache.number (!refused)
    if refused then (.error (.vmCreation (Journal.refusal call)), journal)
    else (.ok { number := call, seed := cache.seed }, journal)
  compute vm data journal :=
    let call := journal.computed + 1
    let refused := rules.refuses .compute call
    let journal := journal.compute vm.number data.length (!refused)
    if refused then (.error (.compute (Journal.refusal call)), journal)
    else (.ok (rules.output vm.seed data), journal)
  destroyVm vm journal := journal.note (.destroyVm vm.number)
  releaseCache cache journal := journal.note (.releaseCache cache.number)

def LibraryEvent.line : LibraryEvent → String
  | .flags => "flags"
  | .allocate cache _ => s!"allocate {cache} flags {recordedFlags}"
  | .initialise cache seed _ =>
    s!"init cache {cache} seed " ++ String.ofList (seed.map fun byte => Char.ofNat byte.toNat)
  | .createVm vm cache _ => s!"create vm {vm} flags {recordedFlags} cache {cache}"
  | .compute call vm length _ => s!"compute {call} vm {vm} length {length}"
  | .destroyVm vm => s!"destroy vm {vm}"
  | .releaseCache cache => s!"release cache {cache}"

/-- The first 32 bytes of the data, with zeros behind a shorter one. -/
def echoOutput (_seed data : List UInt8) : Digest :=
  Vector.ofFn fun place : Fin 32 => data.getD place.val 0

def mixedOutput (seed data : List UInt8) : Digest :=
  Fnv.digest (seed ++ data)

/-- The library refuses to seed its second cache. -/
def RecordingRules.secondSeedRefused : RecordingRules where
  refuses request call := request == .initialise && call == 2
  output := mixedOutput

end HybridConsensus
