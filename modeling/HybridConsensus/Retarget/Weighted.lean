import HybridConsensus.Chain.Window
import HybridConsensus.Retarget.Exponential

/-!
# Linearly weighted averages

Over the last `N` blocks of a kind, the solve times are weighted from 1 for the oldest to `N` for
the newest. With `k = N * (N + 1) * T / 2` the next target is the sum of `target / N / k` times the
sum of the weighted solve times. Each target is divided before it is added: their plain sum would
not fit.
-/

namespace HybridConsensus

namespace WeightedAverage

/-- No solve time counts for more than this many spacings. -/
def longestSolve : Int := 6

/-- What has been added up over the older part of a window. -/
structure Tally where
  clock : Int
  weight : Int
  solveTimes : Int
  average : Target
deriving DecidableEq

def Tally.start (oldest : BlockRecord) : Tally where
  clock := oldest.time.toInt
  weight := 0
  solveTimes := 0
  average := .zero

/-- Sums of averages have to stay below `2 ^ 256`. -/
def addAverage (sum share : Target) : Except Fault Target :=
  if h : sum.value + share.value < 1 <<< 256 then .ok ⟨sum.value + share.value, h⟩
  else .error .overflow

/-- Times that do not increase are read as one second after the block before. -/
def Tally.add (spacing : Int) (count divisor : Nat) (tally : Tally) (block : BlockRecord) :
    Except Fault Tally := do
  let time :=
    if tally.clock < block.time.toInt then block.time.toInt else Signed64.clamp (tally.clock + 1)
  let longest ← Signed64.check (longestSolve * spacing)
  let solveTime := min longest (Signed64.clamp (time - tally.clock))
  let weight ← Signed64.check (tally.weight + 1)
  let weighted ← Signed64.check (solveTime * weight)
  let solveTimes ← Signed64.check (tally.solveTimes + weighted)
  let average ← addAverage tally.average ((block.bits.target.div count).div divisor)
  return { clock := time, weight, solveTimes, average }

/-- `N * (N + 1) * T / 2`, and at least one. -/
def divisor (window spacing : Int) : Except Fault Nat := do
  let longer ← Signed64.check (window + 1)
  let pairs ← Signed64.check (window * longer)
  let seconds ← Signed64.check (pairs * spacing)
  return (max (seconds.tdiv 2) 1).toNat

def Tally.target (tally : Tally) : Target :=
  tally.average.mul (Signed64.unsigned tally.solveTimes)

end WeightedAverage

namespace ChainStore

open WeightedAverage

/-- The block that a sample of a window stands for, if it is found on the branch of `last`. -/
def sampled? (store : ChainStore) (last : BlockRecord) (window : ProofWindow) (sample : Nat) :
    Option BlockRecord := do
  store.ancestor? last (← window.height? sample)

/-- Adds up the samples from `sample` to the newest, unless one of them is not found. -/
def addSamples (store : ChainStore) (last : BlockRecord) (window : ProofWindow) (spacing : Int)
    (count divisor : Nat) : (sample : Nat) → Tally → Except Fault (Option Tally)
  | 0, tally => return some tally
  | sample + 1, tally =>
    match store.sampled? last window (sample + 1) with
    | none => return none
    | some block => do
      let tally ← tally.add spacing count divisor block
      store.addSamples last window spacing count divisor sample tally

/-- The average over a window of `size + 1` samples. The oldest only starts the clock. -/
def weightedTarget (store : ChainStore) (last : BlockRecord) (window : ProofWindow)
    (size spacing : Int) : Except Fault (Option Target) := do
  let divisor ← divisor size spacing
  let count := Signed64.unsigned size
  let first ← Signed64.checkUnsigned (count + 1)
  match store.sampled? last window first with
  | none => return none
  | some oldest =>
    let tally? ← store.addSamples last window spacing count divisor count (.start oldest)
    return tally?.map Tally.target

/-- One step between the two newest stake blocks, or the limit if there are not two. -/
def youngStakeBits (store : ChainStore) (last : BlockRecord) (spacing : Int) (limit : Target) :
    Except Fault CompactBits :=
  let previous := store.lastOfKind last .stake
  match store.predecessor? previous with
  | none => .ok limit.toCompact
  | some before =>
    let earlier := store.lastOfKind before .stake
    if earlier.isGenesis then .ok limit.toCompact
    else ExponentialAverage.step previous earlier.time spacing limit

/-- The bits on top of `last` by the weighted average of its `kind`. A chain that is too short for a
window asks for the limit; a stake side that is too short takes single steps. -/
def weightedBits (store : ChainStore) (last : BlockRecord) (params : ConsensusParams)
    (kind : ProofKind) : Except Fault CompactBits := do
  if params.isFixed kind then return (store.lastOfKind last kind).bits
  let spacing := params.spacing.toInt
  let size := params.averagingWindow.toInt
  let limit := params.limit kind
  let needed ← Signed64.check (size + 1)
  if last.height < needed then return limit.toCompact
  let window ← store.sampleWithRoom last (Signed64.unsigned needed) kind
  if window.size ≤ size then
    if kind = .stake ∧ store.countStake last 0 ≤ needed then
      store.youngStakeBits last spacing limit
    else
      return limit.toCompact
  else
    match ← store.weightedTarget last window size spacing with
    | some target => return target.clampedBits limit
    | none => return limit.toCompact

end ChainStore

end HybridConsensus
