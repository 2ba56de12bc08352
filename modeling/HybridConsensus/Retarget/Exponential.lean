import HybridConsensus.Target.Series
import HybridConsensus.Params.Schedule

/-!
# Exponential averages

After each block the target moves a little toward the goal: up if the block came late, down if it
came early. Below the first switch height the move is linear in the observed spacing `a`, from there
on it is `exp (2 * (a - T) / ((interval + 1) * T))`, with both parts of the fraction counted in
steps of the stake clock.
-/

namespace HybridConsensus

/-- The bits of a target that a limit bounds. No target is zero. -/
def Target.clampedBits (target limit : Target) : CompactBits :=
  if target.isZero ∨ limit < target then limit.toCompact else target.toCompact

namespace ExponentialAverage

/-- `target * ((interval - 1) * T + 2 * a) / ((interval + 1) * T)`, where `a` is the observed
spacing. -/
def blend (target : Target) (observed spacing interval : Int) : Except Fault Target := do
  let older ← Signed64.check (interval - 1)
  let past ← Signed64.check (older * spacing)
  let recent ← Signed64.check (2 * observed)
  let numerator ← Signed64.check (past + recent)
  let span ← Signed64.check (interval + 1)
  let denominator ← Signed64.check (span * spacing)
  return (target.mul (max numerator 0).toNat).div (max denominator 1).toNat

/-- One step between two neighbouring blocks of a kind, for a stake side that is too young for a
window: the interval is one, and a spacing below zero counts as one second. -/
def step (previous : BlockRecord) (earlierTime : Int64) (spacing : Int) (limit : Target) :
    Except Fault CompactBits := do
  let observed := Signed64.clamp (previous.time.toInt - earlierTime.toInt)
  let positive := if observed < 0 then 1 else observed
  let longest ← Signed64.check (spacing * 10)
  let target ← blend previous.bits.target (min positive longest) spacing 1
  return target.clampedBits limit

def linearTarget (target : Target) (observed spacing interval : Int) : Except Fault Target := do
  let longest ← Signed64.check (spacing * 10)
  blend target (min observed longest) spacing interval

def exponentialTarget (target : Target) (observed spacing interval granularity : Int) :
    Except Fault Target := do
  let longest ← Signed64.check (spacing * 20)
  let excess ← Signed64.check (min observed longest - spacing)
  let doubled ← Signed64.check (2 * excess)
  let p ← Signed64.divide doubled granularity
  let span ← Signed64.check (interval + 1)
  let weight ← Signed64.check (span * spacing)
  let q ← Signed64.divide weight granularity
  return target.mulExp p q

/-- The bits on top of `last`, a block of `kind`, when the one before it was made at `earlierTime`.
-/
def nextBits (last : BlockRecord) (earlierTime : Int64) (params : ConsensusParams)
    (kind : ProofKind) : Except Fault CompactBits := do
  if params.isFixed kind then return last.bits
  let height := nextHeight last.height
  let spacing := params.spacingAt height
  let interval ← params.intervalAt height
  let observed := Signed64.clamp (last.time.toInt - earlierTime.toInt)
  let forward := if observed < 0 then spacing else observed
  let target ←
    if height < params.qip9Height.toNat then
      linearTarget last.bits.target forward spacing interval
    else
      exponentialTarget last.bits.target forward spacing interval
        ((params.stakeTimeMaskAt height).toNat + 1)
  return target.clampedBits (params.limitAt kind height)

end ExponentialAverage

end HybridConsensus
