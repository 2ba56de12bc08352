import HybridConsensus.Params.Basic
import HybridConsensus.Signed64

/-!
# The height schedule

Spacing, timespan, stake-time granularity and the limit on stake targets change at two heights.
-/

namespace HybridConsensus.ConsensusParams

def isFixed (params : ConsensusParams) : ProofKind → Bool
  | .work => params.workIsFixed
  | .stake => params.stakeIsFixed

/-- The limit of a kind before any era. -/
def limit (params : ConsensusParams) : ProofKind → Target
  | .work => params.workLimit
  | .stake => params.stakeLimit

def limitAt (params : ConsensusParams) (kind : ProofKind) (height : Nat) : Target :=
  match kind with
  | .work => params.workLimit
  | .stake =>
    if height < params.qip9Height.toNat then params.stakeLimit
    else if height < params.fastHeight.toNat then params.qip9StakeLimit
    else params.fastStakeLimit

def spacingAt (params : ConsensusParams) (height : Nat) : Int :=
  if height < params.fastHeight.toNat then params.spacing.toInt else params.fastSpacing.toInt

def timespanAt (params : ConsensusParams) (height : Nat) : Int :=
  if height < params.qip9Height.toNat then params.timespan.toInt
  else if height < params.fastHeight.toNat then params.qip9Timespan.toInt
  else params.fastTimespan.toInt

/-- Blocks in a timespan. -/
def intervalAt (params : ConsensusParams) (height : Nat) : Except Fault Int :=
  Signed64.divide (params.timespanAt height) (params.spacingAt height)

def stakeTimeMaskAt (params : ConsensusParams) (height : Nat) : UInt32 :=
  if height < params.fastHeight.toNat then params.stakeTimeMask else params.fastStakeTimeMask

end HybridConsensus.ConsensusParams
