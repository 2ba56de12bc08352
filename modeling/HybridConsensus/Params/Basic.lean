import HybridConsensus.Block

/-!
# Consensus parameters

What all nodes of a network agree on. Three presets exist, and `validate` says which other values a
network can run with.
-/

namespace HybridConsensus

inductive Network
  | main
  | test
  | regtest
deriving DecidableEq, Repr, Inhabited

def Network.name : Network → String
  | .main => "main"
  | .test => "test"
  | .regtest => "regtest"

inductive RetargetAlgorithm
  | weighted
  | exponential
deriving DecidableEq, Repr, Inhabited

def RetargetAlgorithm.name : RetargetAlgorithm → String
  | .weighted => "lwma"
  | .exponential => "legacy-ema"

def RetargetAlgorithm.label : RetargetAlgorithm → String
  | .weighted => "Lwma"
  | .exponential => "LegacyEma"

/-- A chain passes through three eras: up to `qip9Height`, from there to `fastHeight`, and from
there on. The fields named for an era hold in it. -/
structure ConsensusParams where
  workLimit : Target
  stakeLimit : Target
  qip9StakeLimit : Target
  fastStakeLimit : Target
  allowsMinimumDifficulty : Bool
  workIsFixed : Bool
  stakeIsFixed : Bool
  spacing : Int64
  fastSpacing : Int64
  timespan : Int64
  qip9Timespan : Int64
  fastTimespan : Int64
  qip9Height : UInt32
  fastHeight : UInt32
  stakeTimeMask : UInt32
  fastStakeTimeMask : UInt32
  averagingWindow : Int64
  algorithm : RetargetAlgorithm
  /-- How far a seed block lies below the start of its window. -/
  seedHeight : UInt32
  /-- Blocks in a seed window. -/
  seedInterval : UInt32
deriving DecidableEq

inductive ParamsError
  | unknownNetwork
  | emptyWindow
  | emptySpacing
  | shortTimespan
  | emptySeedInterval
  | zeroLimit
deriving DecidableEq, Repr

def ParamsError.reason : ParamsError → String
  | .unknownNetwork => "unknown network"
  | .emptyWindow => "lwma_averaging_window must be >= 1"
  | .emptySpacing => "target spacing must be >= 1"
  | .shortTimespan => "target timespan shorter than spacing"
  | .emptySeedInterval => "rx2_seed_interval must be >= 1"
  | .zeroLimit => "proof limits must be non-zero"

def ParamsError.message (error : ParamsError) : String :=
  "Invalid consensus parameters: " ++ error.reason

def Network.ofName : String → Except ParamsError Network
  | "main" | "mainnet" => .ok .main
  | "test" | "testnet" => .ok .test
  | "regtest" => .ok .regtest
  | _ => .error .unknownNetwork

namespace ConsensusParams

def main : ConsensusParams where
  workLimit := ⟨(1 <<< 240) - 1, by decide⟩
  stakeLimit := ⟨(1 <<< 224) - 1, by decide⟩
  qip9StakeLimit := ⟨(1 <<< 205) - 1, by decide⟩
  fastStakeLimit := ⟨(1 <<< 206) - 1, by decide⟩
  allowsMinimumDifficulty := false
  workIsFixed := false
  stakeIsFixed := false
  spacing := 150
  fastSpacing := 150
  timespan := 960
  qip9Timespan := 4000
  fastTimespan := 4000
  qip9Height := 0
  fastHeight := 0xffffffff
  stakeTimeMask := 15
  fastStakeTimeMask := 15
  averagingWindow := 120
  algorithm := .weighted
  seedHeight := 1000
  seedInterval := 2048

def test : ConsensusParams :=
  { main with
    allowsMinimumDifficulty := true
    seedHeight := 100
    seedInterval := 256 }

def regtest : ConsensusParams :=
  { main with
    workLimit := ⟨(1 <<< 255) - 1, by decide⟩
    stakeLimit := ⟨(1 <<< 255) - 1, by decide⟩
    qip9StakeLimit := ⟨(1 <<< 255) - 1, by decide⟩
    fastStakeLimit := ⟨(1 <<< 255) - 1, by decide⟩
    allowsMinimumDifficulty := true
    workIsFixed := true
    stakeIsFixed := true
    averagingWindow := 10
    seedHeight := 10
    seedInterval := 32 }

def ofNetwork : Network → ConsensusParams
  | .main => main
  | .test => test
  | .regtest => regtest

instance : Inhabited ConsensusParams :=
  ⟨main⟩

/-- The first reason why no network can run with these parameters. -/
def validate (params : ConsensusParams) : Except ParamsError Unit := do
  if params.averagingWindow.toInt < 1 then throw .emptyWindow
  if params.spacing.toInt < 1 ∨ params.fastSpacing.toInt < 1 then throw .emptySpacing
  if params.timespan.toInt < params.spacing.toInt ∨
      params.qip9Timespan.toInt < params.spacing.toInt ∨
      params.fastTimespan.toInt < params.fastSpacing.toInt then throw .shortTimespan
  if params.seedInterval = 0 then throw .emptySeedInterval
  if params.workLimit.isZero ∨ params.stakeLimit.isZero ∨ params.qip9StakeLimit.isZero ∨
      params.fastStakeLimit.isZero then throw .zeroLimit

/-- The summary shown to a reader, line by line. -/
def summary (params : ConsensusParams) : List String :=
  ["pow_limit:       " ++ params.workLimit.toHex,
    "pos_limit:       " ++ params.stakeLimit.toHex,
    "algorithm:       " ++ params.algorithm.label,
    "lwma window:     " ++ toString params.averagingWindow.toInt,
    "target spacing:  " ++ toString params.spacing.toInt ++ "s",
    "seed schedule:   start " ++ toString params.seedHeight.toNat ++
      " / interval " ++ toString params.seedInterval.toNat]

end ConsensusParams

end HybridConsensus
