import HybridConsensus.Params.Basic
import HybridConsensus.Seed

/-!
# Node configuration

A configuration names a network, replaces some of its parameters and sets the options of the hash
engine. The parameters in effect are the preset with the replacements made, if a network can run
with them.
-/

namespace HybridConsensus

structure ParamsOverrides where
  workLimit : Option String
  stakeLimit : Option String
  allowsMinimumDifficulty : Option Bool
  workIsFixed : Option Bool
  stakeIsFixed : Option Bool
  spacing : Option Int64
  averagingWindow : Option Int64
  algorithm : Option RetargetAlgorithm
  qip9Height : Option UInt32
  fastHeight : Option UInt32
  seedHeight : Option UInt32
  seedInterval : Option UInt32
deriving DecidableEq

def ParamsOverrides.none : ParamsOverrides where
  workLimit := .none
  stakeLimit := .none
  allowsMinimumDifficulty := .none
  workIsFixed := .none
  stakeIsFixed := .none
  spacing := .none
  averagingWindow := .none
  algorithm := .none
  qip9Height := .none
  fastHeight := .none
  seedHeight := .none
  seedInterval := .none

structure NodeConfig where
  network : Network
  params : ParamsOverrides
  logFilter : Option String
  hashMemo : Bool
  seedCache : SeedCachePolicy
deriving DecidableEq

def NodeConfig.default : NodeConfig where
  network := .main
  params := .none
  logFilter := none
  hashMemo := false
  seedCache := .blockIdentity

inductive ConfigError
  | unreadable (reason : String)
  | invalidFormat
  | invalidTarget (field value : String)
  | params (error : ParamsError)
deriving DecidableEq

def ConfigError.message : ConfigError → String
  | .unreadable reason => "File I/O error: " ++ reason
  | .invalidFormat => "Invalid config file: not a configuration in JSON"
  | .invalidTarget field value => "Invalid target for " ++ field ++ ": " ++ value
  | .params error => error.message

/-- The target that replaces that of `field`, or the one in place. -/
def overriddenTarget (field : String) (text : Option String) (target : Target) :
    Except ConfigError Target :=
  match text with
  | none => .ok target
  | some text =>
    match Target.ofHex text with
    | .ok replacement => .ok replacement
    | .error _ => .error (.invalidTarget field text)

def ParamsOverrides.apply (overrides : ParamsOverrides) (params : ConsensusParams) :
    Except ConfigError ConsensusParams := do
  let workLimit ← overriddenTarget "pow_limit" overrides.workLimit params.workLimit
  let stakeLimit ← overriddenTarget "pos_limit" overrides.stakeLimit params.stakeLimit
  return { params with
    workLimit, stakeLimit
    allowsMinimumDifficulty := overrides.allowsMinimumDifficulty.getD params.allowsMinimumDifficulty
    workIsFixed := overrides.workIsFixed.getD params.workIsFixed
    stakeIsFixed := overrides.stakeIsFixed.getD params.stakeIsFixed
    spacing := overrides.spacing.getD params.spacing
    averagingWindow := overrides.averagingWindow.getD params.averagingWindow
    algorithm := overrides.algorithm.getD params.algorithm
    qip9Height := overrides.qip9Height.getD params.qip9Height
    fastHeight := overrides.fastHeight.getD params.fastHeight
    seedHeight := overrides.seedHeight.getD params.seedHeight
    seedInterval := overrides.seedInterval.getD params.seedInterval }

/-- The parameters in effect. -/
def NodeConfig.consensusParams (config : NodeConfig) : Except ConfigError ConsensusParams := do
  let params ← config.params.apply (.ofNetwork config.network)
  match params.validate with
  | .ok () => return params
  | .error error => throw (.params error)

end HybridConsensus
