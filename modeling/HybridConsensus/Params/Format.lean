import HybridConsensus.Json.Decoding
import HybridConsensus.Params.Basic

/-!
# The JSON form of parameters

Targets are written as sixty-four digits. Every field must be given; members that are no fields are
passed over.
-/

namespace HybridConsensus

def Target.toJson (target : Target) : Json :=
  .ofText target.toHex

def Target.ofJson? (json : Json) : Option Target := do
  (Target.ofHex (← json.asText?)).toOption

def Network.toJson (network : Network) : Json :=
  .ofText network.name

def Network.ofJson? (json : Json) : Option Network := do
  match ← json.asName? with
  | "main" => some .main
  | "test" => some .test
  | "regtest" => some .regtest
  | _ => none

def RetargetAlgorithm.toJson (algorithm : RetargetAlgorithm) : Json :=
  .ofText algorithm.name

def RetargetAlgorithm.ofJson? (json : Json) : Option RetargetAlgorithm := do
  match ← json.asName? with
  | "lwma" => some .weighted
  | "legacy-ema" => some .exponential
  | _ => none

namespace ConsensusParams

def fieldNames : List String :=
  ["pow_limit", "pos_limit", "qip9_pos_limit", "rbt_pos_limit", "pow_allow_min_difficulty_blocks",
    "pow_no_retargeting", "pos_no_retargeting", "pow_target_spacing", "rbt_pow_target_spacing",
    "pow_target_timespan", "pow_target_timespan_v2", "rbt_pow_target_timespan", "qip9_height",
    "reduce_blocktime_height", "stake_timestamp_mask", "rbt_stake_timestamp_mask",
    "lwma_averaging_window", "retarget_algorithm", "rx2_seed_height", "rx2_seed_interval"]

def toJson (params : ConsensusParams) : Json :=
  .ofRecord [
    ("pow_limit", params.workLimit.toJson),
    ("pos_limit", params.stakeLimit.toJson),
    ("qip9_pos_limit", params.qip9StakeLimit.toJson),
    ("rbt_pos_limit", params.fastStakeLimit.toJson),
    ("pow_allow_min_difficulty_blocks", .bool params.allowsMinimumDifficulty),
    ("pow_no_retargeting", .bool params.workIsFixed),
    ("pos_no_retargeting", .bool params.stakeIsFixed),
    ("pow_target_spacing", .ofInt params.spacing.toInt),
    ("rbt_pow_target_spacing", .ofInt params.fastSpacing.toInt),
    ("pow_target_timespan", .ofInt params.timespan.toInt),
    ("pow_target_timespan_v2", .ofInt params.qip9Timespan.toInt),
    ("rbt_pow_target_timespan", .ofInt params.fastTimespan.toInt),
    ("qip9_height", .ofNat params.qip9Height.toNat),
    ("reduce_blocktime_height", .ofNat params.fastHeight.toNat),
    ("stake_timestamp_mask", .ofNat params.stakeTimeMask.toNat),
    ("rbt_stake_timestamp_mask", .ofNat params.fastStakeTimeMask.toNat),
    ("lwma_averaging_window", .ofInt params.averagingWindow.toInt),
    ("retarget_algorithm", params.algorithm.toJson),
    ("rx2_seed_height", .ofNat params.seedHeight.toNat),
    ("rx2_seed_interval", .ofNat params.seedInterval.toNat)]

def ofJson? (json : Json) : Option ConsensusParams := do
  let fields ← Json.Fields.ofJson? fieldNames .ignored json
  let workLimit ← fields.required "pow_limit" Target.ofJson?
  let stakeLimit ← fields.required "pos_limit" Target.ofJson?
  let qip9StakeLimit ← fields.required "qip9_pos_limit" Target.ofJson?
  let fastStakeLimit ← fields.required "rbt_pos_limit" Target.ofJson?
  let allowsMinimumDifficulty ← fields.required "pow_allow_min_difficulty_blocks" Json.asBool?
  let workIsFixed ← fields.required "pow_no_retargeting" Json.asBool?
  let stakeIsFixed ← fields.required "pos_no_retargeting" Json.asBool?
  let spacing ← fields.required "pow_target_spacing" Json.asInt64?
  let fastSpacing ← fields.required "rbt_pow_target_spacing" Json.asInt64?
  let timespan ← fields.required "pow_target_timespan" Json.asInt64?
  let qip9Timespan ← fields.required "pow_target_timespan_v2" Json.asInt64?
  let fastTimespan ← fields.required "rbt_pow_target_timespan" Json.asInt64?
  let qip9Height ← fields.required "qip9_height" Json.asUInt32?
  let fastHeight ← fields.required "reduce_blocktime_height" Json.asUInt32?
  let stakeTimeMask ← fields.required "stake_timestamp_mask" Json.asUInt32?
  let fastStakeTimeMask ← fields.required "rbt_stake_timestamp_mask" Json.asUInt32?
  let averagingWindow ← fields.required "lwma_averaging_window" Json.asInt64?
  let algorithm ← fields.required "retarget_algorithm" RetargetAlgorithm.ofJson?
  let seedHeight ← fields.required "rx2_seed_height" Json.asUInt32?
  let seedInterval ← fields.required "rx2_seed_interval" Json.asUInt32?
  return {
    workLimit, stakeLimit, qip9StakeLimit, fastStakeLimit, allowsMinimumDifficulty, workIsFixed,
    stakeIsFixed, spacing, fastSpacing, timespan, qip9Timespan, fastTimespan, qip9Height,
    fastHeight, stakeTimeMask, fastStakeTimeMask, averagingWindow, algorithm, seedHeight,
    seedInterval }

end ConsensusParams

end HybridConsensus
