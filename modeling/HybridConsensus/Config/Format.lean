import HybridConsensus.Config.Basic
import HybridConsensus.Json.Reader
import HybridConsensus.Params.Format

/-!
# The JSON form of a configuration

Every field may be left out, and a member that is no field is refused.
-/

namespace HybridConsensus

def SeedCachePolicy.toJson (policy : SeedCachePolicy) : Json :=
  .ofText policy.name

def SeedCachePolicy.ofJson? (json : Json) : Option SeedCachePolicy := do
  match ← json.asName? with
  | "height-window" => some .heightWindow
  | "block-identity" => some .blockIdentity
  | _ => none

namespace ParamsOverrides

def fieldNames : List String :=
  ["pow_limit", "pos_limit", "pow_allow_min_difficulty_blocks", "pow_no_retargeting",
    "pos_no_retargeting", "pow_target_spacing", "lwma_averaging_window", "retarget_algorithm",
    "qip9_height", "reduce_blocktime_height", "rx2_seed_height", "rx2_seed_interval"]

def toJson (overrides : ParamsOverrides) : Json :=
  let flag (value : Option Bool) : Json := (value.map Json.bool).getD .null
  let signed (value : Option Int64) : Json := (value.map (.ofInt ·.toInt)).getD .null
  let height (value : Option UInt32) : Json := (value.map (.ofNat ·.toNat)).getD .null
  .ofRecord [
    ("pow_limit", .ofTextOrNull overrides.workLimit),
    ("pos_limit", .ofTextOrNull overrides.stakeLimit),
    ("pow_allow_min_difficulty_blocks", flag overrides.allowsMinimumDifficulty),
    ("pow_no_retargeting", flag overrides.workIsFixed),
    ("pos_no_retargeting", flag overrides.stakeIsFixed),
    ("pow_target_spacing", signed overrides.spacing),
    ("lwma_averaging_window", signed overrides.averagingWindow),
    ("retarget_algorithm", (overrides.algorithm.map (·.toJson)).getD .null),
    ("qip9_height", height overrides.qip9Height),
    ("reduce_blocktime_height", height overrides.fastHeight),
    ("rx2_seed_height", height overrides.seedHeight),
    ("rx2_seed_interval", height overrides.seedInterval)]

def ofJson? (json : Json) : Option ParamsOverrides := do
  let fields ← Json.Fields.ofJson? fieldNames .refused json
  let workLimit ← fields.optional "pow_limit" Json.asText?
  let stakeLimit ← fields.optional "pos_limit" Json.asText?
  let allowsMinimumDifficulty ← fields.optional "pow_allow_min_difficulty_blocks" Json.asBool?
  let workIsFixed ← fields.optional "pow_no_retargeting" Json.asBool?
  let stakeIsFixed ← fields.optional "pos_no_retargeting" Json.asBool?
  let spacing ← fields.optional "pow_target_spacing" Json.asInt64?
  let averagingWindow ← fields.optional "lwma_averaging_window" Json.asInt64?
  let algorithm ← fields.optional "retarget_algorithm" RetargetAlgorithm.ofJson?
  let qip9Height ← fields.optional "qip9_height" Json.asUInt32?
  let fastHeight ← fields.optional "reduce_blocktime_height" Json.asUInt32?
  let seedHeight ← fields.optional "rx2_seed_height" Json.asUInt32?
  let seedInterval ← fields.optional "rx2_seed_interval" Json.asUInt32?
  return {
    workLimit, stakeLimit, allowsMinimumDifficulty, workIsFixed, stakeIsFixed, spacing,
    averagingWindow, algorithm, qip9Height, fastHeight, seedHeight, seedInterval }

end ParamsOverrides

namespace NodeConfig

def fieldNames : List String :=
  ["network", "params", "log_filter", "hash_memo", "seed_cache"]

def toJson (config : NodeConfig) : Json :=
  .ofRecord [
    ("network", config.network.toJson),
    ("params", config.params.toJson),
    ("log_filter", .ofTextOrNull config.logFilter),
    ("hash_memo", .bool config.hashMemo),
    ("seed_cache", config.seedCache.toJson)]

def ofJson? (json : Json) : Option NodeConfig := do
  let fields ← Json.Fields.ofJson? fieldNames .refused json
  let network ← fields.withDefault "network" .main Network.ofJson?
  let params ← fields.withDefault "params" .none ParamsOverrides.ofJson?
  let logFilter ← fields.optional "log_filter" Json.asText?
  let hashMemo ← fields.withDefault "hash_memo" false Json.asBool?
  let seedCache ← fields.withDefault "seed_cache" .blockIdentity SeedCachePolicy.ofJson?
  return { network, params, logFilter, hashMemo, seedCache }

def ofText (text : String) : Except ConfigError NodeConfig :=
  match (Json.read? text).bind ofJson? with
  | some config => .ok config
  | none => .error .invalidFormat

end NodeConfig

end HybridConsensus
