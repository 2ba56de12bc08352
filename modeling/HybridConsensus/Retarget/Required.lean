import HybridConsensus.Retarget.Weighted

/-!
# Required bits

The bits that the next block of a kind has to carry. The first two blocks of a kind may use the
limit; from then on the network's algorithm decides, or, where minimum-difficulty blocks are
allowed, the time of the new block.
-/

namespace HybridConsensus

/-- A block is an exception when it carries the bits of the limit between two multiples of the
interval. -/
def isRegular (params : ConsensusParams) (limitBits : CompactBits) (block : BlockRecord) : Bool :=
  match params.intervalAt block.height with
  | .ok interval => block.height % (max interval 1).toNat == 0 || block.bits != limitBits
  | .error _ => true

namespace ChainStore

/-- The bits of the newest block that is no exception, or of genesis. -/
def regularBits (store : ChainStore) (last : BlockRecord) (limitBits : CompactBits)
    (params : ConsensusParams) : Except Fault CompactBits := do
  let block := store.descendTo (isRegular params limitBits) last
  if !block.isGenesis then
    let _ ← params.intervalAt block.height
  return block.bits

/-- A block that comes more than two spacings after the tip may use the limit. -/
def minimumDifficultyBits (store : ChainStore) (last : BlockRecord) (time : Int64) (height : Nat)
    (limitBits : CompactBits) (params : ConsensusParams) : Except Fault CompactBits := do
  let wait ← Signed64.check (params.spacingAt height * 2)
  if Signed64.clamp (last.time.toInt + wait) < time.toInt then return limitBits
  else store.regularBits last limitBits params

/-- The bits of a block of `kind` at `time` on top of `last`, or of a first block. -/
def requiredBits (store : ChainStore) (last : Option BlockRecord) (time : Int64)
    (params : ConsensusParams) (kind : ProofKind) : Except Fault CompactBits :=
  match last with
  | none => .ok (params.limitAt kind 0).toCompact
  | some last =>
    let height := nextHeight last.height
    let limitBits := (params.limitAt kind height).toCompact
    let previous := store.lastOfKind last kind
    match store.predecessor? previous with
    | none => .ok limitBits
    | some before =>
      let earlier := store.lastOfKind before kind
      if earlier.isGenesis then .ok limitBits
      else if params.allowsMinimumDifficulty then
        store.minimumDifficultyBits last time height limitBits params
      else match params.algorithm with
        | .weighted => store.weightedBits previous params kind
        | .exponential => ExponentialAverage.nextBits previous earlier.time params kind

end ChainStore

end HybridConsensus
