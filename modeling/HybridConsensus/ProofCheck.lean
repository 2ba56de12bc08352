import HybridConsensus.Params.Basic

/-!
# The proof check

A hash meets bits if the bits bound a proof at all, ask for no more than the network's work limit,
and the hash is at most their target. The work limit bounds blocks of either kind.
-/

namespace HybridConsensus

def BlockHash.meets (hash : BlockHash) (bits : CompactBits) (params : ConsensusParams) : Bool :=
  let decoded := bits.decode
  decoded.isValid && decoded.target ≤ params.workLimit && hash.toTarget ≤ decoded.target

end HybridConsensus
