import HybridConsensus.Fixture.Basic
import HybridConsensus.Json.Decoding
import HybridConsensus.Json.Reader

/-!
# The JSON form of a fixture

A block is a work block unless it says otherwise. A member that is no field is refused.
-/

namespace HybridConsensus

def ProofKind.toJson : ProofKind → Json
  | .work => .ofText "work"
  | .stake => .ofText "stake"

/-- Both kinds have a short name too. -/
def ProofKind.ofName? : String → Option ProofKind
  | "work" | "pow" => some .work
  | "stake" | "pos" => some .stake
  | _ => none

def ProofKind.ofJson? (json : Json) : Option ProofKind := do
  ofName? (← json.asName?)

namespace BlockEntry

def fieldNames : List String :=
  ["time", "bits", "proof", "hash", "parent"]

def toJson (entry : BlockEntry) : Json :=
  .ofRecord [
    ("time", .ofInt entry.time.toInt),
    ("bits", .ofText entry.bits),
    ("proof", entry.proof.toJson),
    ("hash", .ofTextOrNull entry.hash),
    ("parent", .ofTextOrNull entry.parent)]

def ofJson? (json : Json) : Option BlockEntry := do
  let fields ← Json.Fields.ofJson? fieldNames .refused json
  let time ← fields.required "time" Json.asInt64?
  let bits ← fields.required "bits" Json.asText?
  let proof ← fields.withDefault "proof" .work ProofKind.ofJson?
  let hash ← fields.optional "hash" Json.asText?
  let parent ← fields.optional "parent" Json.asText?
  return { time, bits, proof, hash, parent }

end BlockEntry

namespace ChainFixture

def fieldNames : List String :=
  ["genesis", "blocks", "tip"]

def toJson (fixture : ChainFixture) : Json :=
  .ofRecord [
    ("genesis", fixture.genesis.toJson),
    ("blocks", .array (fixture.blocks.map (·.toJson))),
    ("tip", .ofTextOrNull fixture.tip)]

def ofJson? (json : Json) : Option ChainFixture := do
  let fields ← Json.Fields.ofJson? fieldNames .refused json
  let genesis ← fields.required "genesis" BlockEntry.ofJson?
  let blocks ← fields.withDefault "blocks" [] (Json.asList? BlockEntry.ofJson?)
  let tip ← fields.optional "tip" Json.asText?
  return { genesis, blocks, tip }

def ofText (text : String) : Except FixtureError ChainFixture :=
  match (Json.read? text).bind ofJson? with
  | some fixture => .ok fixture
  | none => .error .invalidFormat

end ChainFixture

end HybridConsensus
