import HybridConsensus.CommandLine.Options
import HybridConsensus.Params.Basic
import HybridConsensus.Signed64
import HybridConsensus.Text

/-!
# Invocations

What the arguments ask for: one of six commands, a configuration file and a network. The last two
may stand before the command or behind it; behind it wins.
-/

namespace HybridConsensus.CommandLine

/-! ### Values -/

def readDigits? : List Char → Option Nat
  | [] => none
  | digits => if digits.all Char.isDigit then some (decimalValue digits) else none

def readInt64? (text : String) : Option Int := do
  let value ← match text.toList with
    | '-' :: digits => (readDigits? digits).map fun value => -(value : Int)
    | '+' :: digits => (readDigits? digits).map Int.ofNat
    | digits => (readDigits? digits).map Int.ofNat
  if Signed64.InRange value then some value else none

def readTime? (text : String) : Option Int64 :=
  (readInt64? text).map Int64.ofInt

def readCount32? (text : String) : Option Nat := do
  let value ← readInt64? text
  if 0 ≤ value ∧ value < UInt32.size then some value.toNat else none

def readCount64? (text : String) : Option Nat := do
  let value ← match text.toList with
    | '+' :: digits => readDigits? digits
    | digits => readDigits? digits
  if value < UInt64.size then some value else none

def readNetwork? (text : String) : Option Network :=
  (Network.ofName text).toOption

def readKind? : String → Option ProofKind
  | "pow" => some .work
  | "pos" => some .stake
  | _ => none

/-! ### Commands -/

inductive Command
  | params (json : Bool)
  | nextWork (chain : String) (kind : ProofKind) (time : Option Int64)
  | checkPow (chain : String) (height : Nat) (header bits : String)
  | seed (chain : String) (height : Nat)
  | hash (seed data : String)
  | benchmark (count : Nat) (threads : Option Nat)
deriving DecidableEq

structure Invocation where
  command : Command
  config : Option String
  network : Option Network
deriving DecidableEq

structure CommandSpec where
  name : String
  help : String
  options : List OptionSpec
  required : List String
  command : Given → Option Command

def pathOption (name help : String) : OptionSpec :=
  { name, short := none, value := some name.toUpper, accepts := (!·.isEmpty), help }

def textOption (name help : String) : OptionSpec :=
  { name, short := none, value := some name.toUpper, accepts := fun _ => true, help }

def heightOption (help : String) : OptionSpec :=
  { name := "height", short := none, value := some "HEIGHT",
    accepts := fun text => (readCount32? text).isSome, help }

def chainOption : OptionSpec :=
  pathOption "chain" "Chain fixture (JSON)"

def globalOptions : List OptionSpec :=
  [pathOption "config" "Config file path (default: ~/.rx2pow/config.json)",
    { name := "network", short := none, value := some "NETWORK",
      accepts := fun text => (readNetwork? text).isSome,
      help := "Network preset, overriding the config file" }]

def paramsSpec : CommandSpec where
  name := "params"
  help := "Show the consensus parameters in effect"
  options := [
    { name := "json", short := none, value := none, accepts := fun _ => true,
      help := "Print as JSON" }]
  required := []
  command given := some (.params (given.lookup "json").isSome)

def nextWorkSpec : CommandSpec where
  name := "next-work"
  help := "Required compact bits for the next block"
  options := [
    chainOption,
    { name := "kind", short := none, value := some "KIND",
      accepts := fun text => (readKind? text).isSome,
      help := "Proof kind of the next block [default: pow] [possible values: pow, pos]" },
    { name := "time", short := none, value := some "TIME",
      accepts := fun text => (readTime? text).isSome,
      help := "Timestamp of the next block (default: tip time + target spacing)" }]
  required := ["chain"]
  command given := do
    let kind := ((given.lookup "kind").bind readKind?).getD .work
    return .nextWork (← given.lookup "chain") kind ((given.lookup "time").bind readTime?)

def checkPowSpec : CommandSpec where
  name := "check-pow"
  help := "Hash a serialized header and check it against compact bits"
  options := [
    chainOption, heightOption "Height of the block being checked",
    textOption "header" "Serialized header, hex", textOption "bits" "Claimed compact bits, hex"]
  required := ["chain", "height", "header", "bits"]
  command given := do
    let chain ← given.lookup "chain"
    let height ← (given.lookup "height").bind readCount32?
    return .checkPow chain height (← given.lookup "header") (← given.lookup "bits")

def seedSpec : CommandSpec where
  name := "seed"
  help := "Seed block selected for a height"
  options := [chainOption, heightOption "Height to select the seed for"]
  required := ["chain", "height"]
  command given := do
    return .seed (← given.lookup "chain") (← (given.lookup "height").bind readCount32?)

def hashSpec : CommandSpec where
  name := "hash"
  help := "Seeded hash of arbitrary data"
  options := [
    textOption "seed" "Seed block hash, display-order hex", textOption "data" "Data to hash, hex"]
  required := ["seed", "data"]
  command given := do
    return .hash (← given.lookup "seed") (← given.lookup "data")

def benchmarkSpec : CommandSpec where
  name := "benchmark"
  help := "Run performance benchmark"
  options := [
    { name := "count", short := some 'c', value := some "COUNT",
      accepts := fun text => (readCount32? text).isSome,
      help := "Number of hashes per thread [default: 100]" },
    { name := "threads", short := some 't', value := some "THREADS",
      accepts := fun text => (readCount64? text).isSome,
      help := "Number of threads to use (default: number of CPU cores)" }]
  required := []
  command given :=
    let count := ((given.lookup "count").bind readCount32?).getD 100
    some (.benchmark count ((given.lookup "threads").bind readCount64?))

def commandSpecs : List CommandSpec :=
  [paramsSpec, nextWorkSpec, checkPowSpec, seedSpec, hashSpec, benchmarkSpec]

def helpRequest : List String → Stop
  | [] => .help none
  | [name] => if (commandSpecs.find? (·.name = name)).isSome then .help (some name) else .usage
  | _ => .usage

def Invocation.ofArguments (arguments : List String) : Except Stop Invocation := do
  let names := "help" :: commandSpecs.map (·.name)
  let outer ← scan globalOptions names true arguments []
  match outer.command with
  | none => throw .usage
  | some ("help", rest) => throw (helpRequest rest)
  | some (name, rest) =>
    match commandSpecs.find? (·.name = name) with
    | none => throw .usage
    | some spec =>
      let inner ← match scan (spec.options ++ globalOptions) [] false rest [] with
        | .ok inner => .ok inner
        | .error (.help none) => .error (.help (some name))
        | .error stop => .error stop
      match spec.command inner.given with
      | none => throw .usage
      | some command =>
        let given := inner.given ++ outer.given
        return {
          command
          config := given.lookup "config"
          network := (given.lookup "network").bind readNetwork? }

end HybridConsensus.CommandLine
