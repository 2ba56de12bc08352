import HybridConsensus.CommandLine.Benchmark
import HybridConsensus.CommandLine.Files
import HybridConsensus.CommandLine.Help
import HybridConsensus.Config.Format
import HybridConsensus.Fixture.Format
import HybridConsensus.Json.Printer
import HybridConsensus.LogFilter
import HybridConsensus.PowChecker
import HybridConsensus.Retarget.Required

/-!
# Running a command

A run takes the arguments and the files they name to an exit status, lines of output and perhaps an
error. The configuration is read first, then the log filter and the parameters are checked, and then
the command runs.
-/

namespace HybridConsensus.CommandLine

inductive CommandError
  | config (error : ConfigError)
  | logFilter (error : LogFilterError)
  | fixture (error : FixtureError)
  | hex (error : HexError)
  | engine (error : EngineError)
  | missedTarget (bits : CompactBits)
  | fault (fault : Fault)

def CommandError.message : CommandError → String
  | .config error => error.message
  | .logFilter error => error.message
  | .fixture error => error.message
  | .hex error => error.message
  | .engine error => error.message
  | .missedTarget bits => "Proof of work does not meet target " ++ bits.toHex
  | .fault .overflow => "attempt to compute beyond 64 bits"
  | .fault .divisionByZero => "attempt to divide by zero"

/-- Lines of output. Two of them tell how long a benchmark took, which only its run can know. -/
inductive OutputLine
  | text (line : String)
  | elapsedTime
  | hashRate (hashes : Nat)
deriving DecidableEq

structure Outcome where
  status : Nat
  lines : List OutputLine
  error : Option String
deriving DecidableEq

structure Surroundings where
  read : FileReader
  defaultConfig : String
  processors : Nat

abbrev Lines := List OutputLine

def textLines (lines : List String) : Lines :=
  lines.map .text

/-- Without a path a missing file stands for the defaults. -/
def loadConfig (surroundings : Surroundings) (path : Option String) :
    Except ConfigError NodeConfig :=
  match path with
  | some path =>
    match surroundings.read path with
    | .ok text => NodeConfig.ofText text
    | .error error => .error (.unreadable error.message)
  | none =>
    match surroundings.read surroundings.defaultConfig with
    | .ok text => NodeConfig.ofText text
    | .error .notFound | .error .notDirectory | .error .nameTooLong => .ok .default
    | .error error => .error (.unreadable error.message)

def loadChain (surroundings : Surroundings) (path : String) : Except CommandError ChainStore := do
  match surroundings.read path with
  | .error error => throw (.fixture (.unreadable error.message))
  | .ok text =>
    let fixture ← (ChainFixture.ofText text).mapError .fixture
    fixture.build.mapError .fixture

def showParams (params : ConsensusParams) (json : Bool) : Lines :=
  textLines <|
    if json then (cutAt '\n' (params.toJson.writePretty 0 [])).map String.ofList
    else params.summary

def nextWork (surroundings : Surroundings) (params : ConsensusParams) (chain : String)
    (kind : ProofKind) (time : Option Int64) : Except CommandError Lines := do
  let store ← loadChain surroundings chain
  let tip := store.tip
  let height := tip.height + 1
  let time ← match time with
    | some time => .ok time
    | none =>
      ((Signed64.check (tip.time.toInt + params.spacingAt height)).map Int64.ofInt).mapError .fault
  let bits ← (store.requiredBits (some tip) time params kind).mapError .fault
  return textLines [
    "Height: " ++ toString height,
    "Kind:   " ++ kind.label,
    "Bits:   " ++ bits.toHex,
    "Target: " ++ bits.target.toHex]

/-- The lines of a proof that misses its target are shown all the same. -/
def checkPow (surroundings : Surroundings) (config : NodeConfig) (params : ConsensusParams)
    (chain : String) (height : Nat) (header bits : String) :
    Except CommandError (Lines × Option CommandError) := do
  let header ← (Hex.toBytes (Hex.dropMarkers header.toList)).mapError .hex
  let bits ← (Fixture.parseBits bits).mapError .fixture
  let store ← loadChain surroundings chain
  let checker := PowChecker.ofParams params config.seedCache config.hashMemo
  let (answer, checker, _) := checker.check universalLibrary store height header bits ()
  let check ← answer.mapError .engine
  let seedHeight := checker.seeds.schedule.seedBlockHeight height
  let shown := textLines [
    "Seed:   " ++ check.seed.toHex ++ " (height " ++ toString seedHeight ++ ")",
    "Hash:   " ++ check.hash.toHex,
    "Target: " ++ bits.target.toHex]
  if check.valid then return (shown ++ textLines ["Valid proof of work"], none)
  else return (shown, some (.missedTarget bits))

def showSeed (surroundings : Surroundings) (config : NodeConfig) (params : ConsensusParams)
    (chain : String) (height : Nat) : Except CommandError Lines := do
  let store ← loadChain surroundings chain
  let selector := SeedSelector.ofParams params config.seedCache
  let (seed, selector) := selector.seedFor store height
  return textLines [
    "Height:      " ++ toString height,
    "Seed height: " ++ toString (selector.schedule.seedBlockHeight height),
    "Seed:        " ++ seed.toHex]

def showHash (seed data : String) : Except CommandError Lines := do
  let seed ← (Fixture.parseHash seed).mapError .fixture
  let data ← (Hex.toBytes (Hex.dropMarkers data.toList)).mapError .hex
  let (answer, _) := HashEngine.idle.hash universalLibrary false data seed ()
  let output ← answer.mapError .engine
  return textLines [BlockHash.toHex ⟨output⟩]

def showBenchmark (benchmark : Benchmark) : Lines :=
  let total := benchmark.total
  textLines [
    "Running benchmark with " ++ toString benchmark.count ++ " hashes on " ++
      toString benchmark.threads ++ " threads...",
    "", "Results:", "  Total hashes: " ++ toString total] ++
  [.elapsedTime, .hashRate total]

/-- At least one thread works. -/
def benchmarkOf (surroundings : Surroundings) (count : Nat) (threads : Option Nat) : Benchmark where
  count := count
  threads := max (threads.getD surroundings.processors) 1

def runCommand (surroundings : Surroundings) (config : NodeConfig) (params : ConsensusParams) :
    Command → Except CommandError (Lines × Option CommandError)
  | .params json => .ok (showParams params json, none)
  | .nextWork chain kind time => do return (← nextWork surroundings params chain kind time, none)
  | .checkPow chain height header bits =>
    checkPow surroundings config params chain height header bits
  | .seed chain height => do return (← showSeed surroundings config params chain height, none)
  | .hash seed data => do return (← showHash seed data, none)
  | .benchmark count threads => .ok (showBenchmark (benchmarkOf surroundings count threads), none)

def runInvocation (surroundings : Surroundings) (invocation : Invocation) :
    Except CommandError (Lines × Option CommandError) := do
  let loaded ← (loadConfig surroundings invocation.config).mapError .config
  let config := { loaded with network := invocation.network.getD loaded.network }
  (LogFilter.check (LogFilter.directives config.logFilter)).mapError .logFilter
  let params ← config.consensusParams.mapError .config
  runCommand surroundings config params invocation.command

/-- A refusal has status 1. A fault, or a text cut inside a character, has status 101. -/
def failed (lines : Lines) : CommandError → Outcome
  | .fault _ | .logFilter .insideCharacter => { status := 101, lines, error := none }
  | error => { status := 1, lines, error := some error.message }

def run (surroundings : Surroundings) (arguments : List String) : Outcome :=
  match Invocation.ofArguments arguments with
  | .error .usage => { status := 2, lines := [], error := none }
  | .error .version => { status := 0, lines := textLines [version], error := none }
  | .error (.help command) => { status := 0, lines := textLines (helpPage command), error := none }
  | .ok invocation =>
    match runInvocation surroundings invocation with
    | .ok (lines, none) => { status := 0, lines, error := none }
    | .ok (lines, some error) => failed lines error
    | .error error => failed [] error

end HybridConsensus.CommandLine
