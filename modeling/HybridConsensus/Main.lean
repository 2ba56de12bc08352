import HybridConsensus.CommandLine.Run

/-!
# The program

Reads the files that the arguments name, runs the command and shows what it gives.
-/

namespace HybridConsensus.CommandLine

def fileError (error : IO.Error) : FileError :=
  match error with
  | .noFileOrDirectory .. => .notFound
  | .permissionDenied .. => .permissionDenied
  | .inappropriateType _ _ "not a directory" => .notDirectory
  | .inappropriateType .. => .isDirectory
  | .invalidArgument _ _ "name too long" => .nameTooLong
  | error => .other (toString error)

def readPath (path : String) : IO (String × Except FileError String) := do
  try
    match String.fromUTF8? (← IO.FS.readBinFile path) with
    | some content => return (path, .ok content)
    | none => return (path, .error .notText)
  catch error =>
    return (path, .error (fileError error))

/-- The files that an invocation reads. -/
def pathsOf (defaultConfig : String) (invocation : Invocation) : List String :=
  let config := invocation.config.getD defaultConfig
  match invocation.command with
  | .nextWork chain _ _ | .checkPow chain _ _ _ | .seed chain _ => [config, chain]
  | _ => [config]

def countProcessors : IO Nat := do
  let (_, listed) ← readPath "/proc/cpuinfo"
  return ((listed.toOption.getD "").splitOn "\nprocessor").length

def benchmarkIn? (surroundings : Surroundings) (invocation : Invocation) : Option Benchmark :=
  match invocation.command with
  | .benchmark count threads => some (benchmarkOf surroundings count threads)
  | _ => none

/-- The milliseconds that a benchmark takes. -/
def timeBenchmark (benchmark : Benchmark) : IO Nat := do
  let start ← IO.monoMsNow
  let workers := (List.range benchmark.threads).map fun thread =>
    Task.spawn fun _ => benchmark.runThread thread
  for worker in workers do
    if let .error error := worker.get then throw (IO.userError error.message)
  return (← IO.monoMsNow) - start

def twoPlaces (hundredths : Nat) : String :=
  let rest := hundredths % 100
  toString (hundredths / 100) ++ "." ++ (if rest < 10 then "0" else "") ++ toString rest

def showLine (milliseconds : Nat) : OutputLine → IO Unit
  | .text line => IO.println line
  | .elapsedTime => IO.println ("  Time elapsed: " ++ twoPlaces (milliseconds / 10) ++ "s")
  | .hashRate hashes =>
    IO.println ("  Hashrate: " ++ twoPlaces (hashes * 100000 / max milliseconds 1) ++ " H/s")

def runProgram (arguments : List String) : IO UInt32 := do
  let home := (← IO.getEnv "HOME").getD "."
  let defaultConfig := home ++ "/.rx2pow/config.json"
  let invocation := (Invocation.ofArguments arguments).toOption
  let contents ← ((invocation.map (pathsOf defaultConfig)).getD []).mapM readPath
  let surroundings : Surroundings := {
    read := fun path => (contents.lookup path).getD (.error .notFound)
    defaultConfig
    processors := ← countProcessors }
  let outcome := run surroundings arguments
  let milliseconds ← match outcome.status, invocation.bind (benchmarkIn? surroundings) with
    | 0, some benchmark => timeBenchmark benchmark
    | _, _ => pure 0
  outcome.lines.forM (showLine milliseconds)
  if let some error := outcome.error then IO.eprintln ("Error: " ++ error)
  return outcome.status.toUInt32

end HybridConsensus.CommandLine

def main (arguments : List String) : IO UInt32 :=
  HybridConsensus.CommandLine.runProgram arguments
