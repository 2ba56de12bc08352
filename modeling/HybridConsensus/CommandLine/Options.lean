/-!
# Options

An option is given as `--name value`, `--name=value`, `-n value`, `-nvalue` or `-n=value`, and at
most once. A value that starts with a dash needs the form with the equals sign.
-/

namespace HybridConsensus.CommandLine

structure OptionSpec where
  name : String
  short : Option Char
  /-- The name of the value in the help, if the option takes one. -/
  value : Option String
  accepts : String → Bool
  help : String

/-- Why scanning ends early. -/
inductive Stop
  | usage
  | version
  | help (command : Option String)
deriving DecidableEq, Repr

abbrev Given := List (String × String)

structure Scanned where
  given : Given
  /-- The first argument that names a command, and the arguments behind it. -/
  command : Option (String × List String)

def OptionSpec.give (option : OptionSpec) (value : String) (given : Given) : Except Stop Given :=
  if (given.lookup option.name).isSome || !option.accepts value then .error .usage
  else .ok ((option.name, value) :: given)

def isOptionLike (argument : String) : Bool :=
  match argument.toList with
  | '-' :: _ :: _ => true
  | _ => false

/-- An argument that asks for help or the version, or an option and the value attached to it. -/
def readOption (options : List OptionSpec) (hasVersion : Bool) (argument : String) :
    Except Stop (OptionSpec × Option String) :=
  let found (option : Option OptionSpec) (attached : Option String) :
      Except Stop (OptionSpec × Option String) :=
    match option with
    | some option =>
      if option.value.isNone && attached.isSome then .error .usage else .ok (option, attached)
    | none => .error .usage
  match argument.toList with
  | '-' :: '-' :: long =>
    let name := String.ofList (long.takeWhile (· ≠ '='))
    let attached := match long.dropWhile (· ≠ '=') with
      | _ :: value => some (String.ofList value)
      | [] => none
    if name = "help" && attached.isNone then .error (.help none)
    else if name = "version" && hasVersion && attached.isNone then .error .version
    else found (options.find? (·.name = name)) attached
  | '-' :: short :: rest =>
    let attached := match rest with
      | [] => none
      | '=' :: value => some (String.ofList value)
      | value => some (String.ofList value)
    if short = 'h' then .error (.help none)
    else if short = 'V' && hasVersion then .error .version
    else found (options.find? (·.short = some short)) attached
  | _ => .error .usage

/-- Reads arguments up to the first that names one of the `commands`. Behind a lone `--` nothing may
follow. -/
def scan (options : List OptionSpec) (commands : List String) (hasVersion : Bool) :
    List String → Given → Except Stop Scanned
  | [], given => .ok { given, command := none }
  | argument :: rest, given => do
    if commands.contains argument then return { given, command := some (argument, rest) }
    if argument = "--" then
      if rest.isEmpty then return { given, command := none } else throw .usage
    let (option, attached) ← readOption options hasVersion argument
    match attached, option.value, rest with
    | some value, _, rest => scan options commands hasVersion rest (← option.give value given)
    | none, none, rest => scan options commands hasVersion rest (← option.give "" given)
    | none, some _, value :: rest =>
      if isOptionLike value then throw .usage
      else scan options commands hasVersion rest (← option.give value given)
    | none, some _, [] => throw .usage

end HybridConsensus.CommandLine
