import HybridConsensus.CommandLine.Invocation

/-!
# Help

The page that lists the commands, and a page for each command that lists its options.
-/

namespace HybridConsensus.CommandLine

def about : String :=
  "Difficulty retargeting and proof-of-work tooling for the RX2 hybrid chain"

def version : String :=
  "rx2pow 0.3.0"

def padTo (width : Nat) (text : String) : String :=
  text ++ String.ofList (List.replicate (width - text.length) ' ')

/-- Rows of two columns, the second of which starts at one place. -/
def columns (rows : List (String × String)) : List String :=
  let width := rows.foldl (fun width (left, _) => max width left.length) 0
  rows.map fun (left, right) => "  " ++ padTo width left ++ "  " ++ right

def OptionSpec.usage (option : OptionSpec) : String :=
  let short := match option.short with
    | some short => "-" ++ short.toString ++ ", "
    | none => "    "
  let value := match option.value with
    | some value => " <" ++ value ++ ">"
    | none => ""
  short ++ "--" ++ option.name ++ value

def optionRows (options : List OptionSpec) : List (String × String) :=
  options.map (fun option => (option.usage, option.help)) ++ [("-h, --help", "Print help")]

def mainHelp : List String :=
  [about, "", "Usage: rx2pow [OPTIONS] <COMMAND>", "", "Commands:"] ++
    columns (commandSpecs.map (fun spec => (spec.name, spec.help)) ++
      [("help", "Print this message or the help of the given subcommand(s)")]) ++
    ["", "Options:"] ++ columns (optionRows globalOptions ++ [("-V, --version", "Print version")])

def CommandSpec.page (spec : CommandSpec) : List String :=
  let required := spec.required.map fun name => " --" ++ name ++ " <" ++ name.toUpper ++ ">"
  let usage := "Usage: rx2pow " ++ spec.name ++ " [OPTIONS]" ++ String.join required
  [spec.help, "", usage, "", "Options:"] ++
    columns (optionRows (spec.options ++ globalOptions))

def helpPage (command : Option String) : List String :=
  match command.bind fun name => commandSpecs.find? (·.name = name) with
  | some spec => spec.page
  | none => mainHelp

end HybridConsensus.CommandLine
