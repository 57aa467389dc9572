import FlowEngine.Cli.Arguments

/-!
# Help

* `Topic.text` — the help on the program, on a task, or on help itself.
-/

namespace FlowEngine.Cli

/-- The name of an option's value: its own name in capitals. -/
def valueName (name : String) : String :=
  String.ofList (name.toList.map fun c => if c = '-' then '_' else c.toUpper)

/-- An option with its value. -/
def Choice.form (c : Choice) : String :=
  match c.takes with
  | .nothing => "--" ++ c.name
  | .value => "--" ++ c.name ++ " <" ++ valueName c.name ++ ">"
  | .perhaps => "--" ++ c.name ++ " [<" ++ valueName c.name ++ ">]"

/-- A text with blanks after it up to a width. -/
def padded (width : Nat) (text : String) : String :=
  text ++ String.ofList (List.replicate (width - text.length) ' ')

/-- Lines of two columns. -/
def columns (lines : List (String × String)) : List String :=
  let width := lines.foldl (fun w l => max w l.1.length) 0
  lines.map fun l => "  " ++ padded width l.1 ++ "  " ++ l.2

/-- The order of options in help: by rank, and then by name. -/
def Choice.precedes (a b : Choice) : Bool :=
  a.rank < b.rank || (a.rank == b.rank && a.name ≤ b.name)

/-- The lines for options. -/
def optionLines (choices : List Choice) : List String :=
  "Options:" :: columns ((choices.mergeSort Choice.precedes).map (fun c =>
    ("    " ++ c.form, c.about)) ++ [("-h, --help", "Print help")])

/-- How a task is called. -/
def Verb.usage (v : Verb) : String :=
  "Usage: blockflow " ++ v.name ++ " [OPTIONS]" ++
    (if v = .resume then " --state <STATE>" else "") ++ if v.takesFlow then " <FLOW>" else ""

/-- The help on a task. -/
def Verb.help (v : Verb) : List String :=
  [v.about, "", v.usage, ""] ++
    (if v.takesFlow then ["Arguments:", "  <FLOW>  Flow version file (.json or .toml)", ""]
      else []) ++
    optionLines (v.ownChoices ++ commonChoices)

/-- What the help on help is about. -/
def helpAbout : String := "Print this message or the help of the given subcommand(s)"

/-- The help on help. -/
def helpHelp : List String :=
  [helpAbout, "", "Usage: blockflow help [COMMAND]...", "", "Arguments:"] ++
    columns [("[COMMAND]...", "Print help for the subcommand(s)")]

/-- The help on the program. -/
def programHelp : List String :=
  ["Flow execution engine - walk block graphs with pause/resume", "",
    "Usage: blockflow [OPTIONS] <COMMAND>", "", "Commands:"] ++
    columns (Verb.all.map (fun v => (v.name, v.about)) ++ [("help", helpAbout)]) ++
    [""] ++ optionLines commonChoices

/-- The help on a topic. -/
def Topic.text (topic : Topic) : String :=
  String.join ((match topic with
    | program => programHelp
    | task v => v.help
    | help => helpHelp).map (· ++ "\n"))

end FlowEngine.Cli
