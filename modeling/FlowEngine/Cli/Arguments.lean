import FlowEngine.Text.Search

/-!
# Arguments

A command line names a task, with options before and after its name. An option is written as
`--name`; its value follows it, or is attached to it with an equals sign.

* `Choice` — the options that are known; `Verb` — the tasks by their names.
* `Invocation` — what a command line asks for; `Invocation.ofArguments` reads it.
* `Refusal` — why it is not carried out.
-/

namespace FlowEngine.Cli

/-! ## Options -/

/-- What an option takes. -/
inductive Takes where
  | nothing
  | value
  | perhaps
  deriving DecidableEq

/-- An option: its name, what it takes, and what it is for. A path must not be empty, and only some
options may be repeated. The rank tells where help lists it. -/
structure Choice where
  name : String
  takes : Takes
  isPath : Bool
  repeats : Bool
  rank : Nat
  about : String

/-- The options of all tasks. -/
def commonChoices : List Choice :=
  [⟨"dir", .value, true, false, 0,
      "Project directory for `.blockflow/config.toml` (defaults to current)"⟩,
    ⟨"config", .value, true, false, 1,
      "Extra config file, applied after user and project config"⟩,
    ⟨"debug", .nothing, false, false, 2, "Enable debug output"⟩,
    ⟨"quiet", .nothing, false, false, 3, "Suppress normal output"⟩,
    ⟨"json", .nothing, false, false, 4, "Emit events as JSON"⟩,
    ⟨"log-file", .perhaps, true, false, 5,
      "Also write logs to a file (default location if no path is given)"⟩]

/-- The tasks. -/
inductive Verb where
  | run
  | resume
  | validate
  | blocks
  deriving DecidableEq

namespace Verb

/-- All tasks. -/
def all : List Verb := [run, resume, validate, blocks]

/-- The name of a task. -/
def name : Verb → String
  | run => "run"
  | resume => "resume"
  | validate => "validate"
  | blocks => "blocks"

/-- The task of a name. -/
def ofName? (name : String) : Option Verb := all.find? fun v => v.name == name

/-- What a task does. -/
def about : Verb → String
  | run => "Begin a new run of a flow"
  | resume => "Resume a paused run"
  | validate => "Validate a flow without running it"
  | blocks => "List registered block actions"

/-- Whether a task works on a flow. -/
def takesFlow : Verb → Bool
  | blocks => false
  | _ => true

/-- The options of a task alone. -/
def ownChoices : Verb → List Choice
  | run =>
    [⟨"payload", .value, false, false, 0, "Trigger payload as JSON"⟩,
      ⟨"state-out", .value, true, false, 1, "Write the resulting execution context here"⟩]
  | resume =>
    [⟨"state", .value, true, false, 0, "Execution context saved by a previous run"⟩,
      ⟨"query", .value, false, true, 1,
        "Query parameter for the paused step (key=value, repeatable)"⟩,
      ⟨"body", .value, false, false, 2, "Request body for the paused step as JSON"⟩,
      ⟨"state-out", .value, true, false, 3, "Write the resulting execution context here"⟩]
  | _ => []

end Verb

/-! ## Reading -/

/-- What help is on: the program, one of its tasks, or the way to ask for help. -/
inductive Topic where
  | program
  | task (verb : Verb)
  | help
  deriving DecidableEq

/-- The topic of help that a task or the program gives on itself. -/
def Topic.ofVerb? : Option Verb → Topic
  | none => program
  | some verb => task verb

/-- Why a command line is not carried out: it asks for help, or it is wrong. -/
inductive Refusal where
  | help (topic : Topic)
  | usage (reason : String)

/-- The options taken from a command line, in order, and the words between them. -/
structure Taken where
  options : List (String × Option String)
  words : List String

namespace Taken

/-- Nothing is taken. -/
def empty : Taken := ⟨[], []⟩

/-- Whether an option is there. -/
def has (t : Taken) (name : String) : Bool := t.options.any fun o => o.1 == name

/-- The option of a name; of a repeated one the first. -/
def option? (t : Taken) (name : String) : Option (Option String) := t.options.lookup name

/-- The values of an option. -/
def values (t : Taken) (name : String) : List String :=
  (t.options.filter fun o => o.1 == name).filterMap Prod.snd

/-- The value of an option. -/
def value? (t : Taken) (name : String) : Option String := (t.option? name).bind id

/-- Adds an option. -/
def add (t : Taken) (c : Choice) (value : Option String) : Except Refusal Taken :=
  if !c.repeats && t.has c.name then
    .error (.usage ("the argument '--" ++ c.name ++ "' cannot be used multiple times"))
  else if c.isPath && value == some "" then
    .error (.usage ("a value is required for '--" ++ c.name ++ "'"))
  else .ok { t with options := t.options ++ [(c.name, value)] }

/-- Adds a word, of which there is a greatest number. -/
def addWord (t : Taken) (most : Nat) (word : String) : Except Refusal Taken :=
  if t.words.length < most ∧ ¬ word.isEmpty then .ok { t with words := t.words ++ [word] }
  else .error (.usage ("unexpected argument '" ++ word ++ "' found"))

end Taken

/-- Whether an argument is written like an option. -/
def isOptionLike (argument : String) : Bool := argument.startsWith "-" && argument != "-"

/-- The name of an option and the value attached to it. -/
def splitOption (argument : String) : String × Option String :=
  match Text.cut? ['='] (argument.toList.drop 2) with
  | some (name, value) => (String.ofList name, some (String.ofList value))
  | none => (String.ofList (argument.toList.drop 2), none)

/-- Takes an option with its value, and leaves the arguments after it. -/
def takeOption (verb : Option Verb) (choices : List Choice) (argument : String)
    (rest : List String) (t : Taken) : Except Refusal (Taken × List String) :=
  let unknown := Refusal.usage ("unexpected argument '" ++ argument ++ "' found")
  if argument.startsWith "-h" || argument == "--help" then .error (.help (.ofVerb? verb))
  else if !argument.startsWith "--" then .error unknown
  else
    let (name, attached) := splitOption argument
    match choices.find? fun c => c.name == name with
    | none => .error unknown
    | some c =>
      match c.takes, attached, rest with
      | .nothing, some _, _ =>
        .error (.usage ("unexpected value for '--" ++ c.name ++ "' found; no more were expected"))
      | .nothing, none, rest => (t.add c none).map fun t => (t, rest)
      | _, some value, rest => (t.add c (some value)).map fun t => (t, rest)
      | takes, none, rest =>
        match rest.head?.filter fun next => !isOptionLike next with
        | some value => (t.add c (some value)).map fun t => (t, rest.tail)
        | none =>
          if takes = .perhaps then (t.add c none).map fun t => (t, rest)
          else .error (.usage ("a value is required for '--" ++ c.name ++ "' but none was given"))

/-- Takes options up to the first word; after two dashes there is no task. The fuel bounds the
number of arguments. -/
def takeOptions : (fuel : Nat) → List String → Taken → Except Refusal (Taken × List String)
  | 0, args, t => .ok (t, args)
  | _, [], t => .ok (t, [])
  | fuel + 1, argument :: rest, t =>
    if argument = "--" then .ok (t, [])
    else if isOptionLike argument then do
      let (t, rest) ← takeOption none commonChoices argument rest t
      takeOptions fuel rest t
    else .ok (t, argument :: rest)

/-- Takes the options and the words of a task. The fuel bounds the number of arguments. -/
def takeAll (verb : Verb) (most : Nat) : (fuel : Nat) → List String → Taken → Except Refusal Taken
  | 0, _, t => .ok t
  | _, [], t => .ok t
  | fuel + 1, argument :: rest, t =>
    if argument = "--" then rest.foldlM (fun t word => t.addWord most word) t
    else if isOptionLike argument then do
      let (t, rest) ← takeOption (some verb) (verb.ownChoices ++ commonChoices) argument rest t
      takeAll verb most fuel rest t
    else do
      let t ← t.addWord most argument
      takeAll verb most fuel rest t

/-! ## Invocations -/

/-- A task with what it works on. -/
inductive Task where
  | run (flow : String) (payload stateOut : Option String)
  | resume (flow state : String) (query : List String) (body stateOut : Option String)
  | validate (flow : String)
  | blocks
  deriving DecidableEq

/-- The flow of a task. -/
def Task.flow? : Task → Option String
  | run flow _ _ | resume flow _ _ _ _ | validate flow => some flow
  | blocks => none

/-- What a command line asks for. A log file may be asked for without a path. -/
structure Invocation where
  task : Task
  directory : Option String
  config : Option String
  debug : Bool
  quiet : Bool
  json : Bool
  logFile : Option (Option String)
  deriving DecidableEq

/-- Something that has to be there. -/
def needed {α : Type} (what : String) : Option α → Except Refusal α
  | some a => .ok a
  | none => .error (.usage ("the following required arguments were not provided: " ++ what))

/-- The task of a verb. -/
def Task.ofTaken (verb : Verb) (t : Taken) : Except Refusal Task := do
  match verb with
  | .run => .ok (.run (← needed "<FLOW>" t.words.head?) (t.value? "payload") (t.value? "state-out"))
  | .resume =>
    .ok (.resume (← needed "<FLOW>" t.words.head?) (← needed "--state <STATE>" (t.value? "state"))
      (t.values "query") (t.value? "body") (t.value? "state-out"))
  | .validate => .ok (.validate (← needed "<FLOW>" t.words.head?))
  | .blocks => .ok .blocks

namespace Invocation

/-- A task with the options of all tasks. They may stand before or after its name; those after it
count first. -/
def ofTaken (task : Task) (before after : Taken) : Invocation :=
  let option? (name : String) := (after.option? name).or (before.option? name)
  { task := task
    directory := (option? "dir").bind id
    config := (option? "config").bind id
    debug := (option? "debug").isSome
    quiet := (option? "quiet").isSome
    json := (option? "json").isSome
    logFile := option? "log-file" }

/-- What help is asked for by the words after its name. -/
def helpFor : List String → Refusal
  | [] => .help .program
  | [word] =>
    match Verb.ofName? word with
    | some verb => .help (.task verb)
    | none =>
      if word = "help" then .help .help else .usage ("unrecognized subcommand '" ++ word ++ "'")
  | _ :: word :: _ => .usage ("unrecognized subcommand '" ++ word ++ "'")

/-- Reads a command line. -/
def ofArguments (args : List String) : Except Refusal Invocation := do
  let (before, rest) ← takeOptions args.length args .empty
  match rest with
  | [] => .error (.usage "a task is required")
  | "help" :: words => .error (helpFor words)
  | word :: args =>
    match Verb.ofName? word with
    | none => .error (.usage ("unrecognized subcommand '" ++ word ++ "'"))
    | some verb => do
      let after ← takeAll verb (if verb.takesFlow then 1 else 0) args.length args .empty
      .ok (ofTaken (← Task.ofTaken verb after) before after)

end Invocation

end FlowEngine.Cli
