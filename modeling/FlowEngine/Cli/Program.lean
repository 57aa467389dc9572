import FlowEngine.Block.Core
import FlowEngine.Cli.Command
import FlowEngine.Cli.Help
import FlowEngine.Cli.Output

/-!
# The program

* `Machine` — what the program runs on.
* `Machine.start` — reads a command line, carries it out, and ends with an exit code.
* `logPath` — where a log is written if no path is given.
-/

namespace FlowEngine.Cli

open FlowEngine.Store

/-- What the program runs on. Texts are printed; the stamp is the time as it is written in the names
of log files. -/
structure Machine (m : Type → Type) where
  files : Files m
  print : Printed → m Unit
  freshId : m String
  perform : Engine.Walk → m (Engine.Result × Nat)
  stamp : m String
  configDirectory : Option String

/-- Where the log for a flow is written. -/
def logPath (configDirectory flow stamp : String) : String :=
  join (join configDirectory "blockflow/logs")
    ((if flow.isEmpty then "flow" else flow) ++ "-" ++ stamp ++ ".log")

/-- Why the log could not be opened. -/
inductive LogError where
  | noDirectory
  | file (error : FileError)

/-- The wording of an error. -/
def LogError.message : LogError → String
  | noDirectory => "Could not determine config directory"
  | file error => error.message

namespace Machine

variable {m : Type → Type} [Monad m]

/-- A machine that prints reports in a style. -/
def host (machine : Machine m) (style : Style) : Host m where
  files := machine.files
  report r := machine.print (style.print r)
  freshId := machine.freshId
  perform := machine.perform

/-- Creates a log file. -/
def createLog (machine : Machine m) (path : String) : ExceptT LogError m Unit := do
  match parent? path with
  | none | some "" => pure ()
  | some directory =>
    ExceptT.adapt LogError.file (ExceptT.mk (machine.files.makeDirectory directory))
  ExceptT.adapt LogError.file (ExceptT.mk (machine.files.touch path))

/-- Creates the log file that a command line asks for. -/
def openLog (machine : Machine m) (inv : Invocation) : ExceptT LogError m Unit := do
  match inv.logFile with
  | none => pure ()
  | some (some path) => machine.createLog path
  | some none =>
    match machine.configDirectory with
    | none => throw .noDirectory
    | some directory =>
      let flow := (inv.task.flow?.bind stem?).getD ""
      machine.createLog (logPath directory flow (← machine.stamp))

/-- The settings of a command line: an extra layer comes last. -/
def settings (machine : Machine m) (inv : Invocation) : ExceptT CommandError m Config.Settings := do
  let below ← Host.store (machine.files.loadSettings machine.configDirectory inv.directory)
  match inv.config with
  | none => pure below
  | some path => do
    let above ← Host.store (machine.files.loadLayer path)
    pure (below.merge above)

/-- Carries out a task. -/
def carryOut (machine : Machine m) (host : Host m) (inv : Invocation) :
    ExceptT CommandError m Nat := do
  let settings ← machine.settings inv
  let registry := Block.coreRegistry
  match inv.task with
  | .run flow payload stateOut =>
    let payload := (payload.map argumentValue).getD .null
    host.runFlow registry settings flow payload stateOut
  | .resume flow state query body stateOut =>
    let body := (body.map argumentValue).getD .null
    host.resumeFlow registry settings flow state query body stateOut
  | .validate flow => host.validateFlow registry flow
  | .blocks => host.listBlocks registry

/-- Carries out a command line. -/
def run (machine : Machine m) (inv : Invocation) : m Nat := do
  match ← (machine.openLog inv).run with
  | .error e =>
    machine.print (.errorLine ("Error: " ++ e.message))
    pure 1
  | .ok () =>
    let host := machine.host (Style.ofOptions inv.json inv.quiet inv.debug)
    match ← (machine.carryOut host inv).run with
    | .ok code => pure code
    | .error e =>
      host.event (.error e.message)
      pure 1

/-- Reads a command line and carries it out. -/
def start (machine : Machine m) (args : List String) : m Nat := do
  match Invocation.ofArguments args with
  | .ok inv => machine.run inv
  | .error (.help topic) =>
    machine.print ⟨topic.text, ""⟩
    pure 0
  | .error (.usage reason) =>
    machine.print (.errorLine ("error: " ++ reason))
    pure 2

end Machine

end FlowEngine.Cli
