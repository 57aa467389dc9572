import FlowEngine.Cli.Event
import FlowEngine.Cli.Lint
import FlowEngine.Engine.Run
import FlowEngine.Store.Load
import FlowEngine.Text.Search

/-!
# Commands

A command works on files and reports what happens. It ends with an exit code, or with an error.

* `Host` — what a command needs from the world around it.
* `runFlow`, `resumeFlow` — a new run, and a paused one.
* `validateFlow`, `listBlocks` — what is known without a run.
* `CommandError` — why a command failed; `CommandError.message` the wording.
-/

namespace FlowEngine.Cli

open FlowEngine.Store

/-- What a command needs from the world around it. A walk is performed to its end; the host measures
how many milliseconds that takes. -/
structure Host (m : Type → Type) where
  files : Files m
  report : Report → m Unit
  freshId : m String
  perform : Engine.Walk → m (Engine.Result × Nat)

/-- Why a command failed. -/
inductive CommandError where
  | trouble (cause : Trouble)
  | badParameter (text : String)
  | running (path : String) (fault : Engine.Fault)
  | resuming (path : String) (fault : Engine.Fault)

/-- The wording of an error. -/
def CommandError.message : CommandError → String
  | trouble cause => cause.message
  | badParameter text => "invalid query parameter '" ++ text ++ "', expected key=value"
  | running path fault => "running " ++ path ++ ": " ++ fault.message
  | resuming path fault => "resuming " ++ path ++ ": " ++ fault.message

/-! ## Arguments -/

/-- A value as it is written on the command line. What is no JSON is a text. -/
def argumentValue (raw : String) : Json := (Json.readValue? raw).getD (.str raw)

/-- The name and the value of a query parameter. -/
def parameter? (text : String) : Option (String × String) :=
  (Text.cut? ['='] text.toList).map fun (name, value) => (String.ofList name, String.ofList value)

/-- Puts a parameter into a list sorted by name, in place of one of the same name. -/
def insertParameter (sorted : List (String × String)) (p : String × String) :
    List (String × String) :=
  let smaller := sorted.takeWhile fun q => q.1 < p.1
  smaller ++ p :: (sorted.drop smaller.length).filter fun q => q.1 != p.1

/-- Query parameters, sorted by name; of a repeated name the last one counts. -/
def parameters (texts : List String) : Except CommandError (List (String × String)) := do
  let all ← texts.mapM fun text =>
    match parameter? text with
    | some p => .ok p
    | none => .error (.badParameter text)
  .ok (all.foldl insertParameter [])

/-- The name of a flow in reports. -/
def flowLabel (v : Flow.Version) (path : String) : String := if v.id.isEmpty then path else v.id

/-! ## Runs -/

variable {m : Type → Type} [Monad m]

namespace Host

/-- Reports an event. -/
def event (host : Host m) (e : Event) : m Unit := host.report (.event e)

/-- Loads or stores something. -/
def store {α : Type} (x : ExceptT Trouble m α) : ExceptT CommandError m α :=
  ExceptT.adapt CommandError.trouble x

/-- Performs a walk and reports its end. The run is stored if asked for. -/
def walk (host : Host m) (walk : Engine.Walk) (failure : Engine.Fault → CommandError)
    (stateOut : Option String) : ExceptT CommandError m Nat := do
  let (result, duration) ← host.perform walk
  let run ← MonadExcept.ofExcept (result.mapError failure)
  for e in Event.ofRun run duration do host.event e
  if let some path := stateOut then
    store (host.files.storeRun path run)
    host.event (.info ("State written to " ++ path))
  host.report (.result run.status (finalOutput? run))
  pure (exitCode run.status)

/-- Begins a run of the flow in a file. -/
def runFlow (host : Host m) (registry : Block.Registry) (settings : Config.Settings)
    (path : String) (payload : Json) (stateOut : Option String) : ExceptT CommandError m Nat := do
  let v ← store (host.files.loadFlow path)
  host.event (.runStart (flowLabel v path) false)
  let runId ← host.freshId
  host.walk (Engine.beginRun registry settings v runId none payload) (.running path) stateOut

/-- Resumes the paused run in a file. -/
def resumeFlow (host : Host m) (registry : Block.Registry) (settings : Config.Settings)
    (path statePath : String) (query : List String) (body : Json) (stateOut : Option String) :
    ExceptT CommandError m Nat := do
  let v ← store (host.files.loadFlow path)
  let prior ← store (host.files.loadRun statePath)
  let payload : Run.ResumePayload := ⟨body, [], ← MonadExcept.ofExcept (parameters query)⟩
  host.event (.runStart (flowLabel v path) true)
  host.walk (Engine.resumeRun registry settings v prior payload) (.resuming statePath) stateOut

/-! ## Without a run -/

/-- Reports whether the flow in a file is valid, with warnings. -/
def validateFlow (host : Host m) (registry : Block.Registry) (path : String) : m Nat := do
  match ← (host.files.loadFlow path).run with
  | .error cause =>
    host.event (.error cause.message)
    pure 1
  | .ok v =>
    let warnings := lint registry v
    host.event (.info ("✓ Flow '" ++ flowLabel v path ++ "' is valid (" ++
      toString v.allSteps.length ++ " steps, " ++ toString warnings.length ++ " warning(s))"))
    for w in warnings do host.event (.info ("  - " ++ w.message))
    pure 0

/-- The line for an action that is offered. -/
def offerLine (o : Block.Offer) : String :=
  let name := o.blockName ++ "/" ++ o.actionName
  if o.description.isEmpty then name else name ++ " - " ++ o.description

/-- The lines for the actions that are offered. -/
def offerLines (registry : Block.Registry) : List String :=
  if registry.offers.isEmpty then ["(no blocks registered)"]
  else registry.list.map offerLine ++
    if registry.codeRunner then ["(code runner registered)"] else []

/-- Reports all actions that are offered. -/
def listBlocks (host : Host m) (registry : Block.Registry) : m Nat := do
  for line in offerLines registry do host.event (.info line)
  pure 0

end Host

end FlowEngine.Cli
