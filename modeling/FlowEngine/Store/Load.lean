import FlowEngine.Config.Settings
import FlowEngine.Flow.Decode
import FlowEngine.Flow.Validate
import FlowEngine.Run.Context
import FlowEngine.Store.Files
import FlowEngine.Store.Path
import FlowEngine.Toml.Reader

/-!
# Flows, settings and runs in files

* `Trouble` — why something could not be loaded or stored; `Trouble.message` the wording.
* `Files.loadFlow` — a flow that is valid. A file is TOML if its name says so, and JSON otherwise.
* `Files.loadSettings` — the settings: those of the user, and over them those of the project.
* `Files.loadRun`, `Files.storeRun` — a run that can be resumed later.
-/

namespace FlowEngine.Store

/-- Why something could not be loaded or stored. -/
inductive Trouble where
  | reading (path : String) (error : FileError)
  | parsing (path : String)
  | loading (path : String) (cause : Trouble)
  | invalidFlow (problems : List Flow.Problem)
  | creating (path : String) (error : FileError)
  | writing (path : String) (error : FileError)

/-- The wording of a trouble: what was tried, and why it failed. -/
def Trouble.message : Trouble → String
  | reading path error => "reading " ++ path ++ ": " ++ error.message
  | parsing path => "parsing " ++ path ++ ": malformed document"
  | loading path cause => "loading " ++ path ++ ": " ++ cause.message
  | invalidFlow problems =>
    "flow validation failed:\n  " ++ "\n  ".intercalate (problems.map Flow.Problem.message)
  | creating path error => "creating " ++ path ++ ": " ++ error.message
  | writing path error => "writing " ++ path ++ ": " ++ error.message

/-! ## Texts -/

/-- The flow of a text, which is TOML or JSON. Integers of TOML have a sign and number no forms. -/
def version? (toml : Bool) (text : String) : Option Flow.Version :=
  if toml then (Toml.read? text).bind (Flow.Version.ofDocument? false)
  else (Json.readRecord? Flow.Version.fieldNames text).bind Flow.Version.ofJson?

/-- The flow in the text of a file. -/
def flowOfText (path text : String) : Except Trouble Flow.Version :=
  match version? (extension? path == some "toml") text with
  | none => .error (.parsing path)
  | some v =>
    match Flow.validate v with
    | [] => .ok v
    | problems => .error (.invalidFlow problems)

/-- The settings in the text of a file. -/
def settingsOfText (path text : String) : Except Trouble Config.Settings :=
  match (Toml.read? text).bind (Config.Settings.ofJson? true) with
  | none => .error (.parsing path)
  | some settings => .ok settings

/-- The run in the text of a file. -/
def runOfText (path text : String) : Except Trouble Run.RunState :=
  match Run.RunState.ofText? text with
  | none => .error (.parsing path)
  | some run => .ok run

/-! ## Files -/

namespace Files

variable {m : Type → Type} [Monad m]

/-- Reads a file. -/
def load {α : Type} (files : Files m) (ofText : String → String → Except Trouble α)
    (path : String) : ExceptT Trouble m α := do
  match ← files.read path with
  | .ok text => MonadExcept.ofExcept (ofText path text)
  | .error error => throw (.reading path error)

/-- Reads a flow. -/
def loadFlow (files : Files m) (path : String) : ExceptT Trouble m Flow.Version :=
  files.load flowOfText path

/-- Reads a layer of settings. -/
def loadLayer (files : Files m) (path : String) : ExceptT Trouble m Config.Settings :=
  files.load settingsOfText path

/-- Reads a run. -/
def loadRun (files : Files m) (path : String) : ExceptT Trouble m Run.RunState :=
  files.load runOfText path

/-- The settings with a layer over them, if its file is there. -/
def overlay (files : Files m) (below : Config.Settings) (path : String) :
    ExceptT Trouble m Config.Settings := do
  if ← files.isThere path then
    let above ← ExceptT.adapt (Trouble.loading path) (files.loadLayer path)
    pure (below.merge above)
  else pure below

/-- The file for the settings of the user. -/
def userSettingsPath (configDirectory : String) : String :=
  join configDirectory "blockflow/config.toml"

/-- The file for the settings of a project. -/
def projectSettingsPath (directory : Option String) : String :=
  (directory.map fun d => join d ".blockflow/config.toml").getD ".blockflow/config.toml"

/-- The settings for a project. -/
def loadSettings (files : Files m) (configDirectory directory : Option String) :
    ExceptT Trouble m Config.Settings := do
  let layers := (configDirectory.map userSettingsPath).toList ++ [projectSettingsPath directory]
  layers.foldlM files.overlay {}

/-- Writes a run. The directory for it is created. -/
def storeRun (files : Files m) (path : String) (run : Run.RunState) : ExceptT Trouble m Unit := do
  match parent? path with
  | none | some "" => pure ()
  | some directory =>
    match ← files.makeDirectory directory with
    | .ok () => pure ()
    | .error error => throw (.creating directory error)
  match ← files.write path run.toText with
  | .ok () => pure ()
  | .error error => throw (.writing path error)

end Files

end FlowEngine.Store
