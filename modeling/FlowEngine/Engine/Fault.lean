import FlowEngine.Block.Basic
import FlowEngine.Config.Settings
import FlowEngine.Engine.Job
import FlowEngine.Flow.Validate

/-!
# Walks and their errors

A failed step is part of a run. An error of the engine ends the walk without one: the flow itself is
wrong, or the run cannot be resumed.

* `Fault` — the errors; `Fault.message` the wording.
* `Walk` — the jobs of the engine.
-/

namespace FlowEngine.Engine

/-- Why there is no run. -/
inductive Fault where
  | invalidFlow (problems : List Flow.Problem)
  | unknownAction (step blockName actionName : String)
  | noCodeRunner (step : String)
  | unexpectedTrigger (step : String)
  | notPaused (runId : String) (status : Run.RunStatus)
  deriving DecidableEq, Inhabited

/-- The wording of an error. -/
def Fault.message : Fault → String
  | invalidFlow problems => "invalid flow: " ++ "; ".intercalate (problems.map Flow.Problem.message)
  | unknownAction step blockName actionName =>
    "step '" ++ step ++ "' uses unknown action '" ++ blockName ++ "/" ++ actionName ++ "'"
  | noCodeRunner step => "code step '" ++ step ++ "' cannot run: no code runner registered"
  | unexpectedTrigger step => "trigger step '" ++ step ++ "' can only start a flow"
  | notPaused runId status =>
    "run '" ++ runId ++ "' is " ++ status.name ++ ", only paused runs can be resumed"

/-- How a walk ends. -/
abbrev Result := Except Fault Run.RunState

/-- A job of the engine. -/
abbrev Walk := Job Time.Instant Block.Call Block.Reply Result

/-- What a walk needs besides the steps: the known actions, the settings, and what a paused step is
resumed with. -/
structure Setup where
  registry : Block.Registry
  settings : Config.Settings
  payload : Option Run.ResumePayload
  deriving Inhabited

end FlowEngine.Engine
