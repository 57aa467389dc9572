import FlowEngine.Run.Context
import FlowEngine.Time.Duration

/-!
# Blocks

Blocks offer actions. An action is called with a request and answers with an output or a failure;
besides, it may ask to pause or to stop the run.

* `Request`, `Reply` — what an action is given and how it answers.
* `Failure` — why an action failed; `Failure.message` the wording, `Failure.isRetryable` whether
  another attempt may help.
* `Registry` — the actions that are known.
-/

namespace FlowEngine.Block

open FlowEngine.Run

/-- Why an action failed: it reported so, its input is of no use, or its time ran out (after a
number of nanoseconds). -/
inductive Failure where
  | failed (message : String)
  | invalidInput (message : String)
  | timeout (nanos : Nat)
  deriving DecidableEq, Inhabited

namespace Failure

/-- The wording of a failure. -/
def message : Failure → String
  | failed m => m
  | invalidInput m => "invalid input: " ++ m
  | timeout nanos => "timeout after " ++ Time.durationText nanos

/-- Whether another attempt may help. -/
def isRetryable : Failure → Bool
  | failed _ | timeout _ => true
  | invalidInput _ => false

end Failure

/-- What an action asks of the run. -/
inductive Hook where
  | pause (pause : Pause)
  | stop (response : Json)
  deriving DecidableEq, Inhabited

/-- What an action is given. The entry is RESUME, and there is a payload, only for the step that
paused the run. The path tells where in the run the step is: the loops around it, the outermost
first, each with the index of its iteration. It is for those who follow a run; no action reads it. -/
structure Request where
  stepName : String
  props : Json
  entry : Entry
  payload : Option ResumePayload
  runId : String
  projectId : Option String
  source : Option String
  path : List (String × Nat) := []
  deriving DecidableEq, Inhabited

namespace Request

/-- Whether the step paused the run and is called again. -/
def isResuming (r : Request) : Bool := r.entry == .resume

/-- A property of the input; null counts as absent. -/
def prop? (r : Request) (name : String) : Option Json := r.props.present? name

/-- A property that is a text. -/
def textProp? (r : Request) (name : String) : Option String := (r.prop? name).bind Json.asString?

end Request

/-- How an action answers. A crash ends the program. -/
inductive Reply where
  | crash
  | ended (result : Except Failure Json) (hook : Option Hook)
  deriving Inhabited

/-- Which action is called: one of a block, or the runner of code. -/
inductive Target where
  | block (blockName actionName : String)
  | code
  deriving DecidableEq, Inhabited

/-- A call of an action. -/
structure Call where
  target : Target
  request : Request
  deriving DecidableEq, Inhabited

/-! ## Registries -/

/-- An action by its name, with a description. -/
structure Offer where
  blockName : String
  actionName : String
  description : String
  deriving DecidableEq, Inhabited

/-- The known actions, and whether code can be run. -/
structure Registry where
  offers : List Offer
  codeRunner : Bool
  deriving DecidableEq, Inhabited

namespace Registry

/-- Nothing is known. -/
def empty : Registry := ⟨[], false⟩

/-- Whether an action is known. -/
def knows (r : Registry) (blockName actionName : String) : Bool :=
  r.offers.any fun e => e.blockName == blockName && e.actionName == actionName

/-- Whether the target of a call is known. -/
def serves (r : Registry) : Target → Bool
  | .block blockName actionName => r.knows blockName actionName
  | .code => r.codeRunner

/-- The order of the list of actions. -/
def precedes (a b : Offer) : Bool :=
  a.blockName < b.blockName || (a.blockName == b.blockName && a.actionName ≤ b.actionName)

/-- All known actions in the order of their names. -/
def list (r : Registry) : List Offer := r.offers.mergeSort precedes

end Registry

end FlowEngine.Block
