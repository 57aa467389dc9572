import FlowEngine.Engine.Place
import FlowEngine.Flow.Encode

/-!
# Walking a branch

The condition is evaluated once. A recorded decision is kept when the branch is walked again.

* `runBranch` — walks a branch.
* `conditionInput` — what the record of a branch shows as its input.
-/

namespace FlowEngine.Engine

open FlowEngine.Run

/-- The conditions with their templates resolved, or as they are if that fails. -/
def conditionInput (names : Expr.Names) (c : Flow.ConditionSet) : Except Template.Failure Json :=
  let raw := (Json.obj c.members).canonical
  match Template.resolve names raw with
  | .error (.error _) => .ok raw
  | result => result

/-- Evaluates the condition of a branch and walks the side it chooses. -/
def decideBranch (place : Place) (name : String) (c : Flow.ConditionSet)
    (side : Bool → RunState → Walk) (s : RunState) : Walk :=
  .clock fun started =>
    let names := place.names s started.now
    Walk.onTemplate (conditionInput names c) fun shown =>
      let input := shown.toOption.getD .null
      Walk.onTemplate (Template.conditionsHold names c) fun
        | .error e =>
          let message := "condition evaluation failed: " ++ e.message
          Walk.failed s name message (failedRecord input message)
        | .ok holds =>
          .clock fun stopped =>
            side holds (s.upsert name
              (.branch ⟨.succeeded, input, none, some (elapsed started stopped)⟩ holds))

/-- Walks a branch, given the walks of its two sides. -/
def runBranch (place : Place) (name : String) (c : Flow.ConditionSet)
    (side : Bool → RunState → Walk) (s : RunState) : Walk :=
  match s.steps.get? name with
  | none => decideBranch place name c side s
  | some prior =>
    match prior.status with
    | .failed => Walk.ended s
    | .succeeded =>
      match prior.holds? with
      | some holds => side holds s
      | none => Walk.ended s
    | .running | .paused => decideBranch place name c side s

end FlowEngine.Engine
