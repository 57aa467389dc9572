import FlowEngine.Engine.Fault
import FlowEngine.Template.Condition

/-!
# Places

Where in the flow a chain is walked: the levels around it, and the loop it is the body of.

* `Place.scope` — what a template at a place can refer to.
* `Place.enter` — the place of the body of a loop.
* `Walk.onTemplate` — goes on with what a template gives.
-/

namespace FlowEngine.Engine

open FlowEngine.Run

/-- The levels around a chain, and where its loop is if it is the body of one. The path names the
loops around the chain, each with the index of its iteration. -/
structure Place where
  around : Template.Scope
  cursor : Option Template.Cursor
  path : List (String × Nat)
  deriving DecidableEq, Inhabited

namespace Place

/-- The place of the chain of a flow. -/
def top : Place := ⟨[], none, []⟩

/-- What a template can refer to: the steps of the chain so far, and the levels around it. -/
def scope (p : Place) (s : RunState) : Template.Scope := p.around.push s.steps p.cursor

/-- A step of a level is seen if it has a record there, or else if it is seen around the level. -/
theorem step?_scope (p : Place) (s : RunState) (n : String) :
    (p.scope s).step? n = (s.steps.get? n).or (p.around.step? n) := by
  unfold scope Template.Scope.push Template.Scope.step?
  rw [List.findSome?_cons]
  cases s.steps.get? n <;> rfl

theorem cursor?_scope (p : Place) (s : RunState) :
    (p.scope s).cursor? = p.cursor.or p.around.cursor? := by
  unfold scope Template.Scope.push Template.Scope.cursor?
  rw [List.findSome?_cons]
  cases p.cursor <;> rfl

/-- The place of the body of a loop of some name. The records of the level of the loop can be seen
from there. -/
def enter (p : Place) (s : RunState) (name : String) (cursor : Template.Cursor) : Place :=
  ⟨p.scope s, some cursor, p.path ++ [(name, cursor.index)]⟩

/-- The names that an expression at a place can use. -/
def names (p : Place) (s : RunState) (now : Time.Instant) : Expr.Names := (p.scope s).names now

end Place

/-- Goes on with what a template gives, or with its error. -/
def Walk.onTemplate {α : Type} (e : Except Template.Failure α)
    (next : Except Template.TemplateError α → Walk) : Walk :=
  match e with
  | .ok a => next (.ok a)
  | .error (.error e) => next (.error e)
  | .error .crash => .crash

/-- The milliseconds between two readings of the clock. -/
def elapsed (first last : Reading Time.Instant) : Nat :=
  let nanos := last.uptime - first.uptime
  milliseconds (nanos / 1000000000) (nanos % 1000000000)

/-- A walk that ends with a run. -/
def Walk.ended (s : RunState) : Walk := .done (.ok s)

/-- A walk that ends with a failed step, which fails the run. -/
def Walk.failed (s : RunState) (name message : String) (r : StepRecord) : Walk :=
  Walk.ended ((s.upsert name r).withVerdict (.failed name message))

/-- The record of a step that failed before it did anything. -/
def failedRecord (input : Json) (message : String) : StepRecord :=
  .action ⟨.failed, input, some message, none⟩ .null

end FlowEngine.Engine
