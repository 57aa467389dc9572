import FlowEngine.Expr.Eval
import FlowEngine.Run.Record

/-!
# Scopes

What a template can refer to: the records of the steps of all levels around it, and the item and the
index of the loop it is in. Inner levels hide outer ones.

* `Scope.step?`, `Scope.cursor?`, `Scope.knownNames` — what is in scope.
* `recordValue` — a record as a value: some fields of its own, and else those of its output.
* `Scope.names` — a scope as the names of an expression.
-/

namespace FlowEngine.Template

open FlowEngine.Run FlowEngine.Expr

/-- Where a loop is. -/
structure Cursor where
  item : Json
  index : Nat
  deriving DecidableEq, Inhabited

/-- One level: the records of its steps, and where it is if it is the body of a loop. -/
structure Frame where
  steps : StepMap
  cursor : Option Cursor
  deriving DecidableEq, Inhabited

/-- The levels around a template, the innermost first. -/
abbrev Scope := List Frame

/-! ## Records as values -/

/-- A text that may be missing. -/
def optionalText : Option String → Value
  | none => .none
  | some s => .str s

/-- A number that may be missing. -/
def optionalNat : Option Nat → Value
  | none => .none
  | some n => .ofNat n

/-- The fields that every record lists. -/
def listedFields (s : Summary) (output : Value) : List (String × Value) :=
  [("output", output), ("input", .ofJson s.input), ("status", .str s.status.name),
    ("errorMessage", optionalText s.error), ("duration", optionalNat s.duration)]

mutual

/-- A record as a value. -/
def recordValue : StepRecord → Value
  | .action s output =>
    .record (listedFields s (.ofJson output)) [] (.ofJson output) output
  | .branch s holds =>
    let output := StepRecord.output (.branch s holds)
    .record (listedFields s (.ofJson output)) [("conditionEvaluation", .bool holds)]
      (.ofJson output) output
  | .split s taken =>
    let output := StepRecord.output (.split s taken)
    .record (listedFields s (.ofJson output)) [("takenBranches", .seq (taken.map .str))]
      (.ofJson output) output
  | .loop s item index iterations =>
    let json := StepRecord.output (.loop s item index iterations)
    let output := .record [("item", .ofJson item), ("index", .ofNat index),
      ("iterations", .seq (iterationValues iterations))] [] .undefined json
    .record (listedFields s output) [] output json

/-- The iterations of a loop as values. -/
def iterationValues : List (List (String × StepRecord)) → List Value
  | [] => []
  | steps :: rest =>
    .record (stepValues steps) [] .undefined (StepMap.toJson steps).canonical ::
      iterationValues rest

/-- The records of a map as values. -/
def stepValues : List (String × StepRecord) → List (String × Value)
  | [] => []
  | (name, r) :: rest => (name, recordValue r) :: stepValues rest

end

namespace Scope

/-- The scope of one level. -/
def ofSteps (steps : StepMap) : Scope := [⟨steps, none⟩]

/-- A scope with an inner level added. -/
def push (scope : Scope) (steps : StepMap) (cursor : Option Cursor) : Scope :=
  ⟨steps, cursor⟩ :: scope

/-- The innermost record of a step. -/
def step? (scope : Scope) (name : String) : Option StepRecord :=
  scope.findSome? fun frame => frame.steps.get? name

/-- Where the innermost loop is. -/
def cursor? (scope : Scope) : Option Cursor := scope.findSome? Frame.cursor

/-- All names that a template can begin with, from the outermost level inward. -/
def knownNames (scope : Scope) : List String :=
  scope.reverse.flatMap (fun frame => frame.steps.names) ++
    if scope.cursor?.isSome then ["item", "index"] else []

/-- The value of a name. In a loop the item and the index hide steps of these names. -/
def value? (scope : Scope) (name : String) : Option Value :=
  match scope.cursor?, name with
  | some c, "item" => some (.ofJson c.item)
  | some c, "index" => some (.ofNat c.index)
  | _, name => (scope.step? name).map recordValue

/-- A scope as the names of an expression. -/
def names (scope : Scope) (now : Time.Instant) : Names := ⟨scope.value?, now⟩

end Scope

end FlowEngine.Template
