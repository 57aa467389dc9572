import FlowEngine.Json.Decode

/-!
# Records of steps

What a run remembers of a step. The records of one level of a flow form a map in the order in which
the steps first ran; the record of a loop holds one such map an iteration.

* `StepRecord`, `StepMap` — records and maps of records.
* `StepMap.get?`, `StepMap.insert` — one record of a map.
* `StepMap.edit` — changes the records of a map, or removes them.
* `StepRecord.output` — what other steps see of a record.
* `StepMap.withdrawPause`, `StepMap.withdrawPauses` — forgets that a step is paused, or all of them.
* `StepRecord.toJson`, `StepRecord.ofJson?` — persisted records.
-/

namespace FlowEngine.Run

/-- The status of a step. -/
inductive StepStatus where
  | running
  | succeeded
  | failed
  | paused
  deriving DecidableEq, Inhabited

namespace StepStatus

/-- Finished steps never run again. -/
def isFinished : StepStatus → Bool
  | succeeded | failed => true
  | running | paused => false

/-- The name of a status. -/
def name : StepStatus → String
  | running => "RUNNING"
  | succeeded => "SUCCEEDED"
  | failed => "FAILED"
  | paused => "PAUSED"

/-- The status of a name. -/
def ofName? : String → Option StepStatus
  | "RUNNING" => some running
  | "SUCCEEDED" => some succeeded
  | "FAILED" => some failed
  | "PAUSED" => some paused
  | _ => none

theorem ofName?_name (s : StepStatus) : ofName? s.name = some s := by cases s <;> rfl

end StepStatus

/-- What every record holds: the status, the resolved input, the error of a step that failed, and
how many milliseconds the step took. -/
structure Summary where
  status : StepStatus
  input : Json
  error : Option String
  duration : Option Nat
  deriving DecidableEq, Inhabited

/-- The record of a step.

An action has an output. A branch has the truth of its condition. A split has the names of the
branches it took. A loop has the item and the index of its cursor, and a map of records for every
iteration that was entered. -/
inductive StepRecord where
  | action (summary : Summary) (output : Json)
  | branch (summary : Summary) (holds : Bool)
  | split (summary : Summary) (taken : List String)
  | loop (summary : Summary) (item : Json) (index : Nat)
    (iterations : List (List (String × StepRecord)))
  deriving Inhabited

/-- The records of one level by name, in the order in which the steps first ran. -/
abbrev StepMap := List (String × StepRecord)

/-! ## Maps -/

namespace StepMap

/-- The record of a step. -/
def get? (steps : StepMap) (name : String) : Option StepRecord := steps.lookup name

/-- Whether a step has a record. -/
def contains (steps : StepMap) (name : String) : Bool := (steps.get? name).isSome

/-- The names of the steps in order. -/
def names (steps : StepMap) : List String := steps.map Prod.fst

/-- Replaces the record of a step, or adds one at the end. -/
def insert (steps : StepMap) (name : String) (r : StepRecord) : StepMap :=
  match steps with
  | [] => [(name, r)]
  | (k, old) :: rest => if k = name then (k, r) :: rest else (k, old) :: insert rest name r

/-- Changes the records of a map, or removes them. -/
def edit (change : String → StepRecord → Option StepRecord) (steps : StepMap) : StepMap :=
  steps.filterMap fun s => (change s.1 s.2).map fun r => (s.1, r)

/-- Inserts records one after the other. -/
def insertAll (steps new : StepMap) : StepMap := new.foldl (fun m s => m.insert s.1 s.2) steps

end StepMap

/-! ## Records -/

namespace StepRecord

/-- What every record holds. -/
def summary : StepRecord → Summary
  | action s _ | branch s _ | split s _ | loop s _ _ _ => s

/-- A record with another summary. -/
def withSummary (new : Summary) : StepRecord → StepRecord
  | action _ output => action new output
  | branch _ holds => branch new holds
  | split _ taken => split new taken
  | loop _ item index iterations => loop new item index iterations

/-- The status of the step. -/
def status (r : StepRecord) : StepStatus := r.summary.status

/-- The same record with another status. -/
def withStatus (status : StepStatus) (r : StepRecord) : StepRecord :=
  r.withSummary { r.summary with status := status }

/-- The same record with an error. -/
def withError (error : String) (r : StepRecord) : StepRecord :=
  r.withSummary { r.summary with error := some error }

/-- The same record with a duration. -/
def withDuration (duration : Nat) (r : StepRecord) : StepRecord :=
  r.withSummary { r.summary with duration := some duration }

/-- The truth of the condition of a branch. -/
def holds? : StepRecord → Option Bool
  | branch _ holds => some holds
  | _ => none

/-- The names of the branches that a split took. -/
def taken? : StepRecord → Option (List String)
  | split _ taken => some taken
  | _ => none

/-- The iterations of a loop. -/
def iterations? : StepRecord → Option (List StepMap)
  | loop _ _ _ iterations => some iterations
  | _ => none

/-! ## Documents -/

/-- The members that stand before those of the kind of a record. -/
def summaryMembers (s : Summary) : List (String × Json) :=
  [("status", .str s.status.name), ("input", s.input)] ++
    Json.optionalMember "errorMessage" .str s.error ++
    Json.optionalMember "duration" Json.ofNat s.duration

mutual

/-- A record as it is persisted. -/
def toJson : StepRecord → Json
  | action s output => .obj (summaryMembers s ++ [("type", .str "GENERIC"), ("output", output)])
  | branch s holds =>
    .obj (summaryMembers s ++ [("type", .str "BRANCH"), ("conditionEvaluation", .bool holds)])
  | split s taken =>
    .obj (summaryMembers s ++
      [("type", .str "SPLIT"), ("takenBranches", .arr (taken.map .str))])
  | loop s item index iterations =>
    .obj (summaryMembers s ++ [("type", .str "LOOP_ON_ITEMS"),
      ("output", .obj [("item", item), ("index", .ofNat index),
        ("iterations", .arr (iterationsJson iterations))])])

/-- The maps of iterations as they are persisted. -/
def iterationsJson : List (List (String × StepRecord)) → List Json
  | [] => []
  | steps :: rest => .obj (membersJson steps) :: iterationsJson rest

/-- The records of a map as they are persisted. -/
def membersJson : List (String × StepRecord) → List (String × Json)
  | [] => []
  | (name, r) :: rest => (name, toJson r) :: membersJson rest

end

/-- The output of a loop as it is persisted. -/
def loopJson (item : Json) (index : Nat) (iterations : List StepMap) : Json :=
  .obj [("item", item), ("index", .ofNat index), ("iterations", .arr (iterationsJson iterations))]

/-- The value that other steps see as the output of the step. -/
def output : StepRecord → Json
  | action _ output => output
  | branch _ holds => .obj [("conditionEvaluation", .bool holds)]
  | split _ taken => .obj [("takenBranches", .arr (taken.map .str))]
  | loop _ item index iterations => (loopJson item index iterations).canonical

/-- The summary in a persisted record. -/
def summaryOf? (o : Json.Origin) (j : Json) : Option Summary := do
  let fs ← j.objectFields? ["status", "input", "errorMessage", "duration"]
  let status ← fs.required "status" fun j => do StepStatus.ofName? (← j.formName? o)
  let input ← fs.defaulted "input" .null Json.asValue?
  let error ← fs.optional "errorMessage" Json.asString?
  let duration ← fs.optional "duration" Json.asNat64?
  some ⟨status, input, error, duration⟩

/-- The kinds of records. -/
def kinds : List String := ["GENERIC", "BRANCH", "SPLIT", "LOOP_ON_ITEMS"]

/-- Reads a persisted record. The depth bounds how deep loops are nested. -/
def ofJsonWithin? : (depth : Nat) → Json.Origin → Json → Option StepRecord
  | 0, _, _ => none
  | depth + 1, o, j => do
    let s ← summaryOf? o j
    let (kind, j) ← j.tagged? (.kept true) "type" kinds
    match kind with
    | "GENERIC" =>
      let fs ← j.objectFields? ["output"]
      (fs.defaulted "output" .null Json.asValue?).map (action s)
    | "BRANCH" =>
      let fs ← j.objectFields? ["conditionEvaluation"]
      (fs.required "conditionEvaluation" Json.asBool?).map (branch s)
    | "SPLIT" =>
      let fs ← j.objectFields? ["takenBranches"]
      (fs.defaulted "takenBranches" [] (Json.asList? Json.asString?)).map (split s)
    | "LOOP_ON_ITEMS" =>
      let fs ← j.objectFields? ["output"]
      fs.defaulted "output" (loop s .null 0 []) fun j => do
        let fs ← j.fields? ["item", "index", "iterations"]
        let item ← fs.defaulted "item" .null Json.asValue?
        let index ← fs.defaulted "index" 0 Json.asNat64?
        let iterations ← fs.defaulted "iterations" []
          (Json.asList? (Json.asMap? (ofJsonWithin? depth (.kept true))))
        some (loop s item index iterations)
    | _ => none

/-- Reads a persisted record. -/
def ofJson? (j : Json) : Option StepRecord := ofJsonWithin? (j.depth + 1) .text j

end StepRecord

namespace StepMap

/-- A map of records as it is persisted. -/
def toJson (steps : StepMap) : Json := .obj (StepRecord.membersJson steps)

/-- Reads a persisted map of records. -/
def ofJson? : Json → Option StepMap := Json.asMap? StepRecord.ofJson?

end StepMap

/-! ## Equality -/

namespace StepRecord

mutual

/-- Whether two records are the same, the order of their maps included. -/
def same : StepRecord → StepRecord → Bool
  | action s a, action t b => decide (s = t) && decide (a = b)
  | branch s a, branch t b => decide (s = t) && a == b
  | split s a, split t b => decide (s = t) && decide (a = b)
  | loop s a i x, loop t b j y => decide (s = t) && decide (a = b) && i == j && sameMaps x y
  | _, _ => false
termination_by structural a => a

/-- Iteration by iteration. -/
def sameMaps : List (List (String × StepRecord)) → List (List (String × StepRecord)) → Bool
  | [], [] => true
  | a :: as, b :: bs => sameSteps a b && sameMaps as bs
  | _, _ => false
termination_by structural a => a

/-- Record by record. -/
def sameSteps : List (String × StepRecord) → List (String × StepRecord) → Bool
  | [], [] => true
  | (k, a) :: as, (l, b) :: bs => k == l && same a b && sameSteps as bs
  | _, _ => false
termination_by structural a => a

end

mutual

theorem same_iff : ∀ a b : StepRecord, same a b = true ↔ a = b
  | .action _ _, b => by cases b <;> simp [same]
  | .branch _ _, b => by cases b <;> simp [same]
  | .split _ _, b => by cases b <;> simp [same]
  | .loop _ _ _ x, b => by cases b <;> simp [same, sameMaps_iff x, and_assoc]

theorem sameMaps_iff : ∀ a b : List (List (String × StepRecord)), sameMaps a b = true ↔ a = b
  | [], b => by cases b <;> simp [sameMaps]
  | a :: as, b => by cases b <;> simp [sameMaps, sameSteps_iff a, sameMaps_iff as]

theorem sameSteps_iff : ∀ a b : List (String × StepRecord), sameSteps a b = true ↔ a = b
  | [], b => by cases b <;> simp [sameSteps]
  | (k, a) :: as, bs => by
    cases bs with
    | nil => simp [sameSteps]
    | cons b bs => obtain ⟨l, b⟩ := b; simp [sameSteps, same_iff a, sameSteps_iff as]

end

instance : DecidableEq StepRecord := fun a b => decidable_of_iff _ (same_iff a b)

end StepRecord

/-! ## Withdrawing pauses -/

namespace StepRecord

mutual

/-- How deep loops are nested in a record. -/
def nesting : StepRecord → Nat
  | loop _ _ _ iterations => nestingAll iterations + 1
  | _ => 0

/-- How deep loops are nested in the maps of iterations. -/
def nestingAll : List (List (String × StepRecord)) → Nat
  | [] => 0
  | steps :: rest => max (nestingIn steps) (nestingAll rest)

/-- How deep loops are nested in a map. -/
def nestingIn : List (String × StepRecord) → Nat
  | [] => 0
  | (_, r) :: rest => max (nesting r) (nestingIn rest)

end

/-- What is left of a record when its pause is withdrawn: nothing of a paused action; a paused loop
runs again and keeps its iterations, of which each is changed. Other records stay. -/
def withoutPauseBy (change : StepMap → StepMap) : StepRecord → Option StepRecord
  | loop s item index iterations =>
    if s.status = .paused then
      some (loop { s with status := .running } item index (iterations.map change))
    else some (loop s item index iterations)
  | r => if r.status = .paused then none else some r

end StepRecord

namespace StepMap

/-- The names of the steps with a status. -/
def withStatus (status : StepStatus) (steps : StepMap) : List String :=
  (steps.filter fun s => s.2.status = status).map Prod.fst

/-- Withdraws the pause of one step, if it is paused. The iterations of a loop are changed. -/
def withdrawPauseBy (change : StepMap → StepMap) (steps : StepMap) (name : String) : StepMap :=
  steps.edit fun n r => if n = name then r.withoutPauseBy change else some r

/-- Withdraws the pauses of the steps that are paused, one after the other. The depth bounds how
deep loops are nested. -/
def withdrawPausesWithin : (depth : Nat) → StepMap → StepMap
  | 0, steps => steps
  | depth + 1, steps =>
    (steps.withStatus .paused).foldl (withdrawPauseBy (withdrawPausesWithin depth)) steps

/-- Withdraws the pauses of all steps. -/
def withdrawPauses (steps : StepMap) : StepMap :=
  withdrawPausesWithin (StepRecord.nestingIn steps + 1) steps

/-- Withdraws the pause of one step, if it is paused. -/
def withdrawPause (steps : StepMap) (name : String) : StepMap :=
  withdrawPauseBy withdrawPauses steps name

end StepMap

end FlowEngine.Run
