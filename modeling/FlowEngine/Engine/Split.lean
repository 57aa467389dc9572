import FlowEngine.Engine.Halt
import FlowEngine.Flow.Encode

/-!
# Walking a split

Every branch that is taken is walked from the same records, side by side with the others. Afterwards
what the branches changed is put together in the order of the branches.

* `chooseBranches` — the branches that are taken.
* `mergeBranches` — what the branches changed.
* `runSplit` — walks a split.
-/

namespace FlowEngine.Engine

open FlowEngine.Run

/-- A branch of a split, the names of all steps in it, and its walk. -/
structure Path where
  branch : Flow.SplitBranch
  stepNames : List String
  walk : RunState → Walk

/-! ## Choosing -/

/-- How the branches of a split cannot be chosen. -/
inductive ChoiceFailure where
  | crash
  | message (message : String)
  deriving DecidableEq, Inhabited

/-- The error of a condition of a branch. -/
def ChoiceFailure.of (branch : String) : Template.Failure → ChoiceFailure
  | .crash => crash
  | .error e => message ("branch '" ++ branch ++ "': " ++ e.message)

/-- The branches whose conditions hold, in order; perhaps only the first one. -/
def matchingBranches (names : Expr.Names) (execution : Flow.SplitExecution) :
    List Flow.SplitBranch → Except ChoiceFailure (List String)
  | [] => .ok []
  | b :: rest =>
    match b.kind with
    | .fallback => matchingBranches names execution rest
    | .condition => do
      let holds ← (Template.conditionsHold names b.condition).mapError (ChoiceFailure.of b.name)
      if holds then
        match execution with
        | .firstMatch => .ok [b.name]
        | .allMatches => do .ok (b.name :: (← matchingBranches names execution rest))
      else matchingBranches names execution rest

/-- The names of the branches that are taken: those that match, or else the first one that is meant
for that case. -/
def chooseBranches (names : Expr.Names) (execution : Flow.SplitExecution)
    (branches : List Flow.SplitBranch) : Except ChoiceFailure (List String) := do
  let taken ← matchingBranches names execution branches
  if taken.isEmpty then
    .ok ((branches.find? fun b => b.kind == .fallback).map Flow.SplitBranch.name).toList
  else .ok taken

/-! ## Merging -/

/-- Puts the records that a branch changed into those of the run. -/
def mergeSteps (base merged branch : StepMap) : StepMap :=
  (branch.filter fun r => base.get? r.1 ≠ some r.2).foldl (fun m r => m.insert r.1 r.2) merged

/-- Puts together what the branches changed. A second pause is withdrawn, so that the branch starts
over when the run is resumed. -/
def mergeBranches (base : StepMap) :
    (index : Nat) → Halts → RunState → List (Path × Option Result) → Except Fault (RunState × Halts)
  | _, halts, merged, [] => .ok (merged, halts)
  | index, halts, merged, (_, none) :: rest => mergeBranches base (index + 1) halts merged rest
  | _, _, _, (_, some (.error e)) :: _ => .error e
  | index, halts, merged, (path, some (.ok s)) :: rest =>
    let merged := { merged with steps := mergeSteps base merged.steps s.steps }
    let merged :=
      if halts.repeatsPause s.verdict then merged.withoutPauses path.stepNames else merged
    mergeBranches base (index + 1) (halts.note index s.verdict) merged rest

/-! ## The record -/

/-- The record of a split. -/
def splitRecord (status : StepStatus) (input : Json) (error : Option String) (duration : Option Nat)
    (taken : List String) : StepRecord :=
  .split ⟨status, input, error, duration⟩ taken

/-- The records and the verdict of the run at the end of a split. A split that paused is still
running. -/
def closeSplit (name : String) (input : Json) (taken : List String) (duration : Nat)
    (merged : RunState) (halts : Halts) : RunState :=
  let record (status : StepStatus) (error : Option String) :=
    splitRecord status input error (some duration) taken
  match halts.decisive? with
  | none => merged.upsert name (record .succeeded none)
  | some (_, verdict) =>
    let r := match verdict with
      | .failed _ _ => record .failed (some "a branch failed")
      | .succeeded _ => record .succeeded none
      | .running | .paused _ => record .running none
    (merged.upsert name r).withVerdict verdict

/-- Walks the branches that are taken. -/
def walkPaths (setup : Setup) (name : String) (concurrency : Option Nat) (paths : List Path)
    (started : Reading Time.Instant) (input : Json) (taken : List String) (s : RunState) : Walk :=
  let base := s.upsert name (splitRecord .running input none none taken)
  let chosen := paths.filter fun p => taken.contains p.branch.name
  .fan (setup.settings.workers concurrency) (fun _ => false) chosen.length
    (fun i => match chosen[i]? with
      | some p => p.walk base
      | none => Walk.ended base)
    fun results =>
      match mergeBranches base.steps 0 Halts.none base (chosen.zip results) with
      | .error e => .done (.error e)
      | .ok (merged, halts) =>
        .clock fun stopped =>
          Walk.ended (closeSplit name input taken (elapsed started stopped) merged halts)

/-- The input and the branches of a split that is being walked already. -/
def recordedSplit? (prior : Option StepRecord) : Option (Json × List String) := do
  let r ← prior
  if r.status = .running then
    let taken ← r.taken?
    some (r.summary.input, taken)
  else none

/-- Walks a split. A finished one is left as it is. -/
def runSplit (setup : Setup) (place : Place) (name : String) (settings : Flow.SplitSettings)
    (paths : List Path) (s : RunState) : Walk :=
  let prior := s.steps.get? name
  if prior.any fun r => r.status.isFinished then Walk.ended s
  else
    .clock fun started =>
      match recordedSplit? prior with
      | some (input, taken) => walkPaths setup name settings.concurrency paths started input taken s
      | none =>
        let input : Json := .obj [("executionType", .str settings.execution.name)]
        let names := place.names s started.now
        match chooseBranches names settings.execution (paths.map Path.branch) with
        | .error .crash => .crash
        | .error (.message message) =>
          Walk.failed s name message (failedRecord input message)
        | .ok taken => walkPaths setup name settings.concurrency paths started input taken s

end FlowEngine.Engine
