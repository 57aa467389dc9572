import FlowEngine.Run.Record
import FlowEngine.Json.Printer
import FlowEngine.Json.Reader
import FlowEngine.Time.Timestamp

/-!
# Runs

A run holds the records of its steps, how its current walk was entered, and the verdict so far. It
is persisted while it is paused, and read back when it is resumed.

* `Pause` — what a paused run waits for; `ResumePayload` — what it is resumed with.
* `Verdict` — the outcome of a walk so far.
* `RunState` — a run; `RunState.upsert`, `RunState.nested`, `RunState.resumed` make new ones.
* `RunState.toJson`, `RunState.ofJson?` — persisted runs.
-/

namespace FlowEngine.Run

/-- How a walk is entered. -/
inductive Entry where
  | begin
  | resume
  deriving DecidableEq, Inhabited

/-- The name of a way to enter a walk. -/
def Entry.name : Entry → String
  | begin => "BEGIN"
  | resume => "RESUME"

/-- The way to enter a walk of a name. -/
def Entry.ofName? : String → Option Entry
  | "BEGIN" => some begin
  | "RESUME" => some resume
  | _ => none

/-- What a paused step waits for: a request, or a point in time. -/
inductive Pause where
  | webhook (requestId : String) (response : Json)
  | delay (until_ : Time.Instant)
  deriving DecidableEq, Inhabited

namespace Pause

/-- A pause as it is persisted. -/
def toJson : Pause → Json
  | webhook requestId response =>
    .obj [("type", .str "WEBHOOK"), ("requestId", .str requestId), ("response", response)]
  | delay t => .obj [("type", .str "DELAY"), ("resumeDateTime", .str t.toTimestamp)]

/-- The kinds of pauses. -/
def kinds : List String := ["WEBHOOK", "DELAY"]

/-- Reads a persisted pause. -/
def ofJson? (o : Json.Origin) (j : Json) : Option Pause := do
  let (kind, j) ← j.tagged? o "type" kinds
  match kind with
  | "WEBHOOK" =>
    let fs ← j.fields? ["requestId", "response"]
    let requestId ← fs.required "requestId" Json.asString?
    let response ← fs.defaulted "response" .null Json.asValue?
    some (webhook requestId response)
  | "DELAY" =>
    let fs ← j.fields? ["resumeDateTime"]
    fs.required "resumeDateTime" fun j => do
      (Time.Timestamp.readLenient? (← j.asString?)).map delay
  | _ => none

end Pause

/-- What comes from outside when a run is resumed. Headers and parameters are sorted by name. -/
structure ResumePayload where
  body : Json
  headers : List (String × String)
  queryParams : List (String × String)
  deriving DecidableEq, Inhabited

namespace ResumePayload

/-- Nothing comes from outside. -/
def empty : ResumePayload := ⟨.null, [], []⟩

/-- Texts by name as members of an object. -/
def textsJson (texts : List (String × String)) : Json :=
  .obj (texts.map fun t => (t.1, .str t.2))

/-- A payload as a document. -/
def toJson (p : ResumePayload) : Json :=
  .obj [("body", p.body), ("headers", textsJson p.headers),
    ("queryParams", textsJson p.queryParams)]

/-- The texts of an object by name, sorted. -/
def asTexts? (j : Json) : Option (List (String × String)) := do
  let texts ← j.asMap? Json.asString?
  some (texts.mergeSort fun a b => decide (a.1 ≤ b.1))

/-- Reads a payload. -/
def ofJson? (j : Json) : Option ResumePayload := do
  let fs ← j.fields? ["body", "headers", "queryParams"]
  let body ← fs.defaulted "body" .null Json.asValue?
  let headers ← fs.defaulted "headers" [] asTexts?
  let queryParams ← fs.defaulted "queryParams" [] asTexts?
  some ⟨body, headers, queryParams⟩

end ResumePayload

/-- The outcome of a walk so far. -/
inductive Verdict where
  | running
  | succeeded (stopResponse : Option Json)
  | paused (pause : Pause)
  | failed (step message : String)
  deriving DecidableEq, Inhabited

/-- The status of a run. -/
inductive RunStatus where
  | running
  | succeeded
  | failed
  | paused
  deriving DecidableEq, Inhabited

/-- The name of the status of a run. -/
def RunStatus.name : RunStatus → String
  | running => "RUNNING"
  | succeeded => "SUCCEEDED"
  | failed => "FAILED"
  | paused => "PAUSED"

/-- The status of a name. -/
def RunStatus.ofName? : String → Option RunStatus
  | "RUNNING" => some running
  | "SUCCEEDED" => some succeeded
  | "FAILED" => some failed
  | "PAUSED" => some paused
  | _ => none

namespace Verdict

/-- The status that a verdict gives to its run. -/
def status : Verdict → RunStatus
  | running => .running
  | succeeded _ => .succeeded
  | paused _ => .paused
  | failed _ _ => .failed

/-- Whether the walk goes on. -/
def isRunning : Verdict → Bool
  | running => true
  | _ => false

/-- What a paused run waits for. -/
def pause? : Verdict → Option Pause
  | paused p => some p
  | _ => none

/-- A verdict as it is persisted. -/
def toJson : Verdict → Json
  | running => .obj [("status", .str "RUNNING")]
  | succeeded response =>
    .obj (("status", .str "SUCCEEDED") :: Json.optionalMember "stopResponse" id response)
  | paused p => .obj [("status", .str "PAUSED"), ("pauseMetadata", p.toJson)]
  | failed step message =>
    .obj [("status", .str "FAILED"), ("failedStep", .str step), ("errorMessage", .str message)]

/-- Reads a persisted verdict. -/
def ofJson? (j : Json) : Option Verdict := do
  let (status, j) ← j.tagged? .text "status" []
  match status with
  | "RUNNING" => j.asEmpty?.map fun _ => running
  | "SUCCEEDED" =>
    let fs ← j.fields? ["stopResponse"]
    (fs.optional "stopResponse" Json.asValue?).map succeeded
  | "PAUSED" =>
    let fs ← j.fields? ["pauseMetadata"]
    (fs.required "pauseMetadata" (Pause.ofJson? (.kept true))).map paused
  | "FAILED" =>
    let fs ← j.fields? ["failedStep", "errorMessage"]
    let step ← fs.required "failedStep" Json.asString?
    let message ← fs.required "errorMessage" Json.asString?
    some (failed step message)
  | _ => none

end Verdict

/-- A run at one level: the whole flow, or an iteration of a loop. -/
structure RunState where
  runId : String
  projectId : Option String
  entry : Entry
  verdict : Verdict
  steps : StepMap
  deriving DecidableEq, Inhabited

namespace RunState

/-- A run that has just begun. -/
def empty (runId : String) : RunState := ⟨runId, none, .begin, .running, []⟩

/-- A run with other steps at a nested level; the identity of the run is the same. -/
def nested (s : RunState) (steps : StepMap) : RunState :=
  { s with verdict := .running, steps := steps }

/-- A paused run that is walked again. -/
def resumed (s : RunState) : RunState := { s with entry := .resume, verdict := .running }

/-- A run with the record of a step inserted or replaced. -/
def upsert (s : RunState) (name : String) (r : StepRecord) : RunState :=
  { s with steps := s.steps.insert name r }

/-- A run without the pauses of some steps. -/
def withoutPauses (s : RunState) (names : List String) : RunState :=
  { s with steps := names.foldl StepMap.withdrawPause s.steps }

/-- A run with another verdict. -/
def withVerdict (verdict : Verdict) (s : RunState) : RunState := { s with verdict := verdict }

/-- The status of a run. -/
def status (s : RunState) : RunStatus := s.verdict.status

/-- What a run that was stopped early answers. -/
def stopResponse? (s : RunState) : Option Json :=
  match s.verdict with
  | .succeeded response => response
  | _ => none

/-- The error that failed the run. -/
def errorMessage? (s : RunState) : Option String :=
  match s.verdict with
  | .failed _ message => some message
  | _ => none

/-- A run as it is persisted. -/
def toJson (s : RunState) : Json :=
  .obj (("runId", .str s.runId) :: Json.optionalMember "projectId" .str s.projectId ++
    [("executionType", .str s.entry.name), ("verdict", s.verdict.toJson),
      ("steps", s.steps.toJson)])

/-- The fields of a persisted run. -/
def fieldNames : List String := ["runId", "projectId", "executionType", "verdict", "steps"]

/-- Reads a persisted run. -/
def ofJson? (j : Json) : Option RunState := do
  let fs ← j.fields? fieldNames
  let runId ← fs.required "runId" Json.asString?
  let projectId ← fs.optional "projectId" Json.asString?
  let entry ← fs.defaulted "executionType" .begin fun j => do Entry.ofName? (← j.formName? .text)
  let verdict ← fs.defaulted "verdict" .running Verdict.ofJson?
  let steps ← fs.defaulted "steps" [] StepMap.ofJson?
  some ⟨runId, projectId, entry, verdict, steps⟩

/-- A persisted run as text. -/
def toText (s : RunState) : String := s.toJson.pretty

/-- Reads the text of a persisted run. -/
def ofText? (text : String) : Option RunState := do ofJson? (← Json.readRecord? fieldNames text)

end RunState

/-- Whole milliseconds of a duration, at most what 64 bits hold. -/
def milliseconds (seconds nanos : Nat) : Nat :=
  min (seconds * 1000 + nanos / 1000000) 0xFFFFFFFFFFFFFFFF

end FlowEngine.Run
