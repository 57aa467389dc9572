import FlowEngine.Run.Context

/-!
# Events

What a command reports while it works.

* `Event` — the events; `Event.toJson`, `Event.ofJson?` — events as documents.
* `Event.ofRun` — the events of a walk that has ended.
* `Report` — an event, or the final result.
* `finalOutput?` — what a run shows as its result.
-/

namespace FlowEngine.Cli

open FlowEngine.Run

/-- What a command reports. Durations are milliseconds. -/
inductive Event where
  | runStart (flow : String) (resume : Bool)
  | stepSummary (name : String) (status : StepStatus) (duration : Option Nat)
  | runPaused (runId : String) (pause : Json)
  | runFailed (runId step cause : String)
  | runComplete (runId : String) (status : RunStatus) (duration steps : Nat)
  | error (message : String)
  | info (message : String)
  deriving DecidableEq, Inhabited

namespace Event

/-- An event as a document. -/
def toJson : Event → Json
  | runStart flow resume =>
    .obj [("type", .str "RunStart"), ("flow", .str flow), ("resume", .bool resume)]
  | stepSummary name status duration =>
    .obj [("type", .str "StepSummary"), ("name", .str name), ("status", .str status.name),
      ("duration_ms", .ofOption .ofNat duration)]
  | runPaused runId pause =>
    .obj [("type", .str "RunPaused"), ("run_id", .str runId), ("pause", pause)]
  | runFailed runId step cause =>
    .obj [("type", .str "RunFailed"), ("run_id", .str runId), ("step", .str step),
      ("error", .str cause)]
  | runComplete runId status duration steps =>
    .obj [("type", .str "RunComplete"), ("run_id", .str runId), ("status", .str status.name),
      ("duration_ms", .ofNat duration), ("steps", .ofNat steps)]
  | error message => .obj [("type", .str "Error"), ("error", .str message)]
  | info message => .obj [("type", .str "Info"), ("message", .str message)]

open Json.Fields in
/-- Reads an event. -/
def ofJson? (j : Json) : Option Event := do
  let (type, j) ← j.tagged? .text "type" []
  match type with
  | "RunStart" =>
    let fs ← j.completeFields? ["flow", "resume"]
    some (runStart (← required fs "flow" Json.asString?) (← required fs "resume" Json.asBool?))
  | "StepSummary" =>
    let fs ← j.completeFields? ["name", "status", "duration_ms"]
    some (stepSummary (← required fs "name" Json.asString?)
      (← required fs "status" fun j => do StepStatus.ofName? (← j.formName? (.kept true)))
      (← optional fs "duration_ms" Json.asNat64?))
  | "RunPaused" =>
    let fs ← j.completeFields? ["run_id", "pause"]
    some (runPaused (← required fs "run_id" Json.asString?) (← required fs "pause" Json.asValue?))
  | "RunFailed" =>
    let fs ← j.completeFields? ["run_id", "step", "error"]
    some (runFailed (← required fs "run_id" Json.asString?) (← required fs "step" Json.asString?)
      (← required fs "error" Json.asString?))
  | "RunComplete" =>
    let fs ← j.completeFields? ["run_id", "status", "duration_ms", "steps"]
    some (runComplete (← required fs "run_id" Json.asString?)
      (← required fs "status" fun j => do RunStatus.ofName? (← j.formName? (.kept true)))
      (← required fs "duration_ms" Json.asNat64?) (← required fs "steps" Json.asNat64?))
  | "Error" =>
    let fs ← j.completeFields? ["error"]
    some (error (← required fs "error" Json.asString?))
  | "Info" =>
    let fs ← j.completeFields? ["message"]
    some (info (← required fs "message" Json.asString?))
  | _ => none

/-- The events of a walk that has ended: one for each step, then what keeps the run from being
complete, then the end. -/
def ofRun (s : RunState) (duration : Nat) : List Event :=
  s.steps.map (fun step => stepSummary step.1 step.2.status step.2.summary.duration) ++
    (s.verdict.pause?.map fun p => runPaused s.runId p.toJson.canonical).toList ++
    (match s.verdict with
      | .failed step message => [runFailed s.runId step message]
      | _ => []) ++
    [runComplete s.runId s.status duration s.steps.length]

end Event

/-- What a command hands out: an event, or its result. -/
inductive Report where
  | event (event : Event)
  | result (status : RunStatus) (output : Option Json)
  deriving DecidableEq, Inhabited

/-- What a run shows as its result: the answer it was stopped with, or the last step's output. -/
def finalOutput? (s : RunState) : Option Json :=
  s.stopResponse?.or (s.steps.getLast?.map fun step => step.2.output)

/-- The exit code of a program that ends with a run. -/
def exitCode : RunStatus → Nat
  | .succeeded => 0
  | .paused => 2
  | .failed | .running => 1

end FlowEngine.Cli
