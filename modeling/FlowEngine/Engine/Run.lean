import FlowEngine.Engine.Walk

/-!
# Running a flow

* `beginRun` — begins a run: the trigger has its record, and the chain after it is walked.
* `resumeRun` — walks a paused run again, with what came in from outside.

A run whose walk reaches the end of the chain has succeeded.
-/

namespace FlowEngine.Engine

open FlowEngine.Run FlowEngine.Flow

/-- The verdict at the end of the chain. -/
def closeRun (s : RunState) : RunState :=
  if s.verdict.isRunning then s.withVerdict (.succeeded none) else s

/-- Walks the chain after the trigger. -/
def walkFlow (setup : Setup) (v : Version) (s : RunState) : Walk :=
  (walk setup v.rest Place.top s).andThen fun s => Walk.ended (closeRun s)

/-- Goes on if a flow is valid. -/
def ifValid (v : Version) (next : Walk) : Walk :=
  match validate v with
  | [] => next
  | problems => .done (.error (.invalidFlow problems))

/-- What the record of a trigger shows as its input. -/
def triggerInput : Step → Json
  | .trigger _ (.block _ _ input) => input
  | _ => .obj []

/-- A run of which only the trigger has a record. -/
def triggered (v : Version) (runId : String) (projectId : Option String) (payload : Json) :
    RunState :=
  { RunState.empty runId with projectId := projectId }.upsert v.first.name
    (.action ⟨.succeeded, triggerInput v.first, none, none⟩ payload)

/-- Begins a run. -/
def beginRun (registry : Block.Registry) (settings : Config.Settings) (v : Version) (runId : String)
    (projectId : Option String) (payload : Json) : Walk :=
  ifValid v (walkFlow ⟨registry, settings, none⟩ v (triggered v runId projectId payload))

/-- Resumes a paused run. -/
def resumeRun (registry : Block.Registry) (settings : Config.Settings) (v : Version)
    (prior : RunState) (payload : Option ResumePayload) : Walk :=
  ifValid v <|
    if prior.status = .paused then walkFlow ⟨registry, settings, payload⟩ v prior.resumed
    else .done (.error (.notPaused prior.runId prior.status))

end FlowEngine.Engine
