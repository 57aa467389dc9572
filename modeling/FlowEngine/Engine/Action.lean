import FlowEngine.Engine.Place

/-!
# Walking an action

The template of the input is resolved once. Then the action is called, again and again while it
fails and may be retried; the last attempt decides.

* `reactionTo` — what follows a failed attempt.
* `runAction` — walks an action.
* `attempts` — the attempts.
-/

namespace FlowEngine.Engine

open FlowEngine.Run

/-- What follows a failed attempt. The delay before another attempt is in nanoseconds; it may have
no value. -/
inductive Reaction where
  | retry (delay : Option Nat)
  | carryOn
  | abort
  deriving DecidableEq, Inhabited

/-- The reaction to the failure of an attempt; the first one has number zero. Attempts are used up
before it counts whether the run goes on without the step. -/
def reactionTo (retry : Config.Retry) (errorHandling : Flow.ErrorHandling) (failure : Block.Failure)
    (attempt : Nat) : Reaction :=
  if errorHandling.retries ∧ failure.isRetryable ∧ attempt < retry.maxRetries then
    .retry (retry.delay? attempt)
  else if errorHandling.continues then .carryOn
  else .abort

/-- An action that is being walked. -/
structure Invocation where
  name : String
  call : Block.Call
  errorHandling : Flow.ErrorHandling
  started : Reading Time.Instant
  deriving Inhabited

namespace Invocation

/-- The resolved input. -/
def input (i : Invocation) : Json := i.call.request.props

end Invocation

/-- The target of a step. -/
def targetOf : Flow.Work → Block.Target
  | .block blockName actionName => .block blockName actionName
  | .code _ => .code

/-- The source of a step that runs code. -/
def sourceOf? : Flow.Work → Option String
  | .block _ _ => none
  | .code source => some source

/-- The error of a step whose target is not known. -/
def unknownTarget (name : String) : Flow.Work → Fault
  | .block blockName actionName => .unknownAction name blockName actionName
  | .code _ => .noCodeRunner name

/-- What an action is called with. A step whose record is paused is resumed. -/
def requestOf (setup : Setup) (path : List (String × Nat)) (s : RunState) (name : String)
    (work : Flow.Work) (input : Json) : Block.Request :=
  let resuming := (s.steps.get? name).any fun r => r.status == .paused
  { stepName := name
    props := input
    entry := if resuming then .resume else .begin
    payload := if resuming then some (setup.payload.getD .empty) else none
    runId := s.runId
    projectId := s.projectId
    source := sourceOf? work
    path := path }

/-- A step that failed. The run goes on only if the step says so. -/
def failStep (s : RunState) (name : String) (errorHandling : Flow.ErrorHandling)
    (started : Reading Time.Instant) (input : Json) (failure : Block.Failure) : Walk :=
  .clock fun stopped =>
    let r := (failedRecord input failure.message).withDuration (elapsed started stopped)
    if errorHandling.continues then Walk.ended (s.upsert name r)
    else Walk.failed s name failure.message r

/-- A step that succeeded, and what it asked of the run. -/
def completeStep (s : RunState) (i : Invocation) (output : Json) (hook : Option Block.Hook) :
    Walk :=
  .clock fun stopped =>
    let record (status : StepStatus) : StepRecord :=
      .action ⟨status, i.input, none, some (elapsed i.started stopped)⟩ output
    Walk.ended <| match hook with
      | none => s.upsert i.name (record .succeeded)
      | some (.pause p) => (s.upsert i.name (record .paused)).withVerdict (.paused p)
      | some (.stop response) =>
        (s.upsert i.name (record .succeeded)).withVerdict (.succeeded (some response))

/-- The time limit of an action in nanoseconds. -/
def limitOf (settings : Config.Settings) : Option Nat := settings.stepTimeout.map (· * 1000000000)

/-- Goes on with the reply to a call, which is missing if the time ran out. -/
def onReply (limit : Option Nat) (reply : Option Block.Reply)
    (failed : Block.Failure → Walk) (succeeded : Json → Option Block.Hook → Walk) : Walk :=
  match reply with
  | none => failed (.timeout (limit.getD 0))
  | some .crash => .crash
  | some (.ended (.error failure) _) => failed failure
  | some (.ended (.ok output) hook) => succeeded output hook

/-- The attempts, of which at most `left` more may follow the first one. -/
def attempts (setup : Setup) (s : RunState) (i : Invocation) : (left : Nat) → Walk
  | 0 =>
    let limit := limitOf setup.settings
    .call i.call limit fun reply =>
      onReply limit reply (failStep s i.name i.errorHandling i.started i.input) (completeStep s i)
  | left + 1 =>
    let limit := limitOf setup.settings
    let retry := setup.settings.retry
    let fail := failStep s i.name i.errorHandling i.started i.input
    .call i.call limit fun reply =>
      onReply limit reply
        (fun failure =>
          match reactionTo retry i.errorHandling failure (retry.maxRetries - (left + 1)) with
          | .retry (some nanos) => .sleep nanos retry.jitter (attempts setup s i left)
          | .retry none => .crash
          | _ => fail failure)
        (completeStep s i)

/-- How many attempts may follow the first one. -/
def retryBudget (settings : Config.Settings) (errorHandling : Flow.ErrorHandling) : Nat :=
  if errorHandling.retries then settings.retry.maxRetries else 0

/-- Walks an action. A finished one is left as it is. -/
def runAction (setup : Setup) (place : Place) (name : String) (a : Flow.Action) (s : RunState) :
    Walk :=
  if (s.steps.get? name).any fun r => r.status.isFinished then Walk.ended s
  else if !setup.registry.serves (targetOf a.work) then .done (.error (unknownTarget name a.work))
  else
    .clock fun started =>
      Walk.onTemplate (Template.resolve (place.names s started.now) a.input) fun
        | .error e =>
          failStep s name a.errorHandling started a.input (.invalidInput e.message)
        | .ok input =>
          let call := ⟨targetOf a.work, requestOf setup place.path s name a.work input⟩
          attempts setup s ⟨name, call, a.errorHandling, started⟩
            (retryBudget setup.settings a.errorHandling)

end FlowEngine.Engine
