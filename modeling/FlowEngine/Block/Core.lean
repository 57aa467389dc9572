import FlowEngine.Block.Basic

/-!
# The core block

* `echo` — answers with its input.
* `approval` — pauses until somebody follows one of two links.
* `wait_for_webhook` — pauses until a request comes in, and answers with it.
* `delay` — pauses for some seconds, or until a date.
* `fail` — fails.
* `stop` — stops the run with a response.
-/

namespace FlowEngine.Block

open FlowEngine.Run

/-- What the core actions learn of the world around: the time, and an identifier that is used only
once. -/
structure Surroundings where
  now : Time.Instant
  fresh : String
  deriving Inhabited

/-- An answer without a hook. -/
def answer (output : Json) : Reply := .ended (.ok output) none

/-- An answer that pauses the run. -/
def pausing (pause : Pause) (output : Json) : Reply := .ended (.ok output) (some (.pause pause))

/-- An answer that reports a failure. -/
def failing (failure : Failure) : Reply := .ended (.error failure) none

/-- Answers with the input. -/
def echo (r : Request) : Reply := answer r.props

/-- A text without slashes at its end. -/
def withoutSlashes (s : String) : String :=
  String.ofList ((s.toList.reverse.dropWhile (· == '/')).reverse)

/-- A link to approve or to disapprove. -/
def approvalLink (r : Request) (requestId action : String) : String :=
  withoutSlashes ((r.textProp? "baseUrl").getD "http://localhost:8080") ++ "/runs/" ++ r.runId ++
    "/requests/" ++ requestId ++ "?action=" ++ action

/-- Pauses with two links; then tells whether the first one was followed. -/
def approval (s : Surroundings) (r : Request) : Reply :=
  match r.payload with
  | some p => answer (.obj [("approved", .bool (p.queryParams.lookup "action" == some "approve"))])
  | none =>
    pausing (.webhook s.fresh (.obj []))
      (.obj [("approvalLink", .str (approvalLink r s.fresh "approve")),
        ("disapprovalLink", .str (approvalLink r s.fresh "disapprove"))])

/-- Pauses; then answers with what came in. -/
def waitForWebhook (s : Surroundings) (r : Request) : Reply :=
  match r.payload with
  | some p => answer p.toJson.canonical
  | none => pausing (.webhook s.fresh ((r.prop? "response").getD (.obj []))) .null

/-- Pauses until a point in time. -/
def delayUntil (t : Time.Instant) : Reply :=
  pausing (.delay t) (.obj [("resumeDateTime", .str t.toOffsetTimestamp)])

/-- The most seconds that a duration can have. -/
def maxSeconds : Int := 0x7FFFFFFFFFFFFFFF / 1000

/-- Pauses for some seconds. A point in time that cannot be written as a date ends the program. -/
def delayFor (now : Time.Instant) (seconds : Json) : Reply :=
  match seconds with
  | .int s =>
    if s < 0 ∨ 0x8000000000000000 ≤ s then
      failing (.invalidInput "'seconds' must be a non-negative integer")
    else if maxSeconds < s ∨ Time.Instant.maxSeconds < now.seconds + s then .crash
    else delayUntil ⟨now.seconds + s, now.nanos⟩
  | _ => failing (.invalidInput "'seconds' must be a non-negative integer")

/-- Pauses until a date or for some seconds; then tells when the run went on. -/
def delay (s : Surroundings) (r : Request) : Reply :=
  if r.isResuming then answer (.obj [("resumedAt", .str s.now.toOffsetTimestamp)])
  else
    match r.prop? "until", r.prop? "seconds" with
    | some date, _ =>
      match date.asString?.map Time.Timestamp.read with
      | some (.ok t) => delayUntil t
      | _ => failing (.invalidInput "'until' must be an RFC 3339 date")
    | none, some seconds => delayFor s.now seconds
    | none, none => failing (.invalidInput "delay needs 'seconds' or 'until'")

/-- Fails with a message. -/
def fail (r : Request) : Reply := failing (.failed ((r.textProp? "message").getD "step failed"))

/-- Stops the run. -/
def stop (r : Request) : Reply :=
  let response := (r.prop? "response").getD .null
  .ended (.ok response) (some (.stop response))

/-- The name of the core block. -/
def coreName : String := "core"

/-- The actions of the core block. -/
def coreOffers : List Offer :=
  [⟨coreName, "echo", "Return the input as output"⟩,
    ⟨coreName, "approval", "Pause until approved or disapproved"⟩,
    ⟨coreName, "wait_for_webhook", "Pause until a webhook request arrives"⟩,
    ⟨coreName, "delay", "Pause for a number of seconds or until a date"⟩,
    ⟨coreName, "fail", "Fail the step with a message"⟩,
    ⟨coreName, "stop", "Stop the run and return a response"⟩]

/-- The actions of the core block alone. -/
def coreRegistry : Registry := ⟨coreOffers, false⟩

/-- How an action of the core block answers. -/
def coreReply (s : Surroundings) (actionName : String) (r : Request) : Option Reply :=
  match actionName with
  | "echo" => some (echo r)
  | "approval" => some (approval s r)
  | "wait_for_webhook" => some (waitForWebhook s r)
  | "delay" => some (delay s r)
  | "fail" => some (fail r)
  | "stop" => some (stop r)
  | _ => none

end FlowEngine.Block
