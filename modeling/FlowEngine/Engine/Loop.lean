import FlowEngine.Engine.Halt

/-!
# Walking a loop

The body is walked once for every item, with a map of records of its own. A loop that runs its
iterations one after the other stops at the first one that does not end normally; one that runs them
side by side claims no more iterations then.

* `runLoop` — walks a loop.
* `inSequence`, `sideBySide` — the iterations.
-/

namespace FlowEngine.Engine

open FlowEngine.Run

/-- The body of a loop, walked from a place. -/
abbrev Body := Place → RunState → Walk

/-- The record of a loop. -/
def loopRecord (status : StepStatus) (input : Json) (error : Option String) (duration : Option Nat)
    (item : Json) (index : Nat) (iterations : List StepMap) : StepRecord :=
  .loop ⟨status, input, error, duration⟩ item index iterations

/-! ## Items -/

/-- The items of a loop, or the message of a failure. -/
def itemsOf : Except Template.TemplateError Json → Except String (List Json)
  | .ok (.arr items) => .ok items
  | .ok .null => .ok []
  | .ok other => .error ("loop items must be a list, got " ++ other.compact)
  | .error e => .error ("loop items: " ++ e.message)

/-- The items and the iterations of a loop that was entered before. -/
def recordedLoop? (prior : Option StepRecord) : Option (List Json × List StepMap) := do
  let r ← prior
  let items ← r.summary.input.member? "items"
  match items with
  | .arr items => do some (items, ← r.iterations?)
  | _ => none

/-- As many maps as there are items. -/
def fit (count : Nat) (iterations : List StepMap) : List StepMap :=
  iterations.take count ++ List.replicate (count - iterations.length) []

/-! ## Iterations -/

/-- A loop that is being walked. -/
structure Looping where
  name : String
  input : Json
  place : Place
  state : RunState
  body : Body

/-- Walks an iteration. Its templates see the record of the loop at this item. -/
def Looping.visit (l : Looping) (index : Nat) (item : Json) (recorded : StepMap) : Walk :=
  let outer := l.state.upsert l.name (loopRecord .running l.input none none item index [])
  l.body (l.place.enter outer l.name ⟨item, index⟩) (l.state.nested recorded)

/-- What is known after the iterations: their maps, and the one that decides. -/
abbrev AfterLoop := List StepMap → Option (Nat × Verdict) → Walk

/-- Walks iterations one after the other, up to the first one that does not end normally. The maps
of those before are in reverse. -/
def inSequence (l : Looping) (next : AfterLoop) :
    (index : Nat) → (before : List StepMap) → List (Json × StepMap) → Walk
  | _, before, [] => next before.reverse none
  | index, before, (item, recorded) :: rest =>
    (l.visit index item recorded).andThen fun child =>
      let before := child.steps :: before
      if child.verdict.isRunning then inSequence l next (index + 1) before rest
      else next (before.reverse ++ rest.map Prod.snd) (some (index, child.verdict))

/-- Whether an iteration keeps others from being claimed. -/
def haltsLoop : Result → Bool
  | .ok child => !child.verdict.isRunning
  | .error _ => false

/-- The maps after iterations side by side. An iteration that was not claimed keeps its map; a
second pause is withdrawn. -/
def gatherIterations : (index : Nat) → Halts → List StepMap → List (Option Result) →
    Except Fault (List StepMap × Halts)
  | index, halts, recorded :: rest, none :: results => do
    let (maps, halts) ← gatherIterations (index + 1) halts rest results
    .ok (recorded :: maps, halts)
  | _, _, _ :: _, some (.error e) :: _ => .error e
  | index, halts, _ :: rest, some (.ok child) :: results => do
    let steps :=
      if halts.repeatsPause child.verdict then child.steps.withdrawPauses else child.steps
    let (maps, halts) ←
      gatherIterations (index + 1) (halts.note index child.verdict) rest results
    .ok (steps :: maps, halts)
  | _, halts, maps, _ => .ok (maps, halts)

/-- Walks iterations side by side. -/
def sideBySide (l : Looping) (workers : Nat) (next : AfterLoop) (all : List (Json × StepMap)) :
    Walk :=
  .fan workers haltsLoop all.length
    (fun index => match all[index]? with
      | some (item, recorded) => l.visit index item recorded
      | none => Walk.ended l.state)
    fun results =>
      match gatherIterations 0 Halts.none (all.map Prod.snd) results with
      | .error e => .done (.error e)
      | .ok (maps, halts) => next maps halts.decisive?

/-! ## The record -/

/-- The record of a loop at its end, and the verdict of the run. The record shows the item that
decided, or else the last one. -/
def closeLoop (l : Looping) (items : List Json) (duration : Nat) (iterations : List StepMap)
    (decisive : Option (Nat × Verdict)) : RunState :=
  let (index, verdict) := decisive.getD (items.length - 1, .running)
  let record (status : StepStatus) (error : Option String) :=
    loopRecord status l.input error (some duration) (items.getD index .null) index iterations
  let r := match verdict with
    | .running | .succeeded _ => record .succeeded none
    | .paused _ => record .paused none
    | .failed _ message => record .failed (some message)
  (l.state.upsert l.name r).withVerdict verdict

/-- Walks all iterations of a loop. -/
def walkItems (setup : Setup) (place : Place) (name : String) (settings : Flow.LoopSettings)
    (body : Body) (started : Reading Time.Instant) (items : List Json) (recorded : List StepMap)
    (s : RunState) : Walk :=
  let l : Looping := ⟨name, .obj [("items", .arr items)], place, s, body⟩
  let all := items.zip (fit items.length recorded)
  let next : AfterLoop := fun iterations decisive =>
    .clock fun stopped =>
      Walk.ended (closeLoop l items (elapsed started stopped) iterations decisive)
  if settings.parallel then sideBySide l (setup.settings.workers settings.concurrency) next all
  else inSequence l next 0 [] all

/-- Walks a loop. A finished one is left as it is; one that was entered before keeps its items. -/
def runLoop (setup : Setup) (place : Place) (name : String) (settings : Flow.LoopSettings)
    (body : Body) (s : RunState) : Walk :=
  let prior := s.steps.get? name
  if prior.any fun r => r.status.isFinished then Walk.ended s
  else
    .clock fun started =>
      match recordedLoop? prior with
      | some (items, recorded) => walkItems setup place name settings body started items recorded s
      | none =>
        let names := place.names s started.now
        Walk.onTemplate (Template.resolve names settings.items) fun resolved =>
          match itemsOf resolved with
          | .ok items => walkItems setup place name settings body started items [] s
          | .error message =>
            Walk.failed s name message (failedRecord (.obj [("items", settings.items)]) message)

end FlowEngine.Engine
