import FlowEngine.Proofs.Walk.Action

/-!
# Actions that answer alike

Actions whose answers depend only on what they are asked: on the action, its resolved input and, when
they are resumed, on the payload. All attempts of such an action end alike.

* `Answers` — how actions answer; `Answers.Explains` — the answers that were given in a trace.
* `Answers.NeverStop` — actions that never stop the run.
* `Answers.direct` — the same actions without their pauses.
* `conclusion`, `attempts_conclude` — how the attempts of an action end.
-/

namespace FlowEngine.Engine

open FlowEngine.Run FlowEngine.Flow

/-- How actions answer: the reply of a target, perhaps with a source, to an input and to the payload
if it is resumed. The reply is missing if the time runs out. -/
abbrev Answers :=
  Block.Target → Option String → Json → Option ResumePayload → Option Block.Reply

/-- Whether a reply asks for a pause. -/
def isPause : Option Block.Reply → Bool
  | some (.ended (.ok _) (some (.pause _))) => true
  | _ => false

/-- Whether a reply asks to stop the run. -/
def isStop : Option Block.Reply → Bool
  | some (.ended (.ok _) (some (.stop _))) => true
  | _ => false

namespace Answers

/-- The reply to a call. -/
def reply (a : Answers) (c : Block.Call) : Option Block.Reply :=
  a c.target c.request.source c.request.props c.request.payload

/-- All calls were answered like this. -/
def Explains (a : Answers) (t : Trace) : Prop := ∀ e ∈ t, e.reply = a.reply e.call

/-- No action stops the run. -/
def NeverStop (a : Answers) : Prop := ∀ target source input payload,
  isStop (a target source input payload) = false

/-- The same actions without their pauses: one that would pause answers at once as it does when it is
resumed with some payload. -/
def direct (a : Answers) (p : ResumePayload) : Answers := fun target source input payload =>
  if payload = none ∧ isPause (a target source input none) then a target source input (some p)
  else a target source input payload

variable {a : Answers} {t t' : Trace}

theorem explains_append : a.Explains (t ++ t') ↔ a.Explains t ∧ a.Explains t' :=
  List.forall_mem_append

theorem direct_of_pause {p : ResumePayload} {target : Block.Target} {source : Option String}
    {input : Json} (h : isPause (a target source input none) = true) :
    a.direct p target source input none = a target source input (some p) :=
  if_pos ⟨rfl, h⟩

theorem direct_of_not_pause {p : ResumePayload} {target : Block.Target} {source : Option String}
    {input : Json} {payload : Option ResumePayload}
    (h : isPause (a target source input none) = false) :
    a.direct p target source input payload = a target source input payload :=
  if_neg fun h' => by rw [h] at h'; cases h'.2

theorem NeverStop.direct (h : a.NeverStop) (p : ResumePayload) : (a.direct p).NeverStop := by
  intro target source input payload
  unfold Answers.direct
  split_ifs
  · exact h target source input (some p)
  · exact h target source input payload

end Answers

/-! ## Attempts -/

/-- What comes of an action: a failure, or an output and what it asked for. -/
abbrev Ending := Except Block.Failure (Json × Option Block.Hook)

/-- What follows a reply; nothing if the program ends. -/
def afterReply (settings : Config.Settings) : Option Block.Reply → Option Ending
  | none => some (.error (.timeout ((limitOf settings).getD 0)))
  | some .crash => none
  | some (.ended (.error failure) _) => some (.error failure)
  | some (.ended (.ok output) hook) => some (.ok (output, hook))

/-- How the attempts of an action end when all of them get the same reply. -/
def conclusion (settings : Config.Settings) (e : ErrorHandling) (reply : Option Block.Reply) :
    (left : Nat) → Option Ending
  | 0 => afterReply settings reply
  | left + 1 =>
    match afterReply settings reply with
    | some (.error failure) =>
      match reactionTo settings.retry e failure (settings.retry.maxRetries - (left + 1)) with
      | .retry (some _) => conclusion settings e reply left
      | .retry none => none
      | _ => some (.error failure)
    | other => other

/-- The record of an action that ended, without the duration. -/
def endingRecord (input : Json) : Ending → StepRecord
  | .error failure => failedRecord input failure.message
  | .ok (output, some (.pause _)) => .action ⟨.paused, input, none, none⟩ output
  | .ok (output, _) => .action ⟨.succeeded, input, none, none⟩ output

/-- The verdict after an action that ended. -/
def endingVerdict (name : String) (e : ErrorHandling) (verdict : Verdict) : Ending → Verdict
  | .error failure => if e.continues then verdict else .failed name failure.message
  | .ok (_, none) => verdict
  | .ok (_, some (.pause pause)) => .paused pause
  | .ok (_, some (.stop response)) => .succeeded (some response)

/-- The state after an action that ended. -/
def endingState (s : RunState) (name : String) (e : ErrorHandling) (input : Json) (duration : Nat)
    (r : Ending) : RunState :=
  (s.upsert name ((endingRecord input r).withDuration duration)).withVerdict
    (endingVerdict name e s.verdict r)

theorem failedState_eq (s : RunState) (name : String) (e : ErrorHandling) (input : Json)
    (failure : Block.Failure) (duration : Nat) : failedState s name e input failure duration =
      endingState s name e input duration (.error failure) := by
  unfold failedState endingState endingVerdict
  dsimp only
  split_ifs <;> rfl

theorem endedState_eq (s : RunState) (i : Invocation) (output : Json) (duration : Nat)
    (hook : Option Block.Hook) : endedState s i output duration hook =
      endingState s i.name i.errorHandling i.input duration (.ok (output, hook)) := by
  rcases hook with _ | pause | response <;> rfl

/-- How the walk of an action ends, unless it is still under way: with the program, or with a
state. -/
def Concludes (s : RunState) (name : String) (e : ErrorHandling) (input : Json)
    (ending : Option Ending) (o : Outcome Result) : Prop :=
  o = .pending ∨ (ending = none ∧ o = .crash) ∨
    ∃ r duration, ending = some r ∧ o = .result (.ok (endingState s name e input duration r))

theorem failStep_concludes {s : RunState} {name : String} {e : ErrorHandling}
    {started : Reading Time.Instant} {input : Json} {failure : Block.Failure} {t : Trace}
    {o : Outcome Result} (h : Job.Yields (failStep s name e started input failure) t o) :
    Concludes s name e input (some (.error failure)) o := by
  obtain ⟨-, rfl | ⟨duration, rfl⟩⟩ := failStep_yields h
  · exact .inl rfl
  · exact .inr (.inr ⟨_, duration, rfl, by rw [failedState_eq]⟩)

/-- What follows a reply that all attempts get, if another attempt is not made. -/
theorem onReply_concludes {settings : Config.Settings} {s : RunState} {i : Invocation}
    {reply : Option Block.Reply} {failed : Block.Failure → Walk} {t : Trace} {o : Outcome Result}
    {ending : Option Ending}
    (hf : ∀ failure, afterReply settings reply = some (.error failure) →
      Job.Yields (failed failure) t o → Concludes s i.name i.errorHandling i.input ending o)
    (hs : (∀ failure, afterReply settings reply ≠ some (.error failure)) →
      ending = afterReply settings reply)
    (h : Job.Yields (onReply (limitOf settings) reply failed (completeStep s i)) t o) :
    Concludes s i.name i.errorHandling i.input ending o := by
  rcases reply with _ | _ | ⟨failure | output, hook⟩
  · exact hf _ rfl h
  · obtain ⟨-, rfl | rfl⟩ := Job.Yields.crash_iff.mp h
    · exact .inl rfl
    · exact .inr (.inl ⟨hs (by simp [afterReply]), rfl⟩)
  · exact hf _ rfl h
  · obtain ⟨-, rfl | ⟨duration, rfl⟩⟩ := completeStep_yields h
    · exact .inl rfl
    · exact .inr (.inr ⟨_, duration, hs (by simp [afterReply]), by rw [endedState_eq]⟩)

/-- When all attempts of an action get the same reply, they end as this reply tells. -/
theorem attempts_conclude {setup : Setup} {s : RunState} {i : Invocation}
    {reply : Option Block.Reply} {left : Nat} {t : Trace} {o : Outcome Result}
    (h : Job.Yields (attempts setup s i left) t o) (ht : ∀ e ∈ t, e.reply = reply) :
    Concludes s i.name i.errorHandling i.input
      (conclusion setup.settings i.errorHandling reply left) o := by
  induction left generalizing t with
  | zero =>
    cases h with
    | pending => exact .inl rfl
    | call reply' late rest =>
      obtain rfl : reply' = reply := ht _ List.mem_cons_self
      refine onReply_concludes (fun failure hr h => ?_) (fun _ => rfl) rest
      rw [conclusion, hr]
      exact failStep_concludes h
  | succ left ih =>
    cases h with
    | pending => exact .inl rfl
    | call reply' late rest =>
      obtain rfl : reply' = reply := ht _ List.mem_cons_self
      refine onReply_concludes (fun failure hr h => ?_) (fun hr => ?_) rest
      · rw [conclusion, hr]
        dsimp only at h ⊢
        cases hreaction : reactionTo setup.settings.retry i.errorHandling failure
            (setup.settings.retry.maxRetries - (left + 1)) with
        | retry delay =>
          rw [hreaction] at h
          cases delay with
          | none =>
            obtain ⟨-, rfl | rfl⟩ := Job.Yields.crash_iff.mp h
            · exact .inl rfl
            · exact .inr (.inl ⟨rfl, rfl⟩)
          | some nanos =>
            cases h with
            | pending => exact .inl rfl
            | sleep rest => exact ih rest fun e he => ht e (List.mem_cons_of_mem _ he)
        | carryOn => rw [hreaction] at h; exact failStep_concludes h
        | abort => rw [hreaction] at h; exact failStep_concludes h
      · rw [conclusion]
        split
        · next failure hfailure => exact absurd hfailure (hr failure)
        · rfl

/-- A pause is not tried again. -/
theorem conclusion_of_pause {settings : Config.Settings} {e : ErrorHandling}
    {reply : Option Block.Reply} (h : isPause reply = true) (left : Nat) :
    ∃ output pause, conclusion settings e reply left = some (.ok (output, some (.pause pause))) := by
  unfold isPause at h
  split at h
  · next output pause => cases left <;> exact ⟨output, pause, rfl⟩
  · cases h

/-- A reply that is no stop leads to none. -/
theorem conclusion_not_stop {settings : Config.Settings} {e : ErrorHandling}
    {reply : Option Block.Reply} (hs : isStop reply = false) {left : Nat} {output : Json}
    {response : Json} :
    conclusion settings e reply left ≠ some (.ok (output, some (.stop response))) := by
  intro h
  have hafter : afterReply settings reply = some (.ok (output, some (.stop response))) := by
    induction left with
    | zero => exact h
    | succ left ih =>
      rw [conclusion] at h
      split at h
      · split at h
        · exact ih h
        · cases h
        · cases h
      · exact h
  rcases reply with _ | _ | ⟨failure | output', hook⟩
  · cases hafter
  · cases hafter
  · cases hafter
  · cases hafter
    cases hs

/-! ## The walk of an action -/

/-- The call of an action with a resolved input. -/
def callOf (setup : Setup) (place : Place) (s : RunState) (name : String) (a : Flow.Action)
    (input : Json) : Block.Call :=
  ⟨targetOf a.work, requestOf setup place.path s name a.work input⟩

/-- How an action ends, and the input that its record shows, given what became of its template. -/
def actionEnding (setup : Setup) (a : Flow.Action) (reply : Json → Option Block.Reply) :
    Except Template.Failure Json → Json × Option Ending
  | .error .crash => (a.input, none)
  | .error (.error e) => (a.input, some (.error (.invalidInput e.message)))
  | .ok input => (input, conclusion setup.settings a.errorHandling (reply input)
      (retryBudget setup.settings a.errorHandling))

/-- The walk of an action that is not finished: it is not known, or it ends as its reply tells. -/
theorem runAction_concludes {setup : Setup} {place : Place} {s : RunState} {name : String}
    {a : Flow.Action} {answers : Answers} {t : Trace} {o : Outcome Result}
    (hn : ∀ r, s.steps.get? name = some r → r.status.isFinished = false)
    (h : Job.Yields (runAction setup place name a s) t o) (ht : answers.Explains t) :
    (setup.registry.serves (targetOf a.work) = false ∧ ∀ s', o ≠ .result (.ok s')) ∨
      setup.registry.serves (targetOf a.work) = true ∧ (o = .pending ∨ ∃ now,
        let ends := actionEnding setup a (fun input => answers.reply (callOf setup place s name a input))
          (Template.resolve (place.names s now) a.input)
        Concludes s name a.errorHandling ends.1 ends.2 o) := by
  unfold runAction at h
  rw [if_neg (by
    rw [Option.any_eq_true]
    rintro ⟨r, hr, hf⟩
    rw [hn r hr] at hf
    cases hf)] at h
  cases hserves : setup.registry.serves (targetOf a.work) with
  | false =>
    rw [hserves] at h
    obtain ⟨-, ho⟩ := Job.Yields.done_iff.mp h
    exact .inl ⟨rfl, fun s' hs' => by subst hs'; simp at ho⟩
  | true =>
    rw [hserves] at h
    refine .inr ⟨rfl, ?_⟩
    rcases Job.Yields.of_clock h with ⟨-, rfl⟩ | ⟨started, h⟩
    · exact .inl rfl
    refine .inr ⟨started.now, ?_⟩
    dsimp only at h ⊢
    generalize Template.resolve (place.names s started.now) a.input = resolved at h ⊢
    rcases resolved with (e | _) | input
    · exact failStep_concludes h
    · obtain ⟨-, ho⟩ := Job.Yields.crash_iff.mp h
      exact ho.imp id fun ho => .inl ⟨rfl, ho⟩
    · refine attempts_conclude h fun e he => ?_
      rw [ht e he, (attempts_yields h).1 e he]
      rfl

end FlowEngine.Engine
