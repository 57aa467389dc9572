import FlowEngine.Proofs.Requests.History
import FlowEngine.Proofs.Schedule.Scheduler

/-!
# Pauses, progress and resumption

What holds of every flow that is begun and resumed any number of times, with any actions, settings
and schedules.

* `paused_once` — a paused context waits for one action.
* `progress_kept` — finished records stay, and finished actions are not called again.
* `resumed_once` — a resume reaches the action that waits, and resumes no other.
-/

namespace FlowEngine.Engine

open FlowEngine.Run FlowEngine.Flow

/-! ## An example

Two items are worked on side by side, and each has to be approved. The first one is asked for, the
second one is not claimed any more. -/

/-- A flow that asks for each of two items. -/
def approval : Version where
  id := "approval"
  displayName := "Approval"
  first := .trigger ⟨"start", "Start"⟩ .empty
  rest := [.loop ⟨"each", "Each"⟩ ⟨.arr [.str "a", .str "b"], true, none⟩
    [.action ⟨"ask", "Ask"⟩ ⟨.block "mail" "ask", .obj [], .none⟩]]

/-- The actions of the flow are known. -/
def mailing : Block.Registry := ⟨[⟨"mail", "ask", "Asks."⟩], false⟩

/-- A world in which every action asks for a pause, and ends when it is resumed. -/
def mailer : World Unit Time.Instant Block.Call Block.Reply where
  clock _ _ := ⟨⟨0, 0⟩, 0⟩
  reply _ _ c := ((), 0, .ended (.ok .null)
    (if c.request.isResuming then none else some (.pause (.webhook "approve" .null))))
  stretch _ nanos := ((), nanos)

/-- The flow when the loop and its iterations are as given. -/
def approvalState (entry : Entry) (verdict : Verdict) (status : StepStatus) (index : Nat)
    (iterations : List StepMap) : RunState where
  runId := "run"
  projectId := none
  entry := entry
  verdict := verdict
  steps := [("start", .action ⟨.succeeded, .obj [], none, none⟩ .null),
    ("each", .loop ⟨status, .obj [("items", .arr [.str "a", .str "b"])], none, some 0⟩
      (.str (["a", "b"].getD index "")) index iterations)]

/-- The record of the action. -/
def askRecord (status : StepStatus) : StepMap :=
  [("ask", .action ⟨status, .obj [], none, some 0⟩ .null)]

/-- The first item waits. -/
def askedFirst : RunState :=
  approvalState .begin (.paused (.webhook "approve" .null)) .paused 0 [askRecord .paused, []]

/-- The first item is approved, and the second one waits. -/
def askedSecond : RunState :=
  approvalState .resume (.paused (.webhook "approve" .null)) .paused 1
    [askRecord .succeeded, askRecord .paused]

/-- Both items are approved. -/
def askedAll : RunState :=
  approvalState .resume (.succeeded none) .succeeded 1 [askRecord .succeeded, askRecord .succeeded]

theorem returns_askedFirst : ∃ t, Returns approval t askedFirst := by
  have h : (start mailer 0 (beginRun mailing {} approval "run" none .null) ()).1.result? =
      some (.ok askedFirst) := by decide +kernel
  exact (exists_runs_of_start 0 _ () h).imp fun t run => .begin run

theorem returns_askedSecond : ∃ t, Returns approval t askedSecond := by
  have h : (start mailer 0 (resumeRun mailing {} approval askedFirst none) ()).1.result? =
      some (.ok askedSecond) := by decide +kernel
  obtain ⟨t, prior⟩ := returns_askedFirst
  obtain ⟨t', run⟩ := exists_runs_of_start 0 _ () h
  exact ⟨t ++ t', .resume prior run⟩

theorem resumes_askedAll : ∃ t, Resumes approval askedSecond t askedAll := by
  have h : (start mailer 0 (resumeRun mailing {} approval askedSecond none) ()).1.result? =
      some (.ok askedAll) := by decide +kernel
  obtain ⟨t, run⟩ := exists_runs_of_start 0 _ () h
  exact ⟨[] ++ t, .resume .refl run⟩

/-! ## Pauses -/

variable {v : Version} {s s' : RunState} {t t' : Trace}

/-- Of all actions that have a record in a paused context, at any depth, one is paused. It is found
from the top by following the one paused record of each map, into the iteration that a loop shows;
nothing else is paused. Its output and the pause of the run come from its last call. -/
theorem paused_once (h : Returns v t s) {pause : Pause} (hp : s.verdict = .paused pause) :
    ∃ path name summary output, PauseChain s.steps path name summary output ∧
      s.steps.pauses.filter StepRecord.isAction = [.action summary output] ∧
      ∃ e, lastAt? ⟨path, name⟩ t = some e ∧
        e.reply = some (.ended (.ok output) (some (.pause pause))) ∧
        summary.input = e.call.request.props := by
  obtain ⟨hv, p, hw, summary, output, e, hat, hlast, hreply, hprops⟩ := h.waits hp
  obtain ⟨summary', output', hc⟩ := hw.pauseChain
  have heq := hw.enters.tidy.at?_pauseChain hc
  rw [hat] at heq
  cases heq
  exact ⟨p.loops, p.name, summary, output, hc, hc.actions_eq, e, hlast, hreply, hprops⟩

theorem paused_once_approval : ∃ t, Returns approval t askedSecond ∧
    askedSecond.verdict = .paused (.webhook "approve" .null) ∧
    ∃ path name summary output, PauseChain askedSecond.steps path name summary output ∧
      askedSecond.steps.pauses.filter StepRecord.isAction = [.action summary output] ∧
      ∃ e, lastAt? ⟨path, name⟩ t = some e ∧
        e.reply = some (.ended (.ok output) (some (.pause (.webhook "approve" .null)))) ∧
        summary.input = e.call.request.props := by
  obtain ⟨t, ht⟩ := returns_askedSecond
  exact ⟨t, ht, rfl, paused_once ht rfl⟩

/-! ## Progress -/

/-- A request to resume a context keeps its records, and does not call what is finished. -/
theorem resume_keeps (h : Returns v t s) {registry : Block.Registry} {settings : Config.Settings}
    {payload : Option ResumePayload} {u : Trace} {o : Outcome Result}
    (run : (resumeRun registry settings v s payload).Runs u o) :
    (∀ e ∈ u, ∀ r, s.steps.at? e.place = some r → r.status.isFinished = false) ∧
      ∀ s', o = .result (.ok s') → Keeps s.steps s'.steps := by
  rcases resumeRun_yields run with ⟨rfl, ho⟩ | ⟨hv, hpaused, hy⟩
  · exact ⟨by rintro e ⟨⟩, fun s' hs' => absurd hs' (ho s')⟩
  · obtain ⟨pause, hp⟩ := status_paused_iff.mp hpaused
    obtain ⟨-, p, hw, -⟩ := h.waits hp
    refine ⟨fun e he => (walkFlow_calls hv rfl hw.resumed hy e he).unfinished, ?_⟩
    rintro s' rfl
    exact (walkFlow_lands hv rfl hw.resumed hy).1

/-- Any number of resumes keeps all records, and does not call what is finished. -/
theorem Resumes.keeps (h : Returns v t s) (hr : Resumes v s t' s') :
    Keeps s.steps s'.steps ∧
      ∀ e ∈ t', ∀ r, s.steps.at? e.place = some r → r.status.isFinished = false := by
  induction hr with
  | refl => exact ⟨.refl _, by rintro e ⟨⟩⟩
  | @resume registry settings payload t₁ s₁ t₂ s₂ before run ih =>
    obtain ⟨hk, hcalls⟩ := ih
    obtain ⟨hcalls', hk'⟩ := resume_keeps (h.resumes before) run
    refine ⟨hk.trans (hk' s₂ rfl), fun e he r hr => ?_⟩
    rcases List.mem_append.mp he with he | he
    · exact hcalls e he r hr
    · by_contra hf
      have hf : r.status.isFinished = true := by simpa using hf
      exact absurd (hcalls' e he r (hk.finished hr hf)) (by simp [hf])

/-- What is finished in a context stays as it is when the context is resumed any number of times,
at the same position, and its action is not called there again, not even by a resume without a
context at its end. The branches and the input of every split stay, and so do the input, which
holds the items, and the number of iterations of every loop. -/
theorem progress_kept (h : Returns v t s) (hr : Resumes v s t' s') :
    (∀ p r, s.steps.at? p = some r → r.status.isFinished = true → s'.steps.at? p = some r) ∧
      (∀ p r taken, s.steps.at? p = some r → r.taken? = some taken → ∃ r',
        s'.steps.at? p = some r' ∧ r'.taken? = some taken ∧ r'.summary.input = r.summary.input) ∧
      (∀ p r its, s.steps.at? p = some r → r.iterations? = some its → ∃ r' its',
        s'.steps.at? p = some r' ∧ r'.iterations? = some its' ∧ its'.length = its.length ∧
          r'.summary.input = r.summary.input) ∧
      (∀ e ∈ t', ∀ r, s.steps.at? e.place = some r → r.status.isFinished = false) ∧
      ∀ registry settings payload u o, (resumeRun registry settings v s' payload).Runs u o →
        ∀ e ∈ u, ∀ r, s.steps.at? e.place = some r → r.status.isFinished = false := by
  obtain ⟨hk, hcalls⟩ := hr.keeps h
  refine ⟨fun p r hat hf => hk.finished hat hf, fun p r taken hat ht => ?_, fun p r its hat hi => ?_,
    hcalls, fun registry settings payload u o run e he r hat => ?_⟩
  · obtain ⟨r', hat', hkept⟩ := hk p r hat
    exact ⟨r', hat', hkept.taken taken ht⟩
  · obtain ⟨r', hat', hkept⟩ := hk p r hat
    obtain ⟨hinput, its', hits', hlen⟩ := hkept.iterations its hi
    exact ⟨r', its', hat', hits', hlen, hinput⟩
  · by_contra hf
    have hf : r.status.isFinished = true := by simpa using hf
    have hcalls' := (resume_keeps (h.resumes hr) run).1 e he r (hk.finished hat hf)
    exact absurd hcalls' (by simp [hf])

theorem progress_kept_approval : ∃ t t', Returns approval t askedSecond ∧
    Resumes approval askedSecond t' askedAll ∧
    askedAll.steps.at? ⟨[("each", 0)], "ask"⟩ =
      some (.action ⟨.succeeded, .obj [], none, some 0⟩ .null) ∧
    ∀ e ∈ t', e.place ≠ ⟨[("each", 0)], "ask"⟩ := by
  obtain ⟨t, ht⟩ := returns_askedSecond
  obtain ⟨t', ht'⟩ := resumes_askedAll
  obtain ⟨hfinished, -, -, hcalls, -⟩ := progress_kept ht ht'
  have hat : askedSecond.steps.at? ⟨[("each", 0)], "ask"⟩ =
      some (.action ⟨.succeeded, .obj [], none, some 0⟩ .null) := rfl
  refine ⟨t, t', ht, ht', hfinished _ _ hat rfl, fun e he hplace => ?_⟩
  exact absurd (hcalls e he _ (hplace ▸ hat)) (by decide)

/-! ## Resumption -/

/-- A resume of a paused context calls the action that waits with the payload of the request, and
every other action as if it had never waited. If a context comes of it, then the action that waited
was called, or failed because its input could not be resolved. -/
theorem resumed_once (h : Returns v t s) {pause : Pause} (hp : s.verdict = .paused pause) :
    ∃ path name summary output, PauseChain s.steps path name summary output ∧
      ∀ registry settings payload u o, (resumeRun registry settings v s payload).Runs u o →
        (∀ e ∈ u, e.place ≠ ⟨path, name⟩ →
          e.call.request.entry = .begin ∧ e.call.request.payload = none) ∧
        (∀ e ∈ u, e.place = ⟨path, name⟩ → e.call.request.entry = .resume ∧
          e.call.request.payload = some (payload.getD .empty)) ∧
        ∀ s', o = .result (.ok s') → (∃ e ∈ u, e.place = ⟨path, name⟩) ∨
          Unresolved v.allSteps ⟨path, name⟩ s'.steps := by
  obtain ⟨-, p, hw, -⟩ := h.waits hp
  obtain ⟨summary, output, hc⟩ := hw.pauseChain
  refine ⟨p.loops, p.name, summary, output, hc, fun registry settings payload u o run => ?_⟩
  rcases resumeRun_yields run with ⟨rfl, ho⟩ | ⟨hv, -, hy⟩
  · exact ⟨by rintro e ⟨⟩, by rintro e ⟨⟩, fun s' hs' => absurd hs' (ho s')⟩
  · have hcalls := walkFlow_calls hv rfl hw.resumed hy
    refine ⟨fun e he hne => (hcalls e he).begun ?_, fun e he heq => (hcalls e he).resumed ?_, ?_⟩
    · rintro ⟨⟩
      exact hne rfl
    · rw [heq]
    · rintro s' rfl
      exact (walkFlow_lands hv rfl hw.resumed hy).2.2 p rfl

theorem resumed_once_approval : ∃ path name summary output,
    PauseChain askedSecond.steps path name summary output ∧
      ∃ t, (resumeRun mailing {} approval askedSecond none).Runs t (.result (.ok askedAll)) ∧
        (∀ e ∈ t, e.place ≠ ⟨path, name⟩ →
          e.call.request.entry = .begin ∧ e.call.request.payload = none) ∧
        (∀ e ∈ t, e.place = ⟨path, name⟩ → e.call.request.entry = .resume ∧
          e.call.request.payload = some .empty) ∧
        ((∃ e ∈ t, e.place = ⟨path, name⟩) ∨
          Unresolved approval.allSteps ⟨path, name⟩ askedAll.steps) := by
  have h : (start mailer 0 (resumeRun mailing {} approval askedSecond none) ()).1.result? =
      some (.ok askedAll) := by decide +kernel
  obtain ⟨t, ht⟩ := returns_askedSecond
  obtain ⟨t', run⟩ := exists_runs_of_start 0 _ () h
  obtain ⟨path, name, summary, output, hc, hall⟩ := resumed_once ht rfl
  obtain ⟨hothers, hown, hreached⟩ := hall mailing {} none t' _ run
  exact ⟨path, name, summary, output, hc, t', run, hothers, hown, hreached askedAll rfl⟩

end FlowEngine.Engine
