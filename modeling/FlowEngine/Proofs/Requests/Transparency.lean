import FlowEngine.Proofs.Requests.History
import FlowEngine.Proofs.Resumption.Chain
import FlowEngine.Proofs.Resumption.Ends
import FlowEngine.Proofs.Schedule.Scheduler
import FlowEngine.Proofs.Walk.Limits

/-!
# Pauses are transparent

A flow without splits whose actions answer alike leaves the same records, apart from durations,
whether its actions pause and are resumed or answer at once.

* `Completes` — a run that is resumed until it succeeds, with the records of another run.
* `Simulates.walkFlow_ends` — what comes of one request.
* `completes_as_direct` — a run that may pause completes as the run without pauses did.
-/

namespace FlowEngine.Engine

open FlowEngine.Run FlowEngine.Flow

/-- A request, and others that resume its context as long as it is paused, `n` of them at most. With
any schedules each of them gives a context. The last one has succeeded with the records of a given
run, apart from durations. -/
def Completes (answers : Answers) (resume : RunState → Walk) (direct : RunState) : Nat → Walk → Prop
  | 0, _ => False
  | n + 1, request =>
    Process.Ends (fun e => e.reply = answers.reply e.call)
      (fun r => ∃ s, r = .ok s ∧
        (s.status = .succeeded ∧ s.steps.timeless = direct.steps.timeless ∨
          s.status = .paused ∧ Completes answers resume direct n (resume s)))
      (.ready request)

variable {x : Rerun} {v : Version} {s : RunState} {base whole before kept : StepMap}
  {waits : Bool}

/-! ## One request -/

theorem closeRun_of_running (h : s.verdict = .running) : (closeRun s).status = .succeeded := by
  unfold closeRun
  rw [if_pos (isRunning_iff.mpr h)]
  rfl

theorem closeRun_of_paused (h : s.verdict.status = .paused) : closeRun s = s := by
  unfold closeRun
  rw [if_neg]
  intro hrun
  rw [isRunning_iff.mp hrun] at h
  cases h

/-- The context after a request that walked a flow which was cut short: the run has succeeded with
all records, or it is paused again with a part of them. -/
def Closes (x : Rerun) (waits : Bool) (before kept whole : StepMap) (s : RunState) : Prop :=
  ∃ kept', s.steps = before ++ kept' ∧
    kept.finishedCount + waits.toNat ≤ kept'.finishedCount ∧
    (s.status = .succeeded ∧ kept'.timeless = whole.timeless ∨
      s.status = .paused ∧ Partial x.asks true kept' whole)

theorem Advances.closes (h : Advances x waits before kept whole s) :
    Closes x waits before kept whole (closeRun s) := by
  obtain ⟨kept', hs, hcount, ⟨hrun, halike⟩ | ⟨hpaused, hpart⟩⟩ := h
  · exact ⟨kept', by rw [closeRun_steps, hs], hcount, .inl ⟨closeRun_of_running hrun, halike⟩⟩
  · rw [closeRun_of_paused hpaused]
    exact ⟨kept', hs, hcount, .inr ⟨hpaused, hpart⟩⟩

/-- What comes of a request to walk a flow that was cut short, with any schedule. -/
theorem Simulates.walkFlow_ends (h : Simulates x (walk x.setup v.rest) Place.top base whole)
    (hreplies : x.setup.settings.stepTimeout = none →
      ∀ target source input payload, (x.answers target source input payload).isSome = true)
    (hcut : Cut x Place.top base whole waits Place.top s before kept) :
    Process.Ends (fun e => e.reply = x.answers.reply e.call)
      (fun r => ∃ s', r = .ok s' ∧ Closes x waits before kept whole s')
      (.ready (walkFlow x.setup v s)) := by
  have hcalls : (walkFlow x.setup v s).Asks fun _ limit => limit = limitOf x.setup.settings :=
    (walk_asks x.setup v.rest Place.top s).andThen fun s => .done _
  have hanswers := answered_in_time fun htimeout c =>
    hreplies htimeout c.target c.request.source c.request.props c.request.payload
  refine Job.ends hanswers hcalls fun t o run ht => ?_
  have hgives : Gives x.answers (walkFlow x.setup v s) (Closes x waits before kept whole) :=
    (h.gives waits Place.top s before kept hcut).andThen fun s hs => .ended hs.closes
  obtain ho | ⟨s', ho, hs'⟩ := hgives t o run.yields ht
  · exact .inl ho
  · exact .inr ⟨_, ho, s', rfl, hs'⟩

/-! ## All requests -/

/-- A paused context is resumed until all records are there: every request finishes at least one more
of them. -/
theorem Simulates.completes (h : Simulates x (walk x.setup v.rest) Place.top base whole)
    (hv : validate v = []) (hreplies : x.setup.settings.stepTimeout = none →
      ∀ target source input payload, (x.answers target source input payload).isSome = true)
    (hpayload : x.setup.payload.getD .empty = x.payload) {direct : RunState}
    (hdirect : direct.steps = base ++ whole) {n : Nat} (hpaused : s.status = .paused)
    (hs : s.steps = before ++ kept) (halike : before.timeless = base.timeless)
    (hpart : Partial x.asks true kept whole)
    (hcount : whole.finishedCount < kept.finishedCount + n) :
    Completes x.answers (fun s => resumeRun x.setup.registry x.setup.settings v s x.setup.payload)
      direct n (resumeRun x.setup.registry x.setup.settings v s x.setup.payload) := by
  induction n generalizing s kept with
  | zero => exact absurd hpart.count_le (Nat.not_le.mpr hcount)
  | succ n ih =>
    have hrequest : resumeRun x.setup.registry x.setup.settings v s x.setup.payload =
        walkFlow x.setup v s.resumed := by
      unfold resumeRun ifValid
      rw [hv, if_pos hpaused]
    unfold Completes
    rw [hrequest]
    have hcut : Cut x Place.top base whole true Place.top s.resumed before kept :=
      ⟨rfl, rfl, rfl, hs, halike, hpart, .inr hpayload⟩
    refine (h.walkFlow_ends hreplies hcut).mono fun r ⟨s', hr, hcloses⟩ => ⟨s', hr, ?_⟩
    obtain ⟨kept', hs', hmore, ⟨hsucceeded, hend⟩ | ⟨hpaused', hpart'⟩⟩ := hcloses
    · refine .inl ⟨hsucceeded, ?_⟩
      rw [hs', hdirect, StepMap.timeless_append, StepMap.timeless_append, halike, hend]
    · refine .inr ⟨hpaused', ih hpaused' hs' hpart' ?_⟩
      rw [Bool.toNat_true] at hmore
      omega

/-- The actions of a flow that ask for a pause when they begin, by the names of their steps. -/
def asksIn (answers : Answers) (v : Version) (name : String) (input : Json) : Prop :=
  ∃ label a, Step.action label a ∈ v.allSteps ∧ label.name = name ∧
    isPause (answers (targetOf a.work) (sourceOf? a.work) input none) = true

/-- The kinds of the steps of a flow. -/
def kindsIn (v : Version) (name : String) (type : StepType) : Prop :=
  ∃ step ∈ v.allSteps, step.name = name ∧ step.type = type

/-- The walks of the requests for a flow admit its steps. -/
theorem admits_of_valid {setup : Setup} {p : ResumePayload} {answers : Answers}
    (hv : validate v = []) (hsplits : ∀ step ∈ v.allSteps, step.type ≠ .split)
    (hreads : ∀ step ∈ v.allSteps, ReadsNames (kindsIn v) step) :
    (Rerun.mk setup p answers (asksIn answers v) (kindsIn v)).Admits (flowRegion v).steps where
  splits step hs := hsplits step (flowRegion_steps_subset hv hs)
  reads step hs := hreads step (flowRegion_steps_subset hv hs)
  knows label a ha input := by
    have hmem := flowRegion_steps_subset hv ha
    refine ⟨?_, fun hp => ⟨label, a, hmem, rfl, hp⟩⟩
    rintro ⟨label', a', hmem', hname, hp⟩
    -- steps of the same name are the same
    have hsame : Step.action label' a' = .action label a :=
      List.inj_on_of_nodup_map (stepNames_nodup hv) hmem' hmem hname
    cases hsame
    exact hp
  kinds step hs := ⟨step, flowRegion_steps_subset hv hs, rfl, rfl⟩

/-- The records of a whole run after its trigger, which all walks of the flow simulate. -/
theorem whole_of_direct {registry : Block.Registry} {settings : Config.Settings} {runId : String}
    {projectId : Option String} {payload : Json} {answers : Answers} {p : ResumePayload}
    {direct : RunState} {t : Trace} (hsplits : ∀ step ∈ v.allSteps, step.type ≠ .split)
    (hreads : ∀ step ∈ v.allSteps, ReadsNames (kindsIn v) step) (hstop : answers.NeverStop)
    (run : (beginRun registry settings v runId projectId payload).Runs t (.result (.ok direct)))
    (ht : (answers.direct p).Explains t) (hdirect : direct.status = .succeeded) :
    ∃ whole, direct.steps = (triggered v runId projectId payload).steps ++ whole ∧
      ∀ resumed, Simulates ⟨⟨registry, settings, resumed⟩, p, answers, asksIn answers v, kindsIn v⟩
        (walk ⟨registry, settings, resumed⟩ v.rest) Place.top
        (triggered v runId projectId payload).steps whole := by
  obtain ⟨hv, hy⟩ := beginRun_yields run
  obtain ⟨s₁, t₁, t₂, rfl, hy₁, hy₂⟩ | ⟨-, ho⟩ := Job.Yields.of_andThen hy
  swap
  · exact absurd rfl (ho direct)
  obtain ⟨-, rfl⟩ := Yields.of_ended hy₂
  obtain ⟨ht₁, -⟩ := Answers.explains_append.mp ht
  have hflow (step : Step) (hs : step ∈ (flowRegion v).steps) : step.type ≠ .split :=
    hsplits step (flowRegion_steps_subset hv hs)
  have hunstopped : s₁.verdict.status ≠ .succeeded :=
    walk_unstopped (hstop.direct p) _ v.rest hflow Place.top _ t₁ s₁ (fun h => by cases h) hy₁ ht₁
  -- the run has succeeded, so the walk went on to the end of the chain
  have hrunning : s₁.verdict = .running := by
    by_contra hne
    unfold closeRun at hdirect
    rw [if_neg fun h => hne (isRunning_iff.mp h)] at hdirect
    exact hunstopped hdirect
  have hfirst : ∃ type, kindsIn v v.first.name type :=
    ⟨_, v.first, allSteps_eq hv ▸ List.mem_cons_self, rfl, rfl⟩
  have hcovers (resumed : Option ResumePayload) : ∃ whole,
      s₁.steps = (triggered v runId projectId payload).steps ++ whole ∧ _ ∧ _ ∧ _ :=
    walk_covers ⟨⟨registry, settings, resumed⟩, p, answers, asksIn answers v, kindsIn v⟩ v.rest
      (admits_of_valid hv hsplits hreads) (first_notMem hv).2 Place.top _ t₁ s₁ rfl
      (fun n hn => triggered_fresh hv runId projectId payload hn)
      (Template.Scope.fits_push ⟨hfirst, trivial⟩ (by rintro frame ⟨⟩)) hy₁ ht₁ hrunning
  obtain ⟨whole, hsteps, -, -⟩ := hcovers none
  refine ⟨whole, by rw [closeRun_steps, hsteps], fun resumed => ?_⟩
  obtain ⟨whole', hsteps', -, -, hsim⟩ := hcovers resumed
  obtain rfl : whole = whole' := List.append_cancel_left (hsteps.symm.trans hsteps')
  exact hsim

/-- Pauses are transparent. Let the actions of a flow without splits answer alike, by their inputs and
the payload they are resumed with, and never stop the run; let its templates look up names of other
steps. If the flow succeeds when its actions answer at once what they would answer when resumed, then
it succeeds when they pause and are resumed, after finitely many requests with any schedules, and
leaves the same records. -/
theorem completes_as_direct {registry : Block.Registry} {settings : Config.Settings}
    {runId runId' : String} {projectId projectId' : Option String} {payload : Json}
    {answers : Answers} {p : Option ResumePayload} {direct : RunState} {t : Trace}
    (hsplits : ∀ step ∈ v.allSteps, step.type ≠ .split)
    (hreads : ∀ step ∈ v.allSteps, ReadsNames (kindsIn v) step) (hstop : answers.NeverStop)
    (hreplies : settings.stepTimeout = none →
      ∀ target source input payload, (answers target source input payload).isSome = true)
    (run : (beginRun registry settings v runId projectId payload).Runs t (.result (.ok direct)))
    (ht : (answers.direct (p.getD .empty)).Explains t) (hdirect : direct.status = .succeeded) :
    Completes answers (fun s => resumeRun registry settings v s p) direct
      (direct.steps.finishedCount + 1) (beginRun registry settings v runId' projectId' payload) := by
  obtain ⟨hv, -⟩ := beginRun_yields run
  obtain ⟨whole, hwhole, hsim⟩ := whole_of_direct hsplits hreads hstop run ht hdirect
  have hcount : direct.steps.finishedCount = 1 + whole.finishedCount := by
    rw [hwhole, StepMap.finishedCount_append]
    rfl
  have hrequest : beginRun registry settings v runId' projectId' payload =
      walkFlow ⟨registry, settings, none⟩ v (triggered v runId' projectId' payload) := by
    unfold beginRun ifValid
    rw [hv]
  have hcut : Cut ⟨⟨registry, settings, none⟩, p.getD .empty, answers, asksIn answers v, kindsIn v⟩
      Place.top (triggered v runId projectId payload).steps whole false Place.top
      (triggered v runId' projectId' payload) (triggered v runId projectId payload).steps [] :=
    ⟨rfl, rfl, rfl, rfl, rfl, .nil whole, .inl rfl⟩
  unfold Completes
  rw [hrequest]
  refine ((hsim none).walkFlow_ends hreplies hcut).mono fun r ⟨s, hr, hcloses⟩ => ⟨s, hr, ?_⟩
  obtain ⟨kept, hs, -, ⟨hsucceeded, hend⟩ | ⟨hpaused, hpart⟩⟩ := hcloses
  · refine .inl ⟨hsucceeded, ?_⟩
    rw [hs, hwhole, StepMap.timeless_append, StepMap.timeless_append, hend]
  · refine .inr ⟨hpaused, ?_⟩
    exact (hsim p).completes hv hreplies rfl hwhole hpaused hs rfl hpart (by omega)

/-! ## An example

Two items are worked on side by side. Each has to be approved. -/

/-- A condition that holds. -/
def always : ConditionSet := ⟨[[⟨.bool true, .booleanIsTrue, .null, false⟩]], none⟩

/-- A flow that asks for each of two items; the answer would be noted otherwise. -/
def review : Version where
  id := "review"
  displayName := "Review"
  first := .trigger ⟨"start", "Start"⟩ .empty
  rest := [.loop ⟨"each", "Each"⟩ ⟨.arr [.str "a", .str "b"], true, none⟩
    [.action ⟨"ask", "Ask"⟩ ⟨.block "mail" "ask", .obj [], .none⟩,
      .branch ⟨"done", "Done"⟩ always []
        [.action ⟨"note", "Note"⟩
          ⟨.block "mail" "note", .str "\x7b\x7b ask.output \x7d\x7d", .none⟩]]]

/-- The actions of the flow are known. -/
def posting : Block.Registry := ⟨[⟨"mail", "ask", "Asks."⟩, ⟨"mail", "note", "Notes."⟩], false⟩

/-- Actions that ask for a pause and then answer. -/
def replier : Answers := fun _ _ _ payload =>
  match payload with
  | none => some (.ended (.ok .null) (some (.pause (.webhook "approve" .null))))
  | some _ => some (.ended (.ok (.str "yes")) none)

/-- A world in which actions answer at once. -/
def answering (answer : Block.Call → Option Block.Reply) :
    World Unit Time.Instant Block.Call Block.Reply where
  clock _ _ := ⟨⟨0, 0⟩, 0⟩
  reply _ _ c := ((), 0, (answer c).getD .crash)
  stretch _ nanos := ((), nanos)

/-- The records of an item. -/
def reviewedItem : StepMap :=
  [("ask", .action ⟨.succeeded, .obj [], none, some 0⟩ (.str "yes")),
    ("done", .branch ⟨.succeeded, (Json.obj always.members).canonical, none, some 0⟩ true)]

/-- The flow at its end, without a pause. -/
def reviewed : RunState where
  runId := "run"
  projectId := none
  entry := .begin
  verdict := .succeeded none
  steps := [("start", .action ⟨.succeeded, .obj [], none, none⟩ .null),
    ("each", .loop ⟨.succeeded, .obj [("items", .arr [.str "a", .str "b"])], none, some 0⟩
      (.str "b") 1 [reviewedItem, reviewedItem])]

/-- The world tells what the actions answer. -/
theorem answering_tells {answer : Block.Call → Option Block.Reply}
    (h : ∀ c, (answer c).isSome = true) :
    (answering answer).Tells fun e => e.reply = answer e.call := by
  intro _ now c limit
  obtain ⟨r, hr⟩ := Option.isSome_iff_exists.mp (h c)
  have hreply : ((answering answer).reply () now c).2 = (0, r) := by
    change (0, (answer c).getD .crash) = _
    rw [hr]
    rfl
  have hintime : withinLimit limit 0 r = (0, some r) := by
    unfold withinLimit
    split
    · rfl
    · exact if_pos (Nat.zero_le _)
  dsimp only
  rw [hreply, hintime, hr]

theorem review_runs : ∃ t, (replier.direct .empty).Explains t ∧
    (beginRun posting {} review "run" none .null).Runs t (.result (.ok reviewed)) := by
  have hanswers (c : Block.Call) : ((replier.direct .empty).reply c).isSome = true := by
    unfold Answers.reply
    cases c.request.payload <;> rfl
  have h : (start (answering (replier.direct .empty).reply) 0 (beginRun posting {} review "run" none .null)
      ()).1.result? = some (.ok reviewed) := by decide +kernel
  exact runs_of_start (answering_tells hanswers) 0 _ () h

/-- The output of an action can be read. -/
theorem reads_output {kinds : Kinds} {own name : String} (hown : name ≠ own)
    (hitem : name ≠ "item") (hindex : name ≠ "index")
    (hkind : ∀ type, kinds name type → type = .actionBlock ∨ type = .actionCode) (line : Nat) :
    Reads kinds own fun names => Expr.Term.eval names (.field (.name line name) "output") := by
  rintro scope scope' now now' hfits ⟨-, halike⟩
  have hlookup (scope : Template.Scope) (now : Time.Instant) :
      (scope.names now).lookup name = (scope.step? name).map Template.recordValue := by
    change scope.value? name = _
    unfold Template.Scope.value?
    split
    · exact absurd rfl hitem
    · exact absurd rfl hindex
    · rfl
  have hvalue : ((scope'.names now').value name).field? "output" =
      ((scope.names now).value name).field? "output" := by
    have halike := halike name hown
    unfold Expr.Names.value
    rw [hlookup, hlookup]
    cases hr : scope.step? name with
    | none =>
      rw [hr] at halike
      rw [Option.map_eq_none_iff.mp halike]
    | some r =>
      rw [hr] at halike
      obtain ⟨r', hr', heq⟩ := Option.map_eq_some_iff.mp halike
      rw [hr']
      have hfit := hfits.step? hr
      cases r with
      | action summary output =>
        cases r' with
        | action summary' output' =>
          injection heq with _ houtput
          have houtputOf (summary : Summary) (output : Json) :
              (Template.recordValue (.action summary output)).field? "output" =
                some (.ofJson output) := rfl
          change (Template.recordValue _).field? _ = (Template.recordValue _).field? _
          rw [houtputOf, houtputOf, houtput]
        | _ => cases heq
      | branch => exact absurd (hkind _ hfit) (by decide)
      | split => exact absurd (hkind _ hfit) (by decide)
      | loop => exact absurd (hkind _ hfit.1) (by decide)
  simp only [Expr.Term.eval, Except.bind, bind, hvalue]

/-- The templates of the flow look names up; one of them reads the output of an action. -/
theorem review_reads : ∀ step ∈ review.allSteps, ReadsNames (kindsIn review) step := by
  have hask (type : StepType) (h : kindsIn review "ask" type) :
      type = .actionBlock ∨ type = .actionCode := by
    obtain ⟨step, hstep, hname, rfl⟩ := h
    revert step
    decide
  have hnote (names : Expr.Names) :
      Template.resolve names (.str "\x7b\x7b ask.output \x7d\x7d") =
        ((Expr.Term.eval names (.field (.name 1 "ask") "output")).mapError
          (Template.Failure.ofLocated "ask.output")).map Expr.Value.toJson := rfl
  have hsteps : review.allSteps = [.trigger _ _, .loop _ _ _, .action _ _, .branch _ _ _ _,
    .action _ _] := rfl
  intro step hstep
  rw [hsteps] at hstep
  simp only [List.mem_cons, List.not_mem_nil, or_false] at hstep
  obtain rfl | rfl | rfl | rfl | rfl := hstep
  · trivial
  · exact fun _ _ _ _ _ _ => rfl
  · exact fun _ _ _ _ _ _ => rfl
  · exact ⟨fun _ _ _ _ _ _ => rfl, fun _ _ _ _ _ _ => rfl⟩
  · intro scope scope' now now' hfits halike
    have hown : "ask" ≠ "note" := by decide
    have hread := reads_output hown (by decide) (by decide) hask 1 scope scope' now now' hfits halike
    dsimp only at hread ⊢
    rw [hnote, hnote, hread]

theorem review_completes : ∃ t, (replier.direct .empty).Explains t ∧
    (beginRun posting {} review "run" none .null).Runs t (.result (.ok reviewed)) ∧
    Completes replier (fun s => resumeRun posting {} review s none) reviewed
      (reviewed.steps.finishedCount + 1) (beginRun posting {} review "run" none .null) := by
  obtain ⟨t, ht, run⟩ := review_runs
  refine ⟨t, ht, run, completes_as_direct (by decide) review_reads ?_ ?_ run ht rfl⟩
  · intro target source input payload
    cases payload <;> rfl
  · intro _ target source input payload
    cases payload <;> rfl

end FlowEngine.Engine
