import FlowEngine.Proofs.Walk.Follows

/-!
# Walking an action

All attempts make the same call. The last one decides which record the action gets.

* `ActionEnds` — the states at the end of an action that was called.
* `attempts_yields` — the attempts end with one of them, as the last reply tells.
* `Follows.action` — the walk of an action.
-/

namespace FlowEngine.Engine

open FlowEngine.Run FlowEngine.Flow

variable {setup : Setup} {s s' : RunState} {t : Trace} {o : Outcome Result}

/-! ## The end of an action -/

/-- The state after an action that failed. -/
def failedState (s : RunState) (name : String) (e : ErrorHandling) (input : Json)
    (failure : Block.Failure) (duration : Nat) : RunState :=
  let r := (failedRecord input failure.message).withDuration duration
  if e.continues then s.upsert name r
  else (s.upsert name r).withVerdict (.failed name failure.message)

/-- The record of an action that was called and did not fail. -/
def calledRecord (i : Invocation) (status : StepStatus) (output : Json) (duration : Nat) :
    StepRecord :=
  .action ⟨status, i.input, none, some duration⟩ output

theorem failStep_yields {name : String} {e : ErrorHandling} {started : Reading Time.Instant}
    {input : Json} {failure : Block.Failure}
    (h : Job.Yields (failStep s name e started input failure) t o) :
    t = [] ∧ (o = .pending ∨
      ∃ duration, o = .result (.ok (failedState s name e input failure duration))) := by
  rcases Job.Yields.of_clock h with ⟨rfl, rfl⟩ | ⟨reading, h⟩
  · exact ⟨rfl, .inl rfl⟩
  · unfold failedState
    dsimp only at h
    split_ifs at h ⊢
    all_goals
      obtain ⟨rfl, ho⟩ := Job.Yields.done_iff.mp h
      exact ⟨rfl, ho.imp id fun ho => ⟨_, ho⟩⟩

/-- The state after an action that was called, given its output and what it asked for. -/
def endedState (s : RunState) (i : Invocation) (output : Json) (duration : Nat) :
    Option Block.Hook → RunState
  | none => s.upsert i.name (calledRecord i .succeeded output duration)
  | some (.pause pause) =>
    (s.upsert i.name (calledRecord i .paused output duration)).withVerdict (.paused pause)
  | some (.stop response) =>
    (s.upsert i.name (calledRecord i .succeeded output duration)).withVerdict
      (.succeeded (some response))

theorem completeStep_yields {i : Invocation} {output : Json} {hook : Option Block.Hook}
    (h : Job.Yields (completeStep s i output hook) t o) :
    t = [] ∧ (o = .pending ∨
      ∃ duration, o = .result (.ok (endedState s i output duration hook))) := by
  rcases Job.Yields.of_clock h with ⟨rfl, rfl⟩ | ⟨reading, h⟩
  · exact ⟨rfl, .inl rfl⟩
  · obtain ⟨rfl, ho⟩ := Job.Yields.done_iff.mp h
    refine ⟨rfl, ho.imp id fun ho => ⟨elapsed i.started reading, ho.trans ?_⟩⟩
    rcases hook with _ | pause | response <;> rfl

/-- The state at the end of an action, given its last reply. -/
inductive ActionEnds (s : RunState) (i : Invocation) : Option Block.Reply → RunState → Prop
  | failed {reply} (failure : Block.Failure) (duration : Nat) :
    ActionEnds s i reply (failedState s i.name i.errorHandling i.input failure duration)
  | ended (output : Json) (duration : Nat) (hook : Option Block.Hook) :
    ActionEnds s i (some (.ended (.ok output) hook)) (endedState s i output duration hook)

/-! ## Attempts -/

/-- What follows a reply, when what follows each kind of it is known. -/
theorem onReply_yields {limit : Option Nat} {reply : Option Block.Reply}
    {failed : Block.Failure → Walk} {succeeded : Json → Option Block.Hook → Walk} {P : Prop}
    (h : Job.Yields (onReply limit reply failed succeeded) t o)
    (hc : t = [] → (∀ s', o ≠ .result (.ok s')) → P)
    (hf : ∀ failure, Job.Yields (failed failure) t o → P)
    (hs : ∀ output hook, reply = some (.ended (.ok output) hook) →
      Job.Yields (succeeded output hook) t o → P) : P := by
  rcases reply with _ | _ | ⟨failure | output, hook⟩
  · exact hf _ h
  · exact hc (Yields.of_crash h).1 (Yields.of_crash h).2
  · exact hf _ h
  · exact hs output hook rfl h

/-- All attempts make the same call, and the last reply decides. -/
theorem attempts_yields {i : Invocation} {left : Nat}
    (h : Job.Yields (attempts setup s i left) t o) :
    (∀ e ∈ t, e.call = i.call) ∧ ∀ s', o = .result (.ok s') →
      ∃ e, t.getLast? = some e ∧ ActionEnds s i e.reply s' := by
  have failed {reply : Option Block.Reply} {failure : Block.Failure} {t : Trace}
      (h : Job.Yields (failStep s i.name i.errorHandling i.started i.input failure) t o) :
      (∀ e ∈ (⟨i.call, reply⟩ :: t : Trace), e.call = i.call) ∧ ∀ s', o = .result (.ok s') →
        ∃ e, (⟨i.call, reply⟩ :: t : Trace).getLast? = some e ∧ ActionEnds s i e.reply s' := by
    obtain ⟨rfl, ho⟩ := failStep_yields h
    refine ⟨by simp, ?_⟩
    rintro s' rfl
    obtain ho | ⟨duration, ho⟩ := ho <;> cases ho
    exact ⟨_, rfl, .failed failure duration⟩
  have succeeded {reply : Option Block.Reply} {output : Json} {hook : Option Block.Hook} {t : Trace}
      (hr : reply = some (.ended (.ok output) hook))
      (h : Job.Yields (completeStep s i output hook) t o) :
      (∀ e ∈ (⟨i.call, reply⟩ :: t : Trace), e.call = i.call) ∧ ∀ s', o = .result (.ok s') →
        ∃ e, (⟨i.call, reply⟩ :: t : Trace).getLast? = some e ∧ ActionEnds s i e.reply s' := by
    obtain ⟨rfl, ho⟩ := completeStep_yields h
    refine ⟨by simp, ?_⟩
    rintro s' rfl
    obtain ho | ⟨duration, ho⟩ := ho <;> cases ho
    exact ⟨_, rfl, hr ▸ .ended output duration hook⟩
  induction left generalizing t with
  | zero =>
    cases h with
    | pending => exact ⟨by simp, by simp⟩
    | call reply late rest =>
      refine onReply_yields rest ?_ (fun _ h => failed h) fun _ _ hr h => succeeded hr h
      rintro rfl ho
      exact ⟨by simp, fun s' hs' => absurd hs' (ho s')⟩
  | succ left ih =>
    cases h with
    | pending => exact ⟨by simp, by simp⟩
    | call reply late rest =>
      refine onReply_yields rest ?_ (fun failure h => ?_) fun _ _ hr h => succeeded hr h
      · rintro rfl ho
        exact ⟨by simp, fun s' hs' => absurd hs' (ho s')⟩
      · split at h
        · cases h with
          | pending => exact ⟨by simp, by simp⟩
          | sleep rest =>
            obtain ⟨hcalls, hends⟩ := ih rest
            refine ⟨by simpa using hcalls, fun s' hs' => ?_⟩
            obtain ⟨e, hlast, he⟩ := hends s' hs'
            exact ⟨e, by rw [List.getLast?_cons, hlast]; rfl, he⟩
        · obtain ⟨rfl, ho⟩ := Yields.of_crash h
          exact ⟨by simp, fun s' hs' => absurd hs' (ho s')⟩
        · exact failed h

/-! ## The walk -/

/-- The ways in which the walk of an action that is not finished goes: it makes no calls and there
is no state at the end, its input is not resolved, or the action is called. -/
theorem runAction_yields {place : Place} {name : String} {a : Flow.Action}
    (hn : ∀ r, s.steps.get? name = some r → r.status.isFinished = false)
    (h : Job.Yields (runAction setup place name a s) t o) :
    (t = [] ∧ ∀ s', o ≠ .result (.ok s')) ∨
      (t = [] ∧ ∃ now e duration, Template.resolve (place.names s now) a.input = .error (.error e) ∧
        o = .result (.ok (failedState s name a.errorHandling a.input
          (.invalidInput e.message) duration))) ∨
      ∃ input started, (∀ e ∈ t, e.call =
          ⟨targetOf a.work, requestOf setup place.path s name a.work input⟩) ∧
        ∀ s', o = .result (.ok s') → ∃ e, t.getLast? = some e ∧
          ActionEnds s ⟨name, ⟨targetOf a.work, requestOf setup place.path s name a.work input⟩,
            a.errorHandling, started⟩ e.reply s' := by
  unfold runAction at h
  rw [if_neg (by
    rw [Option.any_eq_true]
    rintro ⟨r, hr, hf⟩
    rw [hn r hr] at hf
    cases hf)] at h
  split_ifs at h
  · obtain ⟨rfl, ho⟩ := Job.Yields.done_iff.mp h
    exact .inl ⟨rfl, fun s' hs' => by subst hs'; simp at ho⟩
  · rcases Job.Yields.of_clock h with ⟨rfl, rfl⟩ | ⟨started, h⟩
    · exact .inl ⟨rfl, by simp⟩
    rcases Yields.of_onTemplate h with h | ⟨e | input, hr, h⟩
    · exact .inl h
    · obtain ⟨rfl, rfl | ⟨duration, rfl⟩⟩ := failStep_yields h
      · exact .inl ⟨rfl, by simp⟩
      · exact .inr (.inl ⟨rfl, started.now, e, duration, hr, rfl⟩)
    · exact .inr (.inr ⟨input, started, attempts_yields h⟩)

/-- What the call of an action shows of the step, and of how it is entered. -/
theorem requestOf_entry (setup : Setup) (path : List (String × Nat)) (s : RunState) (name : String)
    (work : Work) (input : Json) :
    let r := requestOf setup path s name work input
    let waits := (s.steps.get? name).any fun r => r.status == .paused
    r.stepName = name ∧ r.path = path ∧ r.entry = (if waits then .resume else .begin) ∧
      r.payload = if waits then some (setup.payload.getD .empty) else none :=
  ⟨rfl, rfl, rfl, rfl⟩

/-- The records after an action are those before with one that is new or took the place of a paused
one. -/
theorem ActionEnds.state {i : Invocation} {reply : Option Block.Reply}
    (h : ActionEnds s i reply s') : ∃ summary output,
      s'.steps = s.steps.insert i.name (.action summary output) ∧
      (s'.verdict = .running → s.verdict = .running → summary.status.isFinished = true) ∧
      ∀ pause, s'.verdict = .paused pause → s.verdict = .running → summary.status = .paused ∧
        summary.input = i.input ∧ reply = some (.ended (.ok output) (some (.pause pause))) := by
  cases h with
  | failed failure duration =>
    unfold failedState
    dsimp only
    split_ifs
    · exact ⟨_, _, rfl, fun _ _ => rfl, fun _ h h' => by
        rw [show s.verdict = _ from h] at h'; cases h'⟩
    · exact ⟨_, _, rfl, fun _ _ => rfl, fun _ h => by cases h⟩
  | ended output duration hook =>
    rcases hook with _ | pause | response
    · exact ⟨_, _, rfl, fun _ _ => rfl, fun _ h h' => by
        rw [show s.verdict = _ from h] at h'; cases h'⟩
    · exact ⟨_, output, rfl, fun h => (by cases h), fun p h _ => by cases h; exact ⟨rfl, rfl, rfl⟩⟩
    · exact ⟨_, _, rfl, fun _ _ => rfl, fun _ h => by cases h⟩

theorem failedState_steps (s : RunState) (name : String) (e : ErrorHandling) (input : Json)
    (failure : Block.Failure) (duration : Nat) :
    (failedState s name e input failure duration).steps = s.steps.insert name
      ((failedRecord input failure.message).withDuration duration) := by
  unfold failedState
  dsimp only
  split_ifs <;> rfl

theorem failedState_verdict (s : RunState) (name : String) (e : ErrorHandling) (input : Json)
    (failure : Block.Failure) (duration : Nat) :
    (failedState s name e input failure duration).verdict = s.verdict ∨
      (failedState s name e input failure duration).verdict = .failed name failure.message := by
  unfold failedState
  dsimp only
  split_ifs
  · exact .inl rfl
  · exact .inr rfl

/-- A record of an action may take the place of that of an action that waits. -/
theorem keeps_insert_action {n : String} {m : StepMap} {summary : Summary} {output : Json}
    (h : m.get? n = none ∨ Region.ActionWaits n m) :
    Keeps m (m.insert n (.action summary output)) := by
  refine .insert m n fun r hr => ?_
  rcases h with h | ⟨sm, out, h, hs⟩
  · rw [h] at hr; cases hr
  · rw [h] at hr
    cases hr
    refine ⟨⟨fun hf => ?_, fun _ h => (by cases h), fun _ h => (by cases h), fun hw => ?_⟩,
      fun _ _ _ h => (by cases h)⟩
    · have hf : sm.status.isFinished = true := hf
      rw [hs] at hf
      cases hf
    · exact absurd (if_pos hs) hw

/-- An action that is not finished waits exactly if the stage says so. -/
theorem waits_of_stage {label : Label} {a : Flow.Action} {q : Option Position} {m : StepMap}
    (h : (Region.action (.action label a)).stage q m) (hd : ¬ Region.ActionDone label.name m) :
    (q = none ∧ m.get? label.name = none) ∨
      (q = some ⟨[], label.name⟩ ∧ Region.ActionWaits label.name m) := by
  cases q with
  | none => exact .inl ⟨rfl, h.resolve_right hd⟩
  | some p =>
    obtain ⟨rfl, h⟩ := h
    exact .inr ⟨rfl, h⟩

theorem unfinished_of_waits {n : String} {q : Option Position} {m : StepMap}
    (h : (q = none ∧ m.get? n = none) ∨ (q = some ⟨[], n⟩ ∧ Region.ActionWaits n m)) :
    ∀ r, m.get? n = some r → r.status.isFinished = false := by
  intro r hr
  rcases h with ⟨-, h⟩ | ⟨-, summary, output, h, hs⟩
  · rw [h] at hr; cases hr
  · rw [h] at hr
    cases hr
    change summary.status.isFinished = false
    rw [hs]
    rfl

theorem none_of_done {label : Label} {a : Flow.Action} {q : Option Position} {m : StepMap}
    (h : (Region.action (.action label a)).stage q m) (hd : Region.ActionDone label.name m) :
    q = none := by
  cases q with
  | none => rfl
  | some p =>
    obtain ⟨sm, out, hr, hf⟩ := hd
    obtain ⟨-, sm', out', hr', hs⟩ := h
    have hr' : m.get? label.name = some (.action sm' out') := hr'
    rw [hr'] at hr
    cases hr
    rw [hs] at hf
    cases hf

/-- A walk of an action that is finished ends at once. -/
theorem runAction_rests {place : Place} {name : String} {a : Flow.Action} {r : StepRecord}
    (hr : s.steps.get? name = some r) (hf : r.status.isFinished = true) :
    runAction setup place name a s = Walk.ended s := by
  unfold runAction
  rw [hr]
  exact if_pos hf

theorem runAction_done {place : Place} {name : String} {a : Flow.Action}
    (h : Region.ActionDone name s.steps) : runAction setup place name a s = Walk.ended s := by
  obtain ⟨summary, output, hr, hf⟩ := h
  exact runAction_rests hr hf

theorem mem_action_names (label : Label) (a : Flow.Action) :
    label.name ∈ (Region.action (.action label a)).names := by
  simp [Region.names, Region.action, Step.name, Step.label]

/-- A call of an action is one in its region: it is resumed exactly if the action waits. -/
theorem fits_of_call {place : Place} {label : Label} {a : Flow.Action} {q : Option Position}
    {input : Json} {e : Event Block.Call Block.Reply}
    (hwaits : (q = none ∧ s.steps.get? label.name = none) ∨
      (q = some ⟨[], label.name⟩ ∧ Region.ActionWaits label.name s.steps))
    (hcall : e.call = ⟨targetOf a.work, requestOf setup place.path s label.name a.work input⟩) :
    Fits setup (Region.action (.action label a)) place.path q s.steps ⟨[], label.name⟩ e := by
  obtain ⟨hname, hpath, hentry, hpayload⟩ :=
    requestOf_entry setup place.path s label.name a.work input
  refine ⟨?_, ⟨label, a, by simp [Region.action], rfl, by rw [hcall]⟩, mem_action_names label a,
    unfinished_of_waits hwaits, ?_, ?_⟩
  · simp [Event.place, hcall, Position.under, hname, hpath]
  · rintro rfl
    rcases hwaits with ⟨hq, -⟩ | ⟨-, summary, output, hr, hs⟩
    · cases hq
    · rw [hcall, hentry, hpayload, hr]
      simp [StepRecord.status, StepRecord.summary, hs]
  · intro hq
    rcases hwaits with ⟨-, hr⟩ | ⟨hq', -⟩
    · rw [hcall, hentry, hpayload, hr]
      simp
    · exact absurd hq' hq

/-- The end of a walk that puts the record of an action. -/
theorem Lands.action {label : Label} {a : Flow.Action} {around : List (String × Nat)}
    {q : Option Position} {summary : Summary} {output : Json} (ht : s.steps.Tidy)
    (hwaits : (q = none ∧ s.steps.get? label.name = none) ∨
      (q = some ⟨[], label.name⟩ ∧ Region.ActionWaits label.name s.steps))
    (hsteps : s'.steps = s.steps.insert label.name (.action summary output))
    (complete : s'.verdict = .running → summary.status.isFinished = true)
    (paused : ∀ pause, s'.verdict = .paused pause →
      summary.status = .paused ∧ Asked around ⟨[], label.name⟩ pause t s'.steps)
    (reached : q = some ⟨[], label.name⟩ →
      (∃ e ∈ t, e.place = Position.under around ⟨[], label.name⟩) ∨
        Unresolved (Region.action (.action label a)).steps ⟨[], label.name⟩ s'.steps) :
    Lands (Region.action (.action label a)) around q s.steps t s' := by
  have hget : s'.steps.get? label.name = some (.action summary output) := by
    rw [hsteps]
    exact StepMap.get?_insert_self _ _ _
  refine ⟨fun n hn => ?_, ?_, ?_, fun hv => ⟨summary, output, hget, complete hv⟩,
    fun pause hp => ?_, fun p hp => ?_⟩
  · rw [hsteps]
    exact StepMap.get?_insert_of_ne _ _ (by rintro rfl; exact hn (mem_action_names label a))
  · rw [hsteps]
    exact ht.insert _ (by rintro its k ⟨⟩)
  · rw [hsteps]
    exact keeps_insert_action (hwaits.imp And.right And.right)
  · obtain ⟨hs, hasked⟩ := paused pause hp
    exact ⟨⟨[], label.name⟩, ⟨rfl, summary, output, hget, hs⟩, hasked⟩
  · rcases hwaits with ⟨hq, -⟩ | ⟨hq, -⟩ <;> rw [hq] at hp <;> cases hp
    exact reached hq

/-- An action is walked as a region of its own. -/
theorem Follows.action (setup : Setup) (label : Label) (a : Flow.Action) :
    Follows setup (Region.action (.action label a))
      fun place s => runAction setup place label.name a s where
  rests place s _ hc := runAction_done hc
  calls place q s t o hv ht hstage h e he := by
    by_cases hdone : Region.ActionDone label.name s.steps
    · rw [runAction_done hdone] at h
      rw [Yields.ended_nil h] at he
      cases he
    have hwaits := waits_of_stage hstage hdone
    rcases runAction_yields (unfinished_of_waits hwaits) h with
      ⟨rfl, -⟩ | ⟨rfl, -⟩ | ⟨input, started, hcalls, -⟩
    · cases he
    · cases he
    · exact ⟨_, fits_of_call hwaits (hcalls e he)⟩
  lands place q s t s' hv ht hstage h := by
    by_cases hdone : Region.ActionDone label.name s.steps
    · rw [runAction_done hdone] at h
      obtain ⟨rfl, rfl⟩ := Yields.of_ended h
      obtain rfl := none_of_done hstage hdone
      exact .rest hv ht hdone
    have hwaits := waits_of_stage hstage hdone
    rcases runAction_yields (unfinished_of_waits hwaits) h with
      ⟨-, ho⟩ | ⟨rfl, now, e, duration, hresolve, ho⟩ | ⟨input, started, hcalls, hends⟩
    · exact absurd rfl (ho s')
    · obtain rfl : s' = _ := by simpa using ho
      have hsteps := failedState_steps s label.name a.errorHandling a.input (.invalidInput e.message)
        duration
      refine .action ht hwaits hsteps (fun _ => rfl) (fun pause hp => ?_) fun _ => .inr ?_
      · rcases failedState_verdict s label.name a.errorHandling a.input (.invalidInput e.message)
          duration with hv' | hv' <;> rw [hv'] at hp
        · rw [hv] at hp; cases hp
        · cases hp
      · refine ⟨label, a, e, duration, by simp [Region.action], rfl, ⟨place.scope s, now, hresolve⟩, ?_⟩
        rw [StepMap.at?_nil, hsteps]
        exact StepMap.get?_insert_self _ _ _
    · obtain ⟨e, hlast, hend⟩ := hends s' rfl
      obtain ⟨summary, output, hsteps, hrun, hpause⟩ := hend.state
      have he := List.mem_of_getLast? hlast
      -- all calls are made at the place of the action
      have hat (e : Event Block.Call Block.Reply) (he : e ∈ t) :
          e.place = Position.under place.path ⟨[], label.name⟩ :=
        (fits_of_call hwaits (hcalls e he)).place
      refine .action ht hwaits hsteps (fun hv' => hrun hv' hv) (fun pause hp => ?_)
        fun _ => .inl ⟨e, he, hat e he⟩
      obtain ⟨hs, hinput, hreply⟩ := hpause pause hp hv
      refine ⟨hs, summary, output, e, ?_, ?_, hreply, ?_⟩
      · rw [StepMap.at?_nil, hsteps]
        exact StepMap.get?_insert_self _ _ _
      · rw [lastAt?, List.filter_eq_self.mpr fun e he => by simp [hat e he], hlast]
      · rw [hinput, hcalls e he]
        rfl

end FlowEngine.Engine
