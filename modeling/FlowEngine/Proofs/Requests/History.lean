import FlowEngine.Engine.Run
import FlowEngine.Proofs.Flow.Validity
import FlowEngine.Proofs.Walk.Chain

/-!
# Requests to walk a flow

A flow is begun, and resumed while it is paused. The requests may come with different actions and
settings, every walk may be scheduled in any way, and every action may answer anything.

* `Returns` — the contexts that come of a flow, with all calls since it was begun.
* `Resumes` — the contexts that come of one of them.
* `WaitsAt` — a paused context, with the position of the action that waits.
* `Returns.waits` — every paused context is one, and the action asked for its pause in its last call.
-/

namespace FlowEngine.Engine

open FlowEngine.Run FlowEngine.Flow

/-- The contexts that come of a flow, with all calls since it was begun: from a begin, or from a
resume of a context that came of it before. -/
inductive Returns (v : Version) : Trace → RunState → Prop
  | begin {registry settings runId projectId payload t s}
    (run : (beginRun registry settings v runId projectId payload).Runs t (.result (.ok s))) :
    Returns v t s
  | resume {registry settings payload t s t' s'} (prior : Returns v t s)
    (run : (resumeRun registry settings v s payload).Runs t' (.result (.ok s'))) :
    Returns v (t ++ t') s'

/-- The contexts that come of a context when it is resumed any number of times, with the calls on
the way. -/
inductive Resumes (v : Version) (s : RunState) : Trace → RunState → Prop
  | refl : Resumes v s [] s
  | resume {registry settings payload t s' t' s''} (before : Resumes v s t s')
    (run : (resumeRun registry settings v s' payload).Runs t' (.result (.ok s''))) :
    Resumes v s (t ++ t') s''

theorem Returns.resumes {v : Version} {t t' : Trace} {s s' : RunState} (h : Returns v t s)
    (hr : Resumes v s t' s') : Returns v (t ++ t') s' := by
  induction hr with
  | refl => rwa [List.append_nil]
  | resume _ run ih => rw [← List.append_assoc]; exact .resume ih run

/-! ## Walks of flows -/

/-- The region of the chain after the trigger. -/
def flowRegion (v : Version) : Region := chainRegion v.rest

/-- The records that a walk of a flow may begin with. -/
structure EntersAt (v : Version) (q : Option Position) (m : StepMap) : Prop where
  tidy : m.Tidy
  names : ∀ n ∈ m.names, n = v.first.name ∨ n ∈ (flowRegion v).names
  trigger : ∀ r, m.get? v.first.name = some r → r.Quiet
  stage : (flowRegion v).stage q m

/-- A paused context: the action at a position waits, and no other. -/
structure WaitsAt (v : Version) (s : RunState) (p : Position) : Prop where
  paused : s.status = .paused
  enters : EntersAt v (some p) s.steps

variable {v : Version} {setup : Setup} {q : Option Position} {s s' : RunState} {t : Trace}
  {o : Outcome Result}

theorem flowRegion_steps_subset (h : validate v = []) : (flowRegion v).steps ⊆ v.allSteps := by
  rw [flowRegion, chainRegion_steps, allSteps_eq h]
  exact List.subset_cons_self _ _

theorem first_notMem (h : validate v = []) :
    v.first.name ∉ (flowRegion v).names ∧ (flowRegion v).names.Nodup := by
  have hnd := stepNames_nodup h
  rw [Version.stepNames, allSteps_eq h, List.map_cons, ← chainRegion_names] at hnd
  exact ⟨(List.nodup_cons.mp hnd).1, (List.nodup_cons.mp hnd).2⟩

theorem WaitsAt.resumed {p : Position} (h : WaitsAt v s p) : EntersAt v (some p) s.resumed.steps :=
  h.enters

/-- Of all records of a paused context, only those on the way to one action are paused. -/
theorem WaitsAt.pauseChain {p : Position} (h : WaitsAt v s p) :
    ∃ summary output, PauseChain s.steps p.loops p.name summary output := by
  obtain ⟨r, summary, output, hr, hc⟩ := (flowRegion v).paused h.enters.tidy h.enters.stage
  refine ⟨summary, output, .of_get? h.enters.tidy.nodup hr hc fun k r' hne hk => ?_⟩
  rcases h.enters.names k (StepMap.mem_names_iff.mpr ⟨r', hk⟩) with rfl | hmem
  · exact h.enters.trigger r' hk
  · exact (flowRegion v).quiet h.enters.tidy h.enters.stage k hmem (by rintro _ ⟨⟩; exact hne) r' hk

/-- The calls of a walk of a flow. -/
theorem walkFlow_calls (hv : validate v = []) (hr : s.verdict = .running)
    (he : EntersAt v q s.steps) (h : Job.Yields (walkFlow setup v s) t o) :
    ∀ e ∈ t, Fits setup (flowRegion v) [] q s.steps e.place e := by
  have hf := walk_follows setup v.rest (first_notMem hv).2
  have calls {t : Trace} {o : Outcome Result}
      (h : Job.Yields (walk setup v.rest Place.top s) t o) (e : Event Block.Call Block.Reply)
      (hmem : e ∈ t) : Fits setup (flowRegion v) [] q s.steps e.place e := by
    obtain ⟨p, hp⟩ := hf.calls Place.top q s t o hr he.tidy he.stage h e hmem
    rwa [hp.place]
  rcases Job.Yields.of_andThen h with ⟨s₁, t₁, t₂, rfl, h₁, h₂⟩ | ⟨⟨o', h₁⟩, -⟩
  · rw [Yields.ended_nil h₂, List.append_nil]
    exact calls h₁
  · exact calls h₁

/-- A walk of a flow leaves records of its steps only. -/
theorem Lands.names {m : StepMap} {name : String} {around : List (String × Nat)} {R : Region}
    (h : Lands R around q m t s) (hm : ∀ n ∈ m.names, n = name ∨ n ∈ R.names) :
    ∀ n ∈ s.steps.names, n = name ∨ n ∈ R.names := by
  intro n hn
  by_contra hnot
  rw [not_or] at hnot
  obtain ⟨r, hget⟩ := StepMap.mem_names_iff.mp hn
  rw [h.frame n hnot.2] at hget
  exact (hm n (StepMap.mem_names_iff.mpr ⟨r, hget⟩)).elim hnot.1 hnot.2

/-- Closing a run leaves the records as they are. -/
theorem closeRun_steps (s : RunState) : (closeRun s).steps = s.steps := by
  unfold closeRun
  split_ifs <;> rfl

/-- The context at the end of a walk of a flow. -/
theorem walkFlow_lands (hv : validate v = []) (hr : s.verdict = .running)
    (he : EntersAt v q s.steps) (h : Job.Yields (walkFlow setup v s) t (.result (.ok s'))) :
    Keeps s.steps s'.steps ∧
      (∀ pause, s'.verdict = .paused pause → ∃ p, WaitsAt v s' p ∧ Asked [] p pause t s'.steps) ∧
      ∀ p, q = some p → (∃ e ∈ t, e.place = p) ∨ Unresolved v.allSteps p s'.steps := by
  obtain ⟨hfirst, hnd⟩ := first_notMem hv
  rcases Job.Yields.of_andThen h with ⟨s₁, t₁, t₂, rfl, h₁, h₂⟩ | ⟨-, ho⟩
  · obtain ⟨rfl, rfl⟩ := Yields.of_ended h₂
    have hl := (walk_follows setup v.rest hnd).lands Place.top q s t₁ s₁ hr he.tidy he.stage h₁
    rw [List.append_nil, closeRun_steps]
    refine ⟨hl.keeps, fun pause hp => ?_, fun p hp => (hl.reached p hp).imp id fun hu => ?_⟩
    · have hclose : closeRun s₁ = s₁ := by
        unfold closeRun at hp ⊢
        split_ifs at hp ⊢
        · cases hp
        · rfl
      rw [hclose] at hp ⊢
      obtain ⟨p, hstage, hasked⟩ := hl.paused pause hp
      refine ⟨p, ⟨by rw [RunState.status, hp]; rfl, hl.tidy, hl.names he.names, fun r hget => ?_,
        hstage⟩, hasked⟩
      rw [hl.frame _ hfirst] at hget
      exact he.trigger r hget
    · exact hu.finished (flowRegion_steps_subset hv) fun r hr _ => hr
  · exact absurd rfl (ho s')

/-! ## Requests -/

/-- Before a flow is walked, none of its steps but the trigger has a record. -/
theorem triggered_fresh (hv : validate v = []) (runId : String) (projectId : Option String)
    (payload : Json) {n : String} (hn : n ∈ (flowRegion v).names) :
    (triggered v runId projectId payload).steps.get? n = none := by
  have hne : v.first.name ≠ n := fun h => (first_notMem hv).1 (h ▸ hn)
  change StepMap.get? [(v.first.name, _)] n = none
  rw [StepMap.get?_cons, if_neg hne]
  rfl

theorem triggered_enters (hv : validate v = []) (runId : String) (projectId : Option String)
    (payload : Json) : EntersAt v none (triggered v runId projectId payload).steps := by
  have hsteps : (triggered v runId projectId payload).steps =
    [(v.first.name, .action ⟨.succeeded, triggerInput v.first, none, none⟩ payload)] := rfl
  rw [hsteps]
  refine ⟨.insert StepMap.tidy_nil v.first.name (by rintro its k ⟨⟩), ?_, ?_, ?_⟩
  · intro n hn
    exact .inl (List.mem_singleton.mp hn)
  · intro r hr
    rw [StepMap.get?_cons, if_pos rfl] at hr
    cases hr
    rfl
  · exact (flowRegion v).stage_fresh fun n hn => triggered_fresh hv runId projectId payload hn

theorem beginRun_yields {registry : Block.Registry} {settings : Config.Settings} {runId : String}
    {projectId : Option String} {payload : Json}
    (h : (beginRun registry settings v runId projectId payload).Runs t (.result (.ok s))) :
    validate v = [] ∧ Job.Yields (walkFlow ⟨registry, settings, none⟩ v
      (triggered v runId projectId payload)) t (.result (.ok s)) := by
  have h := h.yields
  unfold beginRun ifValid at h
  split at h
  · exact ⟨‹_›, h⟩
  · obtain ⟨-, ho | ho⟩ := Job.Yields.done_iff.mp h <;> cases ho

/-- A request to resume a context walks the flow from it, or it makes no calls and no context comes
of it. -/
theorem resumeRun_yields {registry : Block.Registry} {settings : Config.Settings}
    {payload : Option ResumePayload} (h : (resumeRun registry settings v s payload).Runs t o) :
    (t = [] ∧ ∀ s', o ≠ .result (.ok s')) ∨ (validate v = [] ∧ s.status = .paused ∧
      Job.Yields (walkFlow ⟨registry, settings, payload⟩ v s.resumed) t o) := by
  have h := h.yields
  have error {e : Fault} {t : Trace} (h : Job.Yields (.done (.error e) : Walk) t o) :
      t = [] ∧ ∀ s', o ≠ .result (.ok s') := by
    obtain ⟨rfl, rfl | rfl⟩ := Job.Yields.done_iff.mp h <;> exact ⟨rfl, by simp⟩
  unfold resumeRun ifValid at h
  split at h
  · split_ifs at h with hp
    · exact .inr ⟨‹_›, hp, h⟩
    · exact .inl (error h)
  · exact .inl (error h)

/-- A context that comes of a flow and is paused waits for one action, and the last call of that
action asked for it. -/
theorem Returns.waits (h : Returns v t s) {pause : Pause} (hp : s.verdict = .paused pause) :
    validate v = [] ∧ ∃ p, WaitsAt v s p ∧ Asked [] p pause t s.steps := by
  induction h generalizing pause with
  | begin run =>
    obtain ⟨hv, hy⟩ := beginRun_yields run
    exact ⟨hv, (walkFlow_lands hv rfl (triggered_enters hv _ _ _) hy).2.1 pause hp⟩
  | @resume registry settings payload t s t' s' _ run ih =>
    obtain ⟨-, ho⟩ | ⟨hv, hpaused, hy⟩ := resumeRun_yields run
    · exact absurd rfl (ho s')
    · obtain ⟨pause', hp'⟩ := status_paused_iff.mp hpaused
      obtain ⟨-, p, hw, -⟩ := ih hp'
      obtain ⟨p', hw', hasked⟩ := (walkFlow_lands hv rfl hw.resumed hy).2.1 pause hp
      exact ⟨hv, p', hw', hasked.append⟩

end FlowEngine.Engine
