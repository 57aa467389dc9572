import FlowEngine.Engine.Walk
import FlowEngine.Proofs.Schedule.Yields
import FlowEngine.Proofs.Walk.Spread

/-!
# What a walk does in a region

A walk that enters a region calls the actions that are not finished, resumes the one that waits and
no other, and keeps all records. It ends where the region is complete, or where another action
waits, the one that was called last.

* `Fits` — a call of a walk that entered a region at some stage.
* `Lands` — the records at the end of such a walk.
* `Follows` — all walks from some job are like that, with any schedule and any replies.
* `Follows.seq` — so they are when one region is walked after another.
-/

namespace FlowEngine.Engine

open FlowEngine.Run FlowEngine.Flow

/-- The calls of a run in their order. -/
abbrev Trace := List (Event Block.Call Block.Reply)

theorem isRunning_iff {v : Verdict} : v.isRunning = true ↔ v = .running := by
  cases v <;> simp [Verdict.isRunning]

/-- Where in a run an action is called. -/
def Event.place (e : Event Block.Call Block.Reply) : Position :=
  ⟨e.call.request.path, e.call.request.stepName⟩

/-- The last call at a position. -/
def lastAt? (p : Position) (t : Trace) : Option (Event Block.Call Block.Reply) :=
  (t.filter fun e => e.place = p).getLast?

theorem lastAt?_append_of_some {p : Position} {t t' : Trace} {e : Event Block.Call Block.Reply}
    (h : lastAt? p t' = some e) : lastAt? p (t ++ t') = some e := by
  unfold lastAt? at *
  rw [List.filter_append, List.getLast?_append, h]
  rfl

/-- A call in a region, at a position seen from the level of the region: it is not finished, and it
is resumed exactly if it is the one that waits. -/
structure Fits (setup : Setup) (R : Region) (around : List (String × Nat)) (q : Option Position)
    (m : StepMap) (p : Position) (e : Event Block.Call Block.Reply) : Prop where
  place : e.place = p.under around
  action : ∃ label a, Step.action label a ∈ R.steps ∧ label.name = p.name ∧
    e.call.target = targetOf a.work
  root : p.root ∈ R.names
  unfinished : ∀ r, m.at? p = some r → r.status.isFinished = false
  resumed : q = some p → e.call.request.entry = .resume ∧
    e.call.request.payload = some (setup.payload.getD .empty)
  begun : q ≠ some p → e.call.request.entry = .begin ∧ e.call.request.payload = none

/-- The action at a position failed, because its input could not be resolved. -/
def Unresolved (steps : List Step) (p : Position) (m : StepMap) : Prop :=
  ∃ label a e duration, Step.action label a ∈ steps ∧ label.name = p.name ∧
    (∃ (scope : Template.Scope) (now : Time.Instant),
      Template.resolve (scope.names now) a.input = .error (.error e)) ∧
    m.at? p = some ((failedRecord a.input
      (Block.Failure.invalidInput e.message).message).withDuration duration)

/-- The action at a position waits, as its last call asked for. -/
def Asked (around : List (String × Nat)) (p : Position) (pause : Pause) (t : Trace)
    (m : StepMap) : Prop :=
  ∃ summary output e, m.at? p = some (.action summary output) ∧
    lastAt? (p.under around) t = some e ∧
    e.reply = some (.ended (.ok output) (some (.pause pause))) ∧
    summary.input = e.call.request.props

/-- The end of a walk through a region. -/
structure Lands (R : Region) (around : List (String × Nat)) (q : Option Position) (m : StepMap)
    (t : Trace) (s : RunState) : Prop where
  frame : ∀ n, n ∉ R.names → s.steps.get? n = m.get? n
  tidy : s.steps.Tidy
  keeps : Keeps m s.steps
  complete : s.verdict = .running → R.complete s.steps
  paused : ∀ pause, s.verdict = .paused pause →
    ∃ p, R.stage (some p) s.steps ∧ Asked around p pause t s.steps
  reached : ∀ p, q = some p → (∃ e ∈ t, e.place = p.under around) ∨ Unresolved R.steps p s.steps

/-- Walks from a job are walks through a region. -/
structure Follows (setup : Setup) (R : Region) (w : Body) : Prop where
  rests : ∀ place s, s.verdict = .running → R.complete s.steps → w place s = Walk.ended s
  calls : ∀ place q s t o, s.verdict = .running → s.steps.Tidy → R.stage q s.steps →
    Job.Yields (w place s) t o → ∀ e ∈ t, ∃ p, Fits setup R place.path q s.steps p e
  lands : ∀ place q s t s', s.verdict = .running → s.steps.Tidy → R.stage q s.steps →
    Job.Yields (w place s) t (.result (.ok s')) → Lands R place.path q s.steps t s'

/-! ## Larger regions and earlier records -/

section

variable {setup : Setup} {R A : Region} {around : List (String × Nat)} {q : Option Position}
  {m m' : StepMap} {p : Position} {e : Event Block.Call Block.Reply} {t t' : Trace} {s : RunState}

theorem Fits.widen (h : Fits setup A around q m p e) (hs : A.steps ⊆ R.steps) :
    Fits setup R around q m p e where
  place := h.place
  action := by
    obtain ⟨label, a, hmem, hrest⟩ := h.action
    exact ⟨label, a, hs hmem, hrest⟩
  root := List.map_subset _ hs h.root
  unfinished := h.unfinished
  resumed := h.resumed
  begun := h.begun

/-- A call after the records were changed is one before that. -/
theorem Fits.earlier {q' : Option Position} (h : Fits setup R around q' m' p e) (hk : Keeps m m')
    (hq : q = some p ↔ q' = some p) : Fits setup R around q m p e where
  place := h.place
  action := h.action
  root := h.root
  unfinished r hr := by
    by_contra hf
    have hf : r.status.isFinished = true := by simpa using hf
    exact absurd (h.unfinished r (hk.finished hr hf)) (by simp [hf])
  resumed hp := h.resumed (hq.mp hp)
  begun hp := h.begun fun hp' => hp (hq.mpr hp')

theorem Unresolved.finished {steps steps' : List Step} (h : Unresolved steps p m)
    (hs : steps ⊆ steps')
    (hk : ∀ r, m.at? p = some r → r.status.isFinished = true → m'.at? p = some r) :
    Unresolved steps' p m' := by
  obtain ⟨label, a, e, duration, hmem, hname, hresolve, hat⟩ := h
  exact ⟨label, a, e, duration, hs hmem, hname, hresolve, hk _ hat rfl⟩

theorem Asked.append (h : Asked around p pause t' m) : Asked around p pause (t ++ t') m := by
  obtain ⟨summary, output, e, hat, hlast, hrest⟩ := h
  exact ⟨summary, output, e, hat, lastAt?_append_of_some hlast, hrest⟩

/-- The end of a walk that had nothing to do. -/
theorem Lands.rest (hv : s.verdict = .running) (ht : s.steps.Tidy) (hc : R.complete s.steps) :
    Lands R around none s.steps [] s where
  frame _ _ := rfl
  tidy := ht
  keeps := .refl _
  complete _ := hc
  paused _ h := by rw [hv] at h; cases h
  reached _ h := by cases h

/-- The end of a walk that fails at a step without a record. -/
theorem Lands.failed {name : String} (hname : name ∈ R.names) (hnone : s.steps.get? name = none)
    (ht : s.steps.Tidy) (input : Json) (message : String) : Lands R around none s.steps []
      ((s.upsert name (failedRecord input message)).withVerdict (.failed name message)) where
  frame n hn := StepMap.get?_insert_of_ne _ _ (by rintro rfl; exact hn hname)
  tidy := ht.insert _ (by rintro its k ⟨⟩)
  keeps := .insert _ _ fun r hr => by rw [hnone] at hr; cases hr
  complete h := by cases h
  paused _ h := by cases h
  reached _ h := by cases h

/-- The end of a walk through a part of a region that was entered before. -/
theorem Lands.of_part {q' : Option Position} (h : Lands A around q' m' t' s)
    (hs : A.steps ⊆ R.steps) (hk : Keeps m m')
    (frame : ∀ n, n ∉ R.names → m'.get? n = m.get? n)
    (complete : A.complete s.steps → R.complete s.steps)
    (stage : ∀ p, A.stage (some p) s.steps → R.stage (some p) s.steps)
    (reached : ∀ p, q = some p → (∃ e ∈ t, e.place = p.under around) ∨
      Unresolved R.steps p m' ∨ q' = some p) : Lands R around q m (t ++ t') s where
  frame n hn := by
    rw [h.frame n fun hm => hn (List.map_subset _ hs hm), frame n hn]
  tidy := h.tidy
  keeps := hk.trans h.keeps
  complete hv := complete (h.complete hv)
  paused pause hv := by
    obtain ⟨p, hp, ha⟩ := h.paused pause hv
    exact ⟨p, stage p hp, ha.append⟩
  reached p hp := by
    rcases reached p hp with ⟨e, he, hplace⟩ | hu | hq
    · exact .inl ⟨e, List.mem_append_left _ he, hplace⟩
    · exact .inr (hu.finished (List.Subset.refl _) fun r hr hf => h.keeps.finished hr hf)
    · rcases h.reached p hq with ⟨e, he, hplace⟩ | hu
      · exact .inl ⟨e, List.mem_append_right _ he, hplace⟩
      · exact .inr (hu.finished hs fun r hr _ => hr)

end

/-! ## No steps, and one region after another -/

section

variable {setup : Setup} {A B : Region} {wA wB : Body}

/-- A walk that ends with the state it has. -/
theorem Yields.of_ended {s s' : RunState} {t : Trace}
    (h : Job.Yields (Walk.ended s) t (.result (.ok s'))) : t = [] ∧ s' = s := by
  obtain ⟨rfl, ho | ho⟩ := Job.Yields.done_iff.mp h
  · cases ho
  · cases ho; exact ⟨rfl, rfl⟩

theorem Yields.of_crash {t : Trace} {o : Outcome Result} (h : Job.Yields (.crash : Walk) t o) :
    t = [] ∧ ∀ s', o ≠ .result (.ok s') := by
  obtain ⟨rfl, ho⟩ := Job.Yields.crash_iff.mp h
  exact ⟨rfl, fun s' hs' => by subst hs'; simp at ho⟩

/-- A walk that goes on with what a template gives, unless that is a crash. -/
theorem Yields.of_onTemplate {α : Type} {e : Except Template.Failure α}
    {next : Except Template.TemplateError α → Walk} {t : Trace} {o : Outcome Result}
    (h : Job.Yields (Walk.onTemplate e next) t o) :
    (t = [] ∧ ∀ s', o ≠ .result (.ok s')) ∨
      ∃ r, e = r.mapError .error ∧ Job.Yields (next r) t o := by
  rcases e with (e | _) | a
  · exact .inr ⟨.error e, rfl, h⟩
  · exact .inl (of_crash h)
  · exact .inr ⟨.ok a, rfl, h⟩

theorem Yields.ended_nil {s : RunState} {t : Trace} {o : Outcome Result}
    (h : Job.Yields (Walk.ended s) t o) : t = [] := (Job.Yields.done_iff.mp h).1

/-- A walk that goes on with the state of another one ends with it, or without its having a state. -/
theorem Yields.andThen_ends {w : Walk} {f : RunState → Walk} {t : Trace} {o : Outcome Result}
    (h : Job.Yields (w.andThen f) t o) :
    (∃ s t₁ t₂, t = t₁ ++ t₂ ∧ Job.Yields w t₁ (.result (.ok s)) ∧ Job.Yields (f s) t₂ o) ∨
      o = .pending ∨ (Job.Yields w t o ∧ ∀ s, o ≠ .result (.ok s)) := by
  rcases Job.Yields.of_bind h with ⟨e | s, t₁, t₂, rfl, h₁, h₂⟩ | ⟨h, ho⟩
  · obtain ⟨rfl, rfl | rfl⟩ := Job.Yields.done_iff.mp h₂
    · exact .inr (.inl rfl)
    · exact .inr (.inr ⟨by rwa [List.append_nil], by simp⟩)
  · exact .inl ⟨s, t₁, t₂, rfl, h₁, h₂⟩
  · exact .inr (.inr ⟨h, fun s => ho _⟩)

theorem Follows.nil (setup : Setup) : Follows setup Region.nil fun _ s => Walk.ended s where
  rests _ _ _ _ := rfl
  calls _ _ _ _ _ _ _ _ h e he := by
    rw [Yields.ended_nil h] at he
    cases he
  lands place q s t s' hv ht hq h := by
    obtain ⟨rfl, rfl⟩ := Yields.of_ended h
    obtain rfl : q = none := hq
    exact .rest hv ht trivial

/-- The walk of one region after another. -/
def afterwards (wA wB : Body) : Body := fun place s =>
  (wA place s).andThen fun s => if s.verdict.isRunning then wB place s else Walk.ended s

/-- What the second region is entered with. -/
theorem Follows.second (hA : Follows setup A wA) (hd : A.names.Disjoint B.names) {place : Place}
    {q : Option Position} {s s₁ : RunState} {t : Trace} (hv : s.verdict = .running)
    (ht : s.steps.Tidy) (hstage : (A.seq B).stage q s.steps)
    (h : Job.Yields (wA place s) t (.result (.ok s₁))) (hr : s₁.verdict = .running) :
    s₁.steps.Tidy ∧ A.complete s₁.steps ∧ Keeps s.steps s₁.steps ∧
      (∀ n, n ∉ A.names → s₁.steps.get? n = s.steps.get? n) ∧
      ∃ q', B.stage q' s₁.steps ∧ (∀ p, p.root ∈ B.names → (q = some p ↔ q' = some p)) ∧
        ∀ p, q = some p → (∃ e ∈ t, e.place = p.under place.path) ∨
          Unresolved (A.seq B).steps p s₁.steps ∨ q' = some p := by
  rcases hstage with ⟨hcomplete, hB⟩ | ⟨hstage, hfresh⟩
  · rw [hA.rests place s hv hcomplete] at h
    obtain ⟨rfl, rfl⟩ := Yields.of_ended h
    exact ⟨ht, hcomplete, .refl _, fun _ _ => rfl, q, hB, fun _ _ => Iff.rfl,
      fun p hp => .inr (.inr hp)⟩
  · have hl := hA.lands place q s t s₁ hv ht hstage h
    have hfresh : Fresh B.names s₁.steps := fun n hn => by
      rw [hl.frame n fun hn' => hd hn' hn]
      exact hfresh n hn
    refine ⟨hl.tidy, hl.complete hr, hl.keeps, hl.frame, none, B.stage_fresh hfresh, ?_, ?_⟩
    · refine fun p hp => ⟨fun hq => ?_, by simp⟩
      subst hq
      exact absurd hp (hd (A.root_mem hstage))
    · exact fun p hp => (hl.reached p hp).imp id fun hu =>
        .inl (hu.finished (List.subset_append_left _ _) fun r hr _ => hr)

/-- Where one region is walked after another, and each is followed, both together are. -/
theorem Follows.seq (hA : Follows setup A wA) (hB : Follows setup B wB)
    (hd : A.names.Disjoint B.names) : Follows setup (A.seq B) (afterwards wA wB) where
  rests place s hv hc := by
    unfold afterwards
    rw [hA.rests place s hv hc.1]
    change (if s.verdict.isRunning then wB place s else Walk.ended s) = _
    rw [hv, hB.rests place s hv hc.2]
    rfl
  calls place q s t o hv ht hstage h e he := by
    have first {t₁ : Trace} {o : Outcome Result} (h₁ : Job.Yields (wA place s) t₁ o) (he : e ∈ t₁) :
        ∃ p, Fits setup (A.seq B) place.path q s.steps p e := by
      rcases hstage with ⟨hcomplete, -⟩ | ⟨hstage, -⟩
      · rw [hA.rests place s hv hcomplete] at h₁
        rw [Yields.ended_nil h₁] at he
        cases he
      · obtain ⟨p, hp⟩ := hA.calls place q s t₁ _ hv ht hstage h₁ e he
        exact ⟨p, hp.widen (List.subset_append_left _ _)⟩
    rcases Job.Yields.of_andThen h with ⟨s₁, t₁, t₂, rfl, h₁, h₂⟩ | ⟨⟨o', h₁⟩, -⟩
    · rcases List.mem_append.mp he with he | he
      · exact first h₁ he
      · split_ifs at h₂ with hr
        · have hr := isRunning_iff.mp hr
          obtain ⟨ht₁, -, hk, -, q', hB', hq', -⟩ := hA.second hd hv ht hstage h₁ hr
          obtain ⟨p, hp⟩ := hB.calls place q' s₁ t₂ o hr ht₁ hB' h₂ e he
          exact ⟨p, (hp.earlier hk (hq' p hp.root)).widen (List.subset_append_right _ _)⟩
        · rw [Yields.ended_nil h₂] at he
          cases he
    · exact first h₁ he
  lands place q s t s' hv ht hstage h := by
    rcases Job.Yields.of_andThen h with ⟨s₁, t₁, t₂, rfl, h₁, h₂⟩ | ⟨-, ho⟩
    · split_ifs at h₂ with hr
      · have hr := isRunning_iff.mp hr
        obtain ⟨ht₁, hc, hk, hframe, q', hB', -, hreached⟩ := hA.second hd hv ht hstage h₁ hr
        have hl := hB.lands place q' s₁ t₂ s' hr ht₁ hB' h₂
        -- the second walk does not touch the records of the first region
        have hc' : A.complete s'.steps := A.complete_agree (fun n hn => hl.frame n (hd hn)) hc
        exact hl.of_part (List.subset_append_right _ _) hk
          (fun n hn => hframe n fun hn' => hn (List.map_subset _ (List.subset_append_left _ _) hn'))
          (fun h => ⟨hc', h⟩) (fun p h => .inl ⟨hc', h⟩) hreached
      · obtain ⟨rfl, rfl⟩ := Yields.of_ended h₂
        have hr : s'.verdict ≠ .running := fun hv => hr (isRunning_iff.mpr hv)
        rcases hstage with ⟨hcomplete, -⟩ | ⟨hstage, hfresh⟩
        · rw [hA.rests place s hv hcomplete] at h₁
          obtain ⟨rfl, rfl⟩ := Yields.of_ended h₁
          exact absurd hv hr
        · have hl := hA.lands place q s t₁ s' hv ht hstage h₁
          have hfresh : Fresh B.names s'.steps := fun n hn => by
            rw [hl.frame n fun hn' => hd hn' hn]
            exact hfresh n hn
          rw [List.append_nil]
          exact {
            frame := fun n hn => hl.frame n fun hn' =>
              hn (List.map_subset _ (List.subset_append_left _ _) hn')
            tidy := hl.tidy
            keeps := hl.keeps
            complete := fun hv => absurd hv hr
            paused := fun pause hv => by
              obtain ⟨p, hp, ha⟩ := hl.paused pause hv
              exact ⟨p, .inr ⟨hp, hfresh⟩, ha⟩
            reached := fun p hp => (hl.reached p hp).imp id fun hu =>
              hu.finished (List.subset_append_left _ _) fun r hr _ => hr }
    · exact absurd rfl (ho s')

end

end FlowEngine.Engine
