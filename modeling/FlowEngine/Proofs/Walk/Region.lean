import FlowEngine.Proofs.Records.Position

/-!
# How far a run is in a part of a flow

A region is a part of a flow together with two properties of the records of a run: that nothing is
left to do in it, and that a walk may enter it — with one action in it that waits, or with none.
Both depend on the records of its own steps only.

* `Region` — parts of flows with these properties.
* `Region.nil`, `Region.action`, `Region.seq`, `Region.branch` — the regions of the shapes of steps
  that are walked once.
* `Region.withdrawn_stage` — where an action waits, no one waits any more after a withdrawal.
-/

namespace FlowEngine.Engine

open FlowEngine.Run FlowEngine.Flow

/-! ## Records of some names -/

/-- No step of some names has a record. -/
def Fresh (names : List String) (m : StepMap) : Prop := ∀ n ∈ names, m.get? n = none

/-- Two maps show the same records of some names. -/
def Agree (names : List String) (m m' : StepMap) : Prop := ∀ n ∈ names, m'.get? n = m.get? n

/-- The pauses of some names were withdrawn. -/
def Withdrawn (names : List String) (m m' : StepMap) : Prop :=
  ∀ n ∈ names, m'.get? n = (m.get? n).bind StepRecord.withoutPause

section

variable {names names' : List String} {m m' : StepMap}

theorem Fresh.mono (h : Fresh names m) (hn : names' ⊆ names) : Fresh names' m :=
  fun n hn' => h n (hn hn')

theorem Agree.mono (h : Agree names m m') (hn : names' ⊆ names) : Agree names' m m' :=
  fun n hn' => h n (hn hn')

theorem Withdrawn.mono (h : Withdrawn names m m') (hn : names' ⊆ names) : Withdrawn names' m m' :=
  fun n hn' => h n (hn hn')

theorem Fresh.agree (h : Fresh names m) (ha : Agree names m m') : Fresh names m' :=
  fun n hn => (ha n hn).trans (h n hn)

theorem Fresh.withdrawn (h : Fresh names m) (hw : Withdrawn names m m') : Fresh names m' :=
  fun n hn => by rw [hw n hn, h n hn, Option.bind_none]

/-- The record that a withdrawal leaves of one that is not paused. -/
theorem Withdrawn.get? (h : Withdrawn names m m') {n : String} (hn : n ∈ names) {r : StepRecord}
    (hr : m.get? n = some r) (hs : r.status ≠ .paused) : m'.get? n = some r := by
  rw [h n hn, hr, Option.bind_some, StepRecord.withoutPause_of_status_ne hs]

end

/-! ## Regions -/

/-- A part of a flow, and how far a run can be in it.

* `complete` — nothing is left to do.
* `stage` — a walk may enter. An action at the position waits, or none if there is no position.

What a stage says about pauses is that they are where the position tells, and nowhere else. -/
structure Region where
  steps : List Step
  complete : StepMap → Prop
  stage : Option Position → StepMap → Prop
  complete_agree : ∀ {m m'}, Agree (steps.map Step.name) m m' → complete m → complete m'
  stage_agree : ∀ {q m m'}, Agree (steps.map Step.name) m m' → stage q m → stage q m'
  stage_fresh : ∀ {m}, Fresh (steps.map Step.name) m → stage none m
  stage_complete : ∀ {m}, complete m → stage none m
  root_mem : ∀ {p m}, stage (some p) m → p.root ∈ steps.map Step.name
  quiet : ∀ {q m}, m.Tidy → stage q m → ∀ n ∈ steps.map Step.name, (∀ p, q = some p → n ≠ p.root) →
    ∀ r, m.get? n = some r → r.Quiet
  paused : ∀ {p m}, m.Tidy → stage (some p) m → ∃ r summary output, m.get? p.root = some r ∧
    PauseChain [(p.root, r)] p.loops p.name summary output
  withdrawn : ∀ {p m m'}, m.Tidy → stage (some p) m → Withdrawn (steps.map Step.name) m m' →
    stage none m'

namespace Region

/-- The names of the steps of a region. -/
def names (R : Region) : List String := R.steps.map Step.name

variable {R : Region} {q : Option Position} {m m' : StepMap}

/-- Nothing in a region is paused. -/
theorem quiet_of_none (R : Region) (hm : m.Tidy) (h : R.stage none m) {n : String}
    (hn : n ∈ R.names) {r : StepRecord} (hr : m.get? n = some r) : r.Quiet :=
  R.quiet hm h n hn (by simp) r hr

/-- A withdrawal changes nothing where no action waits. -/
theorem agree_of_withdrawn (hm : m.Tidy) (h : R.stage none m) (hw : Withdrawn R.names m m') :
    Agree R.names m m' := fun n hn => by
  rw [hw n hn]
  cases hr : m.get? n with
  | none => rfl
  | some r => exact (R.quiet_of_none hm h hn hr).withoutPause

/-- After a withdrawal no action waits. -/
theorem withdrawn_stage (hm : m.Tidy) (h : R.stage q m) (hw : Withdrawn R.names m m') :
    R.stage none m' := by
  cases q with
  | none => exact R.stage_agree (agree_of_withdrawn hm h hw) h
  | some p => exact R.withdrawn hm h hw

theorem withdrawn_complete (hm : m.Tidy) (h : R.complete m) (hw : Withdrawn R.names m m') :
    R.complete m' :=
  R.complete_agree (agree_of_withdrawn hm (R.stage_complete h) hw) h

/-- A map that has records of the steps of a region only has a pause where the stage says. -/
theorem pauseChain {p : Position} (hm : m.Tidy) (hk : ∀ n ∈ m.names, n ∈ R.names)
    (h : R.stage (some p) m) : ∃ summary output, PauseChain m p.loops p.name summary output := by
  obtain ⟨r, summary, output, hr, hc⟩ := R.paused hm h
  refine ⟨summary, output, .of_get? hm.nodup hr hc fun k r' hne hk' => ?_⟩
  exact R.quiet hm h k (hk k (StepMap.mem_names_iff.mpr ⟨r', hk'⟩)) (by rintro p' ⟨⟩; exact hne) r'
    hk'

theorem quiet_map (hm : m.Tidy) (hk : ∀ n ∈ m.names, n ∈ R.names) (h : R.stage none m) :
    m.Quiet :=
  StepMap.quiet_of_get? hm.nodup fun n _ hr =>
    R.quiet_of_none hm h (hk n (StepMap.mem_names_iff.mpr ⟨_, hr⟩)) hr

/-! ## Nothing, and an action -/

/-- No steps. -/
def nil : Region where
  steps := []
  complete _ := True
  stage q _ := q = none
  complete_agree _ h := h
  stage_agree _ h := h
  stage_fresh _ := rfl
  stage_complete _ := rfl
  root_mem h := by cases h
  quiet _ _ n hn := by cases hn
  paused _ h := by cases h
  withdrawn _ h := by cases h

/-- The record of an action that is finished. -/
def ActionDone (n : String) (m : StepMap) : Prop :=
  ∃ summary output, m.get? n = some (.action summary output) ∧ summary.status.isFinished = true

/-- The record of an action that waits. -/
def ActionWaits (n : String) (m : StepMap) : Prop :=
  ∃ summary output, m.get? n = some (.action summary output) ∧ summary.status = .paused

/-- An action. It is finished or has no record, unless it waits. -/
def action (step : Step) : Region where
  steps := [step]
  complete := ActionDone step.name
  stage
    | none, m => m.get? step.name = none ∨ ActionDone step.name m
    | some p, m => p = ⟨[], step.name⟩ ∧ ActionWaits step.name m
  complete_agree {m m'} ha h := by
    have : m'.get? step.name = m.get? step.name := ha _ (by simp)
    unfold ActionDone at *
    rwa [this]
  stage_agree {q m m'} ha h := by
    have : m'.get? step.name = m.get? step.name := ha _ (by simp)
    cases q <;> simp only [ActionDone, ActionWaits] at * <;> rwa [this]
  stage_fresh h := .inl (h _ (by simp))
  stage_complete h := .inr h
  root_mem h := by
    obtain ⟨rfl, -⟩ := h
    simp
  quiet {q m} _ h n hn hq r hr := by
    obtain rfl : n = step.name := by simpa using hn
    cases q with
    | some p => exact absurd (by rw [h.1]; rfl) (hq p rfl)
    | none =>
      rcases h with h | ⟨summary, output, h, hf⟩
      · rw [h] at hr; cases hr
      · rw [h] at hr
        cases hr
        refine StepRecord.quiet_of_status_ne (fun hs => ?_) rfl
        have hs : summary.status = .paused := hs
        rw [hs] at hf
        cases hf
  paused {p m} _ h := by
    obtain ⟨rfl, summary, output, hr, hs⟩ := h
    exact ⟨_, summary, output, hr, .of_action hs⟩
  withdrawn {p m m'} _ h hw := by
    obtain ⟨rfl, summary, output, hr, hs⟩ := h
    refine .inl ?_
    rw [hw _ (by simp), hr, Option.bind_some]
    exact if_pos hs

/-! ## One after the other -/

/-- Two regions one after the other. The second one is not entered before nothing is left to do in
the first one. -/
def seq (A B : Region) : Region where
  steps := A.steps ++ B.steps
  complete m := A.complete m ∧ B.complete m
  stage q m := A.complete m ∧ B.stage q m ∨ A.stage q m ∧ Fresh B.names m
  complete_agree {m m'} ha h := by
    rw [List.map_append] at ha
    exact ⟨A.complete_agree (ha.mono (List.subset_append_left _ _)) h.1,
      B.complete_agree (ha.mono (List.subset_append_right _ _)) h.2⟩
  stage_agree {q m m'} ha h := by
    rw [List.map_append] at ha
    have hA := ha.mono (List.subset_append_left _ _)
    have hB := ha.mono (List.subset_append_right _ _)
    exact h.imp (fun h => ⟨A.complete_agree hA h.1, B.stage_agree hB h.2⟩)
      fun h => ⟨A.stage_agree hA h.1, h.2.agree hB⟩
  stage_fresh {m} h := by
    rw [List.map_append] at h
    exact .inr ⟨A.stage_fresh (h.mono (List.subset_append_left _ _)),
      h.mono (List.subset_append_right _ _)⟩
  stage_complete h := .inl ⟨h.1, B.stage_complete h.2⟩
  root_mem h := by
    rw [List.map_append, List.mem_append]
    exact h.elim (fun h => .inr (B.root_mem h.2)) fun h => .inl (A.root_mem h.1)
  quiet {q m} hm h n hn hq r hr := by
    rw [List.map_append, List.mem_append] at hn
    rcases h with ⟨hA, hB⟩ | ⟨hA, hB⟩
    · rcases hn with hn | hn
      · exact A.quiet_of_none hm (A.stage_complete hA) hn hr
      · exact B.quiet hm hB n hn hq r hr
    · rcases hn with hn | hn
      · exact A.quiet hm hA n hn hq r hr
      · rw [hB n hn] at hr; cases hr
  paused hm h := h.elim (fun h => B.paused hm h.2) fun h => A.paused hm h.1
  withdrawn {p m m'} hm h hw := by
    rw [List.map_append] at hw
    have hA : Withdrawn A.names m m' := hw.mono (List.subset_append_left _ _)
    have hB : Withdrawn B.names m m' := hw.mono (List.subset_append_right _ _)
    exact h.imp (fun h => ⟨withdrawn_complete hm h.1 hA, B.withdrawn hm h.2 hB⟩)
      fun h => ⟨A.withdrawn hm h.1 hA, h.2.withdrawn hB⟩

/-! ## Branches -/

/-- The record of a branch whose condition was evaluated. -/
def Decided (n : String) (holds : Bool) (m : StepMap) : Prop :=
  ∃ summary, m.get? n = some (.branch summary holds) ∧ summary.status = .succeeded

theorem Decided.agree {n : String} {holds : Bool} (h : Decided n holds m)
    (ha : m'.get? n = m.get? n) : Decided n holds m' := by
  unfold Decided
  rwa [ha]

theorem Decided.withdrawn {n : String} {holds : Bool} (h : Decided n holds m)
    (hw : m'.get? n = (m.get? n).bind StepRecord.withoutPause) : Decided n holds m' := by
  obtain ⟨summary, hr, hs⟩ := h
  refine ⟨summary, ?_, hs⟩
  rw [hw, hr, Option.bind_some, StepRecord.withoutPause_of_status_ne]
  change summary.status ≠ .paused
  simp [hs]

theorem Decided.quiet {n : String} {holds : Bool} (h : Decided n holds m) {r : StepRecord}
    (hr : m.get? n = some r) : r.Quiet := by
  obtain ⟨summary, hr', hs⟩ := h
  rw [hr'] at hr
  cases hr
  refine StepRecord.quiet_of_status_ne ?_ rfl
  change summary.status ≠ .paused
  simp [hs]

/-- The side of a branch that is walked. -/
def side (A B : Region) (holds : Bool) : Region := if holds then A else B

theorem side_names_subset (A B : Region) (holds : Bool) :
    (side A B holds).names ⊆ A.names ++ B.names := by
  cases holds
  · exact List.subset_append_right _ _
  · exact List.subset_append_left _ _

/-- A name of a branch is its own or that of a step on one of its sides. -/
theorem mem_sides (A B : Region) (holds : Bool) {n : String} (h : n ∈ A.names ++ B.names) :
    n ∈ (side A B holds).names ∨ n ∈ (side A B !holds).names := by
  cases holds
  · exact (List.mem_append.mp h).symm
  · exact List.mem_append.mp h

/-- A branch. When its condition was evaluated, one side is entered and the other one is not. -/
def branch (step : Step) (A B : Region) : Region where
  steps := step :: (A.steps ++ B.steps)
  complete m := ∃ holds, Decided step.name holds m ∧ (side A B holds).complete m ∧
    Fresh (side A B !holds).names m
  stage q m :=
    (q = none ∧ Fresh (step.name :: (A.names ++ B.names)) m) ∨
      ∃ holds, Decided step.name holds m ∧ (side A B holds).stage q m ∧
        Fresh (side A B !holds).names m
  complete_agree {m m'} ha := by
    rintro ⟨holds, hd, hc, hf⟩
    have hs (b : Bool) : Agree (side A B b).names m m' := fun n hn =>
      ha n (List.mem_cons_of_mem _ (by simpa [names] using side_names_subset A B b hn))
    exact ⟨holds, hd.agree (ha _ (by simp)), (side A B holds).complete_agree (hs holds) hc,
      hf.agree (hs !holds)⟩
  stage_agree {q m m'} ha := by
    have hs (b : Bool) : Agree (side A B b).names m m' := fun n hn =>
      ha n (List.mem_cons_of_mem _ (by simpa [names] using side_names_subset A B b hn))
    rintro (⟨hq, hf⟩ | ⟨holds, hd, hc, hf⟩)
    · exact .inl ⟨hq, hf.agree fun n hn => ha n (by simpa [names] using hn)⟩
    · exact .inr ⟨holds, hd.agree (ha _ (by simp)), (side A B holds).stage_agree (hs holds) hc,
        hf.agree (hs !holds)⟩
  stage_fresh {m} h := .inl ⟨rfl, fun n hn => h n (by simpa [names] using hn)⟩
  stage_complete := fun ⟨holds, hd, hc, hf⟩ =>
    .inr ⟨holds, hd, (side A B holds).stage_complete hc, hf⟩
  root_mem {p m} h := by
    rcases h with ⟨hq, -⟩ | ⟨holds, -, hs, -⟩
    · cases hq
    · have := side_names_subset A B holds ((side A B holds).root_mem hs)
      exact List.mem_cons_of_mem _ (by simpa [names] using this)
  quiet {q m} hm h n hn hq r hr := by
    have hn : n ∈ step.name :: (A.names ++ B.names) := by simpa [names] using hn
    rcases h with ⟨-, hf⟩ | ⟨holds, hd, hs, hf⟩
    · rw [hf n hn] at hr; cases hr
    rcases List.mem_cons.mp hn with rfl | hn
    · exact hd.quiet hr
    rcases mem_sides A B holds hn with hn | hn
    · exact (side A B holds).quiet hm hs n hn hq r hr
    · rw [hf n hn] at hr; cases hr
  paused {p m} hm h := by
    rcases h with ⟨hq, -⟩ | ⟨holds, -, hs, -⟩
    · cases hq
    · exact (side A B holds).paused hm hs
  withdrawn {p m m'} hm h hw := by
    have hside (b : Bool) : Withdrawn (side A B b).names m m' := fun n hn =>
      hw n (List.mem_cons_of_mem _ (by simpa [names] using side_names_subset A B b hn))
    rcases h with ⟨hq, -⟩ | ⟨holds, hd, hs, hf⟩
    · cases hq
    · exact .inr ⟨holds, hd.withdrawn (hw _ (by simp)),
        (side A B holds).withdrawn hm hs (hside holds), hf.withdrawn (hside !holds)⟩

/-! ## Names -/

theorem seq_names (A B : Region) : (A.seq B).names = A.names ++ B.names := List.map_append

theorem branch_names (label : Label) (c : ConditionSet) (onSuccess onFailure : List Step)
    (A B : Region) : (branch (.branch label c onSuccess onFailure) A B).names =
      label.name :: (A.names ++ B.names) := by
  rw [names, names, names, ← List.map_append]
  rfl

end Region

end FlowEngine.Engine
