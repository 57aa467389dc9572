import FlowEngine.Proofs.Resumption.Action

/-!
# Walking a branch again

The decision of a branch is recorded before its side is walked, so that a walk that was cut short is
walked again along the same side.

* `decideBranch_direct` — the decision of a branch in the whole walk.
* `Simulates.branch` — the walk of a branch, given those of its sides.
-/

namespace FlowEngine.Engine

open FlowEngine.Run FlowEngine.Flow

variable {x : Rerun} {place : Place} {s s' : RunState} {name : String} {c : ConditionSet}
  {side : Bool → RunState → Walk} {t : Trace}

/-- What the record of a branch shows as its input, given what became of the conditions. -/
def shownInput : Except Template.Failure Json → Option Json
  | .ok input => some input
  | .error (.error _) => some .null
  | .error .crash => none

/-- The state in which the side of a branch is walked. -/
def decidedState (s : RunState) (name : String) (input : Json) (duration : Nat) (holds : Bool) :
    RunState :=
  s.upsert name (.branch ⟨.succeeded, input, none, some duration⟩ holds)

/-- What follows once the input is shown. -/
theorem shown_direct {started : Reading Time.Instant} (shown : Except Template.TemplateError Json) {input : Json}
    (hinput : shown.toOption.getD .null = input)
    (h : Job.Yields (Walk.onTemplate (Template.conditionsHold (place.names s started.now) c) fun
      | .error e =>
        let message := "condition evaluation failed: " ++ e.message
        Walk.failed s name message (failedRecord (shown.toOption.getD .null) message)
      | .ok holds =>
        .clock fun stopped =>
          side holds (s.upsert name (.branch ⟨.succeeded, shown.toOption.getD .null, none,
            some (elapsed started stopped)⟩ holds))) t (.result (.ok s')))
    (hend : s'.verdict = .running) :
    ∃ holds duration, Template.conditionsHold (place.names s started.now) c = .ok holds ∧
      Job.Yields (side holds (decidedState s name input duration holds)) t (.result (.ok s')) := by
  generalize Template.conditionsHold (place.names s started.now) c = result at h ⊢
  rcases result with (e | _) | holds
  · obtain ⟨-, ho | ho⟩ := Job.Yields.done_iff.mp h <;> cases ho
    cases hend
  · obtain ⟨-, ho | ho⟩ := Job.Yields.crash_iff.mp h <;> cases ho
  · rcases Job.Yields.of_clock h with ⟨-, ho⟩ | ⟨stopped, h⟩
    · cases ho
    · exact ⟨holds, _, rfl, hinput ▸ h⟩

/-- A branch after which the run goes on was decided, and its side was walked. -/
theorem decideBranch_direct (h : Job.Yields (decideBranch place name c side s) t (.result (.ok s')))
    (hend : s'.verdict = .running) : ∃ now input holds duration,
      shownInput (conditionInput (place.names s now) c) = some input ∧
      Template.conditionsHold (place.names s now) c = .ok holds ∧
      Job.Yields (side holds (decidedState s name input duration holds)) t (.result (.ok s')) := by
  rcases Job.Yields.of_clock h with ⟨-, ho⟩ | ⟨started, h⟩
  · cases ho
  dsimp only at h
  cases hshown : conditionInput (place.names s started.now) c with
  | ok input =>
    rw [hshown] at h
    obtain ⟨holds, duration, hholds, hside⟩ := shown_direct (.ok input) rfl h hend
    exact ⟨started.now, input, holds, duration, by rw [hshown]; rfl, hholds, hside⟩
  | error e =>
    rw [hshown] at h
    cases e with
    | error e =>
      obtain ⟨holds, duration, hholds, hside⟩ := shown_direct (.error e) rfl h hend
      exact ⟨started.now, .null, holds, duration, by rw [hshown]; rfl, hholds, hside⟩
    | crash => obtain ⟨-, ho | ho⟩ := Job.Yields.crash_iff.mp h <;> cases ho

/-- A branch that is decided as in the whole walk gives what its side gives. -/
theorem decideBranch_gives {answers : Answers} {shown : Except Template.Failure Json} {input : Json}
    {holds : Bool} {Q : RunState → Prop} (hinput : shownInput shown = some input)
    (hshown : ∀ now, conditionInput (place.names s now) c = shown)
    (hholds : ∀ now, Template.conditionsHold (place.names s now) c = .ok holds)
    (h : ∀ duration, Gives answers (side holds (decidedState s name input duration holds)) Q) :
    Gives answers (decideBranch place name c side s) Q := by
  refine .clock fun started => ?_
  dsimp only
  rw [hshown started.now, hholds started.now]
  rcases shown with (e | _) | input'
  · cases hinput
    exact .clock fun stopped => h _
  · cases hinput
  · cases hinput
    exact .clock fun stopped => h _

section

variable {sides : Place → Bool → RunState → Walk} {r : StepRecord} {holds : Bool} {whole : StepMap}

/-- A branch that has the record of its decision is walked along its side. -/
theorem runBranch_decided (hr : r = StepRecord.branch r.summary holds)
    (hs : r.status = .succeeded) {r' : StepRecord} (halike : r'.timeless = r.timeless)
    (hget : s.steps.get? name = some r') :
    runBranch place name c side s = side holds s := by
  have hstatus : r'.status = .succeeded := (StepRecord.status_alike halike).trans hs
  have hholds : r'.holds? = some holds := by
    rw [StepRecord.holds?_alike halike, hr]
    rfl
  unfold runBranch
  simp only [hget, hstatus, hholds]

/-- A walk after the record of a branch is one of its side. -/
theorem Cut.afterRecord {before kept : StepMap} {waits : Bool} {place' : Place} {s₀ : RunState}
    {r' : StepRecord} (hcut : Cut x place s₀.steps ((name, r) :: whole) waits place' s before
      ((name, r') :: kept)) (halike : r'.timeless = r.timeless)
    (hpart : Partial x.asks waits kept whole) :
    Cut x place (s₀.steps ++ [(name, r)]) whole waits place' s (before ++ [(name, r')]) kept where
  around := hcut.around
  cursor := hcut.cursor
  running := hcut.running
  steps := by rw [hcut.steps, List.append_assoc]; rfl
  alike := by
    rw [StepMap.timeless_append, hcut.alike, StepMap.timeless_append, StepMap.timeless_cons, halike]
    rfl
  part := hpart
  payload := .inr (hcut.payload.resolve_left (List.cons_ne_nil _ _))

/-- A branch that is walked again from the beginning is decided as in the whole walk. -/
theorem Cut.decided {before : StepMap} {waits : Bool} {place' : Place} {s₀ : RunState}
    {input : Json} {duration : Nat}
    (hcut : Cut x place s₀.steps
      ((name, .branch ⟨.succeeded, input, none, some duration⟩ holds) :: whole) waits place' s before [])
    (hfresh : s₀.steps.get? name = none) (duration' : Nat) :
    Cut x place (s₀.steps ++ [(name, .branch ⟨.succeeded, input, none, some duration⟩ holds)]) whole
      false place' (decidedState s name input duration' holds)
      (before ++ [(name, .branch ⟨.succeeded, input, none, some duration'⟩ holds)]) [] where
  around := hcut.around
  cursor := hcut.cursor
  running := hcut.running
  steps := by
    have hsteps : s.steps = before := by rw [hcut.steps, List.append_nil]
    rw [List.append_nil]
    change s.steps.insert name _ = _
    rw [hsteps, StepMap.insert_of_none _ (StepMap.get?_eq_none_of_alike hcut.alike hfresh)]
  alike := by
    rw [StepMap.timeless_append, hcut.alike, StepMap.timeless_append]
    rfl
  part := .nil _
  payload := .inl rfl

/-- The walk of a branch that was decided simulates the whole one when the walk of its side does. -/
theorem Simulates.decided {input : Json} {duration : Nat} {now : Time.Instant}
    (hinput : Reads x.kinds name fun names => conditionInput names c)
    (hconditions : Reads x.kinds name fun names => Template.conditionsHold names c)
    (hfresh : s.steps.get? name = none) (hfits : (place.scope s).Fits x.kinds)
    (hshown : shownInput (conditionInput (place.names s now) c) = some input)
    (hholds : Template.conditionsHold (place.names s now) c = .ok holds)
    (hsim : Simulates x (fun place s => sides place holds s) place
      (s.steps ++ [(name, .branch ⟨.succeeded, input, none, some duration⟩ holds)]) whole) :
    Simulates x (fun place s => runBranch place name c (sides place) s) place s.steps
      ((name, .branch ⟨.succeeded, input, none, some duration⟩ holds) :: whole) where
  finished := by
    intro y hy
    rcases List.mem_cons.mp hy with rfl | hy
    · rfl
    · exact hsim.finished y hy
  rests place' s' before kept after hs hbefore hkept := by
    obtain ⟨r', rest, rfl, hr', hrest, hget⟩ := StepMap.get?_of_alike hfresh hs hbefore hkept
    rw [runBranch_decided rfl rfl hr' hget]
    refine hsim.rests place' s' (before ++ [(name, r')]) rest after (by simpa using hs) ?_ hrest
    rw [StepMap.timeless_append, hbefore, StepMap.timeless_append, StepMap.timeless_cons, hr']
    rfl
  gives waits place' s' before kept hcut := by
    have hfinished : StepMap.Finished
        [(name, .branch ⟨.succeeded, input, none, some duration⟩ holds)] := by
      intro y hy
      rw [List.mem_singleton.mp hy]
      rfl
    have hpart := hcut.part
    cases hpart with
    | nil =>
      have hnone : s'.steps.get? name = none := by
        rw [hcut.steps, List.append_nil]
        exact StepMap.get?_eq_none_of_alike hcut.alike hfresh
      have halike : AlikeBut name (place.scope s) (place'.scope s') := hcut.alikeBut fun _ _ => rfl
      unfold runBranch
      rw [hnone]
      refine decideBranch_gives hshown (fun now' => hinput _ _ now now' hfits halike)
        (fun now' => (hconditions _ _ now now' hfits halike).trans hholds) fun duration' => ?_
      exact (hsim.gives false place' _ _ [] (hcut.decided hfresh duration')).mono fun s'' h =>
        h.prepend (by rfl) hfinished (Nat.zero_le _)
    | @cons _ _ _ r' kept _ hr' _ hpart =>
      have hget : s'.steps.get? name = some r' := by
        rw [hcut.steps]
        exact StepMap.get?_append_cons hfresh hcut.alike r' kept
      rw [runBranch_decided rfl rfl hr' hget]
      exact (hsim.gives waits place' s' _ kept (hcut.afterRecord hr' hpart)).mono fun s'' h =>
        h.prepend (by rw [StepMap.timeless_cons, hr']; rfl) hfinished (Nat.le_refl _)
    | action _ kind => cases kind

/-- The walk of a branch simulates the whole one when the walk of its side does. -/
theorem Simulates.branch {names : List String}
    (hinput : Reads x.kinds name fun names => conditionInput names c)
    (hconditions : Reads x.kinds name fun names => Template.conditionsHold names c)
    (hfresh : s.steps.get? name = none) (hfits : (place.scope s).Fits x.kinds)
    (hkind : x.kinds name .branch)
    (h : Job.Yields (runBranch place name c side s) t (.result (.ok s')))
    (hend : s'.verdict = .running)
    (hside : ∀ holds r, r = StepRecord.branch r.summary holds →
      Job.Yields (side holds (s.upsert name r)) t (.result (.ok s')) →
      ∃ whole, s'.steps = s.steps ++ [(name, r)] ++ whole ∧ (∀ n ∈ whole.names, n ∈ names) ∧
        whole.Fits x.kinds ∧ Simulates x (fun place s => sides place holds s) place (s.steps ++ [(name, r)]) whole) :
    ∃ whole, s'.steps = s.steps ++ whole ∧ (∀ n ∈ whole.names, n ∈ name :: names) ∧
      whole.Fits x.kinds ∧ Simulates x (fun place s => runBranch place name c (sides place) s) place s.steps whole := by
  unfold runBranch at h
  rw [hfresh] at h
  obtain ⟨now, input, holds, duration, hshown, hholds, h⟩ := decideBranch_direct h hend
  obtain ⟨whole, hsteps, hnames, hwhole, hsim⟩ := hside holds _ rfl h
  refine ⟨(name, .branch ⟨.succeeded, input, none, some duration⟩ holds) :: whole, by rw [hsteps, List.append_assoc]; rfl, ?_,
    StepMap.fits_cons.mpr ⟨hkind, hwhole⟩,
    .decided hinput hconditions hfresh hfits hshown hholds hsim⟩
  exact fun n hn => (List.mem_cons.mp hn).elim (fun h => h ▸ List.mem_cons_self)
    fun hn => List.mem_cons_of_mem _ (hnames n hn)

end

end FlowEngine.Engine
