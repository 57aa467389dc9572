import FlowEngine.Proofs.Resumption.Answers
import FlowEngine.Proofs.Walk.Chain

/-!
# Walks without a stop

* `walk_unstopped` — the walk of a chain without splits does not end with a stop if no action stops
  the run.
-/

namespace FlowEngine.Engine

open FlowEngine.Run FlowEngine.Flow

/-- Walks that end without a stop, if there was none before. -/
def Unstopped (a : Answers) (w : Body) : Prop := ∀ place s t s', s.verdict.status ≠ .succeeded →
  Job.Yields (w place s) t (.result (.ok s')) → a.Explains t → s'.verdict.status ≠ .succeeded

namespace Unstopped

variable {a : Answers} {setup : Setup} {name : String} {wA wB : Body}

theorem seq (hA : Unstopped a wA) (hB : Unstopped a wB) : Unstopped a (afterwards wA wB) := by
  intro place s t s' hv hy ht
  rcases Job.Yields.of_andThen hy with ⟨s₁, t₁, t₂, rfl, hy₁, hy₂⟩ | ⟨-, ho⟩
  · obtain ⟨ht₁, ht₂⟩ := Answers.explains_append.mp ht
    have hv₁ := hA place s t₁ s₁ hv hy₁ ht₁
    split_ifs at hy₂
    · exact hB place s₁ t₂ s' hv₁ hy₂ ht₂
    · obtain ⟨-, rfl⟩ := Yields.of_ended hy₂
      exact hv₁
  · exact absurd rfl (ho s')

/-- The verdict after an action that ended without a stop. -/
theorem endingVerdict_ne {e : ErrorHandling} {verdict : Verdict} {r : Ending}
    (hv : verdict.status ≠ .succeeded) (hr : ∀ output response, r ≠ .ok (output, some (.stop response))) :
    (endingVerdict name e verdict r).status ≠ .succeeded := by
  rcases r with failure | ⟨output, _ | pause | response⟩
  · unfold endingVerdict
    dsimp only
    split_ifs
    · exact hv
    · exact fun h => by cases h
  · exact hv
  · exact fun h => by cases h
  · exact absurd rfl (hr output response)

theorem action (ha : a.NeverStop) (name : String) (action : Action) :
    Unstopped a fun place s => runAction setup place name action s := by
  intro place s t s' hv hy ht
  by_cases hdone : ∃ r, s.steps.get? name = some r ∧ r.status.isFinished = true
  · obtain ⟨r, hr, hf⟩ := hdone
    dsimp only at hy
    rw [runAction_rests hr hf] at hy
    obtain ⟨-, rfl⟩ := Yields.of_ended hy
    exact hv
  · have hopen (r : StepRecord) (hr : s.steps.get? name = some r) : r.status.isFinished = false :=
      Bool.eq_false_iff.mpr fun hf => hdone ⟨r, hr, hf⟩
    obtain ⟨-, ho⟩ | ⟨-, ho | ⟨now, hconcludes⟩⟩ := runAction_concludes hopen hy ht
    · exact absurd rfl (ho s')
    · cases ho
    obtain ho | ⟨-, ho⟩ | ⟨r, duration, hr, ho⟩ := hconcludes
    · cases ho
    · cases ho
    cases ho
    refine endingVerdict_ne hv fun output response hstop => ?_
    subst hstop
    generalize Template.resolve (place.names s now) action.input = resolved at hr
    rcases resolved with (e | _) | input
    · cases hr
    · cases hr
    · exact conclusion_not_stop (ha ..) hr

theorem branch (c : ConditionSet) (hA : Unstopped a wA) (hB : Unstopped a wB) :
    Unstopped a fun place s =>
      runBranch place name c (fun holds => if holds then wA place else wB place) s := by
  intro place s t s' hv hy ht
  have side {holds : Bool} (s₁ : RunState) (hv₁ : s₁.verdict.status ≠ .succeeded)
      (hy : Job.Yields ((if holds then wA place else wB place) s₁) t (.result (.ok s'))) :
      s'.verdict.status ≠ .succeeded := by
    split_ifs at hy
    · exact hA place s₁ t s' hv₁ hy ht
    · exact hB place s₁ t s' hv₁ hy ht
  have decided (hy : Job.Yields (decideBranch place name c
      (fun holds => if holds then wA place else wB place) s) t (.result (.ok s'))) :
      s'.verdict.status ≠ .succeeded := by
    rcases decideBranch_yields hy with ⟨-, ho⟩ | ⟨-, input, message, ho⟩ | ⟨holds, summary, -, hy⟩
    · exact absurd rfl (ho s')
    · cases ho
      exact fun h => by cases h
    · exact side (s.upsert name _) hv hy
  have ended (hy : Job.Yields (Walk.ended s) t (.result (.ok s'))) :
      s'.verdict.status ≠ .succeeded := by
    obtain ⟨-, rfl⟩ := Yields.of_ended hy
    exact hv
  dsimp only [runBranch] at hy
  split at hy
  · exact decided hy
  · split at hy
    · exact ended hy
    · split at hy
      · exact side s hv hy
      · exact ended hy
    · exact decided hy
    · exact decided hy

theorem loop (settings : LoopSettings) (hB : Unstopped a wB) :
    Unstopped a fun place s => runLoop setup place name settings wB s := by
  intro place s t s' hv hy ht
  have items {started : Reading Time.Instant} {items : List Json} {its : List StepMap}
      (hy : Job.Yields (walkItems setup place name settings wB started items its s) t
        (.result (.ok s'))) : s'.verdict.status ≠ .succeeded := by
    obtain ⟨traces, kids, maps, decisive, duration, hit, rfl⟩ := (walkItems_yields rfl hy).2 s' rfl
    obtain ⟨_, _, _, -, -, -, hverdict, -⟩ :=
      closeLoop_eq (looping name items place s wB) items duration maps decisive
    rcases decisive with _ | ⟨i, v⟩
    · exact fun h => by cases h
    · rw [(hverdict i v rfl).1]
      obtain ⟨_, m, kid, -, -, rfl, hy, -⟩ := hit.decided
      exact hB _ (s.nested m) _ kid (fun h => by cases h) hy fun e he =>
        ht e ((hit.mixed.mem_iff e).mpr ⟨i, he⟩)
  dsimp only [runLoop] at hy
  split_ifs at hy
  · obtain ⟨-, rfl⟩ := Yields.of_ended hy
    exact hv
  · rcases Job.Yields.of_clock hy with ⟨-, ho⟩ | ⟨started, hy⟩
    · cases ho
    split at hy
    · exact items hy
    · rcases Yields.of_onTemplate hy with ⟨-, ho⟩ | ⟨r, -, hy⟩
      · exact absurd rfl (ho s')
      · split at hy
        · exact items hy
        · obtain ⟨-, rfl⟩ := Yields.of_ended hy
          exact fun h => by cases h

end Unstopped

/-- No kind of step but a split makes a run end with a stop if no action stops it. -/
theorem unstopped_inductive {a : Answers} (ha : a.NeverStop) (setup : Setup) :
    InductiveUnsplit setup (Unstopped a) where
  nil place s t s' hv hy _ := by
    obtain ⟨-, rfl⟩ := Yields.of_ended hy
    exact hv
  seq _ _ hA hB := hA.seq hB
  trigger l t place s _ s' _ hy _ := by
    rw [walkStep] at hy
    obtain ⟨-, ho | ho⟩ := Job.Yields.done_iff.mp hy <;> cases ho
  action name action := .action ha name action
  branch _ c _ _ hA hB := hA.branch c hB
  loop _ settings _ hB := hB.loop settings

/-- A walk of a chain does not end with a stop if no action stops the run. -/
theorem walk_unstopped {a : Answers} (ha : a.NeverStop) (setup : Setup) (chain : List Step)
    (h : ∀ step ∈ (chainRegion chain).steps, step.type ≠ .split) : Unstopped a (walk setup chain) :=
  (unstopped_inductive ha setup).chain chain h

end FlowEngine.Engine
