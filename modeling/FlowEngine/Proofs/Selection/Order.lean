import FlowEngine.Proofs.Selection.Selected
import FlowEngine.Proofs.Walk.Changes

/-!
# Records in the order of the flow

A walk that begins without records of its steps and ends normally puts the records of the selected
steps after those that there were, in the order in which the flow lists them.

* `Appended` — the records of some steps were put after the others.
* `Appends` — walks that do so.
* `walk_appends` — walks of chains do so.
-/

namespace FlowEngine.Engine

open FlowEngine.Run FlowEngine.Flow

/-! ## Putting records after others -/

/-- The records of some steps were put after the others. Those of iterations are in the order of the
flow. -/
structure Appended (steps : List Step) (m m' : StepMap) : Prop where
  names : m'.names = m.names ++ steps.map Step.name
  inner : ∀ l settings body summary item index its, .loop l settings body ∈ steps →
    m'.get? l.name = some (.loop summary item index its) → ∀ k ∈ its, InOrder [] body k

namespace Appended

variable {steps steps' : List Step} {m m' m'' : StepMap} {step : Step}

theorem refl (m : StepMap) : Appended [] m m where
  names := (List.append_nil _).symm
  inner _ _ _ _ _ _ _ hs := by cases hs

/-- Records put after others stay where they are when more are put after them. -/
theorem trans (h : Appended steps m m') (h' : Appended steps' m' m'')
    (hkept : ∀ step ∈ steps, m''.get? step.name = m'.get? step.name) :
    Appended (steps ++ steps') m m'' where
  names := by rw [h'.names, h.names, List.map_append, List.append_assoc]
  inner l settings body summary item index its hs hl :=
    (List.mem_append.mp hs).elim
      (fun hs => h.inner l settings body summary item index its hs ((hkept _ hs).symm.trans hl))
      fun hs => h'.inner l settings body summary item index its hs hl

/-- The record of one step was put after the others. -/
theorem insert {r : StepRecord} (hnone : m.get? step.name = none)
    (hinner : ∀ l settings body its, step = .loop l settings body → r.iterations? = some its →
      ∀ k ∈ its, InOrder [] body k) : Appended [step] m (m.insert step.name r) where
  names := StepMap.names_insert_of_none r hnone
  inner l settings body summary item index its hs hl := by
    obtain rfl := List.mem_singleton.mp hs
    obtain rfl := Option.some.inj ((StepMap.get?_insert_self m l.name r).symm.trans hl)
    exact hinner l settings body its rfl rfl

theorem inOrder {before : List String} {chain : List Step}
    (h : Appended (selected m' chain) m m') (hm : m.names = before) : InOrder before chain m' :=
  .intro (hm ▸ h.names) h.inner

end Appended

/-- Steps that are chosen from a region by its records. -/
structure Chooses (R : Region) (sel : StepMap → List Step) : Prop where
  mem : ∀ {m : StepMap} {step : Step}, step ∈ sel m → step.name ∈ R.names
  congr : ∀ {m m' : StepMap}, Agree R.names m m' → sel m' = sel m

/-- A walk that begins without records of a region and ends normally puts those of the chosen steps
after the others. -/
def Appends (R : Region) (sel : StepMap → List Step) (w : Body) : Prop :=
  ∀ place s t s', s.steps.Tidy → Fresh R.names s.steps →
    Job.Yields (w place s) t (.result (.ok s')) → s'.verdict = .running →
      Appended (sel s'.steps) s.steps s'.steps

variable {setup : Setup} {A B : Region} {wA wB : Body} {selA selB : StepMap → List Step}

theorem Appends.seq (hdisjoint : A.names.Disjoint B.names) (hA : ChangesOwn A wA)
    (hB : ChangesOwn B wB) (hselA : Chooses A selA) (hwA : Appends A selA wA)
    (hwB : Appends B selB wB) :
    Appends (A.seq B) (fun m => selA m ++ selB m) (afterwards wA wB) := by
  intro place s t s' ht hfresh hy hv
  rw [Region.seq_names] at hfresh
  rcases Job.Yields.of_andThen hy with ⟨s₁, t₁, t₂, rfl, hy₁, hy₂⟩ | ⟨-, ho⟩
  · split_ifs at hy₂ with hr
    · have h₁ := hA place s t₁ s₁ ht hy₁
      have h₂ := hB place s₁ t₂ s' h₁.tidy hy₂
      have hkept : Agree A.names s₁.steps s'.steps := fun n hn => h₂.frame n (hdisjoint hn)
      have hfresh₁ : Fresh B.names s₁.steps := fun n hn => by
        rw [h₁.frame n fun hn' => hdisjoint hn' hn]
        exact hfresh n (List.mem_append_right _ hn)
      have hfirst := hwA place s t₁ s₁ ht (hfresh.mono (List.subset_append_left _ _)) hy₁
        (isRunning_iff.mp hr)
      rw [← hselA.congr hkept] at hfirst
      exact hfirst.trans (hwB place s₁ t₂ s' h₁.tidy hfresh₁ hy₂ hv) fun step hs =>
        hkept _ (hselA.mem hs)
    · obtain ⟨-, rfl⟩ := Yields.of_ended hy₂
      exact absurd (isRunning_iff.mpr hv) hr
  · exact absurd rfl (ho s')

/-! ## Actions and branches -/

theorem appends_action (l : Label) (a : Flow.Action) :
    Appends (.action (.action l a)) (fun _ => [.action l a])
      fun place s => runAction setup place l.name a s := by
  intro place s t s' ht hfresh hy hv
  have hnone : s.steps.get? (Step.action l a).name = none := hfresh _ List.mem_cons_self
  have hopen (r : StepRecord) (hr : s.steps.get? l.name = some r) : r.status.isFinished = false := by
    have hnone : s.steps.get? l.name = none := hnone
    rw [hnone] at hr
    cases hr
  rcases runAction_yields hopen hy with ⟨-, ho⟩ | ⟨-, now, e, duration, -, ho⟩ |
    ⟨input, started, -, hends⟩
  · exact absurd rfl (ho s')
  · cases ho
    rw [failedState_steps]
    exact .insert hnone (by rintro _ _ _ _ ⟨⟩)
  · obtain ⟨e, -, hend⟩ := hends s' rfl
    obtain ⟨summary, output, hsteps, -⟩ := hend.state
    rw [hsteps]
    exact .insert hnone (by rintro _ _ _ _ ⟨⟩)

theorem appends_branch (l : Label) (c : ConditionSet) (onSuccess onFailure : List Step)
    (hname : l.name ∉ A.names ++ B.names) (hA : ChangesOwn A wA) (hB : ChangesOwn B wB)
    (hwA : Appends A (selected · onSuccess) wA) (hwB : Appends B (selected · onFailure) wB) :
    Appends (.branch (.branch l c onSuccess onFailure) A B)
      (fun m => .branch l c onSuccess onFailure ::
        selectedInside m (.branch l c onSuccess onFailure))
      fun place s => runBranch place l.name c (fun holds => if holds then wA place else wB place) s := by
  intro place s t s' ht hfresh hy hv
  rw [Region.branch_names] at hfresh
  have hnone : s.steps.get? l.name = none := hfresh _ List.mem_cons_self
  dsimp only [runBranch] at hy
  rw [hnone] at hy
  rcases decideBranch_yields hy with ⟨-, ho⟩ | ⟨-, input, message, ho⟩ | ⟨holds, summary, -, hy⟩
  · exact absurd rfl (ho s')
  · cases ho
    cases hv
  have ht₁ : (s.upsert l.name (.branch summary holds)).steps.Tidy :=
    ht.insert _ (by rintro its k ⟨⟩)
  have hone : Appended [.branch l c onSuccess onFailure] s.steps
      (s.upsert l.name (.branch summary holds)).steps := .insert hnone (by rintro _ _ _ _ ⟨⟩)
  have hfresh₁ : Fresh (A.names ++ B.names) (s.upsert l.name (.branch summary holds)).steps :=
    fun n hn => by
      refine (StepMap.get?_insert_of_ne _ _ ?_).trans (hfresh n (List.mem_cons_of_mem _ hn))
      rintro rfl
      exact hname hn
  have hdecided : (s.upsert l.name (.branch summary holds)).steps.get? l.name =
      some (.branch summary holds) := StepMap.get?_insert_self _ _ _
  -- the side does not touch the record of the branch
  have hlast {chain : List Step} (hside : Appended (selected s'.steps chain)
        (s.upsert l.name (.branch summary holds)).steps s'.steps)
      (hkept : s'.steps.get? l.name = some (.branch summary holds))
      (hchain : chain = if holds then onSuccess else onFailure) :
      Appended (.branch l c onSuccess onFailure ::
        selectedInside s'.steps (.branch l c onSuccess onFailure)) s.steps s'.steps := by
    rw [selectedInside_branch hkept, ← apply_ite (selected s'.steps), ← hchain]
    refine hone.trans hside fun step hs => ?_
    obtain rfl := List.mem_singleton.mp hs
    exact hkept.trans hdecided.symm
  cases holds
  · refine hlast (hwB place _ t s' ht₁ (hfresh₁.mono (List.subset_append_right _ _)) hy hv) ?_ rfl
    exact ((hB place _ t s' ht₁ hy).frame _ fun hn => hname (List.mem_append_right _ hn)).trans
      hdecided
  · refine hlast (hwA place _ t s' ht₁ (hfresh₁.mono (List.subset_append_left _ _)) hy hv) ?_ rfl
    exact ((hA place _ t s' ht₁ hy).frame _ fun hn => hname (List.mem_append_left _ hn)).trans
      hdecided

/-! ## Loops -/

theorem appends_loop (l : Label) (settings : LoopSettings) (body : List Step)
    (hwB : Appends B (selected · body) wB) :
    Appends (.loop (.loop l settings body) B) (fun _ => [.loop l settings body])
      fun place s => runLoop setup place l.name settings wB s := by
  intro place s t s' ht hfresh hy hv
  have hnone : s.steps.get? l.name = none := hfresh _ List.mem_cons_self
  rcases runLoop_first hnone hy with ⟨-, ho⟩ | ⟨-, input, message, ho⟩ | ⟨items, started, hy⟩
  · exact absurd rfl (ho s')
  · cases ho
    cases hv
  obtain ⟨traces, kids, maps, decisive, duration, hit, rfl⟩ := (walkItems_yields rfl hy).2 s' rfl
  obtain rfl := closeLoop_running hit.decides hv
  obtain ⟨summary, item, index, hsteps, -⟩ :=
    closeLoop_eq (looping l.name items place s wB) items duration maps none
  rw [hsteps]
  refine (Appended.insert hnone ?_ : Appended [.loop l settings body] _ _)
  rintro _ _ _ _ ⟨⟩ ⟨⟩ k hk
  obtain ⟨i, hi⟩ := List.getElem?_of_mem hk
  obtain ⟨item, recorded, hx, hafter⟩ := hit.of_map hi
  -- the iteration began without records
  obtain rfl : recorded = [] := by
    have hmem := (List.of_mem_zip (List.mem_of_getElem? hx)).2
    rw [fit_nil] at hmem
    exact List.eq_of_mem_replicate hmem
  obtain ⟨kid, hkid⟩ := hit.ran_of_decides hx
  rw [hafter.kept kid hkid hit.decides.not_repeats]
  have hran := hit.ran i _ _ kid hx hkid
  exact (hwB _ (s.nested []) _ kid StepMap.tidy_nil (fun _ _ => rfl) hran
    (hit.decides i kid hkid)).inOrder rfl

end FlowEngine.Engine
