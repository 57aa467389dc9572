import FlowEngine.Proofs.Resumption.Branch
import FlowEngine.Proofs.Resumption.Loop
import FlowEngine.Proofs.Walk.Chain

/-!
# Walking a chain again

* `Rerun.Admits` — steps that can be walked again.
* `Covers` — a walk simulates the whole one, which added the records of some steps.
* `walk_covers` — walks of chains do, by induction on the steps.
-/

namespace FlowEngine.Engine

open FlowEngine.Run FlowEngine.Flow

variable {x : Rerun} {steps steps' : List Step} {place : Place} {s s' : RunState} {t : Trace}
  {names names' : List String}

/-- Steps that can be walked again: none of them is a split, their templates look names up, and those
that ask for a pause are known, and so are their kinds. -/
structure Rerun.Admits (x : Rerun) (steps : List Step) : Prop where
  splits : ∀ step ∈ steps, step.type ≠ .split
  reads : ∀ step ∈ steps, ReadsNames x.kinds step
  knows : x.Knows steps
  kinds : ∀ step ∈ steps, x.kinds step.name step.type

theorem Rerun.Admits.mono (h : x.Admits steps) (hsub : steps' ⊆ steps) : x.Admits steps' where
  splits step hs := h.splits step (hsub hs)
  reads step hs := h.reads step (hsub hs)
  knows label a ha := h.knows label a (hsub ha)
  kinds step hs := h.kinds step (hsub hs)

/-- A scope with more records. -/
theorem scope_fits_append {kinds : Kinds} {m : StepMap} (h : (place.scope s).Fits kinds)
    (hs : s'.steps = s.steps ++ m) (hm : m.Fits kinds) : (place.scope s').Fits kinds := by
  obtain ⟨hsteps, haround⟩ := List.forall_mem_cons.mp h
  refine Template.Scope.fits_push ?_ haround
  rw [hs]
  exact StepMap.fits_append.mpr ⟨hsteps, hm⟩

/-- Whenever a whole walk ends normally, it added records of some names, and another walk simulates
it. -/
def Covers (x : Rerun) (direct walk : Place → RunState → Walk) (names : List String) : Prop :=
  ∀ place s t s', s.verdict = .running → (∀ n ∈ names, s.steps.get? n = none) →
    (place.scope s).Fits x.kinds → Job.Yields (direct place s) t (.result (.ok s')) →
    x.direct.Explains t → s'.verdict = .running →
    ∃ whole, s'.steps = s.steps ++ whole ∧ (∀ n ∈ whole.names, n ∈ names) ∧
      whole.Fits x.kinds ∧ Simulates x walk place s.steps whole

namespace Covers

variable {direct walk direct₁ direct₂ walk₁ walk₂ : Place → RunState → Walk} {name : String}

theorem mono (h : Covers x direct walk names) (hsub : names ⊆ names') :
    Covers x direct walk names' := by
  intro place s t s' hv hfresh hfits hy ht hend
  obtain ⟨whole, hs, hnames, hsim⟩ :=
    h place s t s' hv (fun n hn => hfresh n (hsub hn)) hfits hy ht hend
  exact ⟨whole, hs, fun n hn => hsub (hnames n hn), hsim⟩

theorem nil : Covers x (fun _ s => Walk.ended s) (fun _ s => Walk.ended s) [] := by
  intro place s t s' _ _ _ hy _ _
  obtain ⟨-, rfl⟩ := Yields.of_ended hy
  exact ⟨[], (List.append_nil _).symm, by rintro n ⟨⟩, StepMap.fits_nil, .nil⟩

/-- One walk after the other. -/
theorem seq (h₁ : Covers x direct₁ walk₁ names) (h₂ : Covers x direct₂ walk₂ names')
    (hdisjoint : names.Disjoint names') :
    Covers x (afterwards direct₁ direct₂) (afterwards walk₁ walk₂) (names ++ names') := by
  intro place s t s' hv hfresh hfits hy ht hend
  rcases Job.Yields.of_andThen hy with ⟨s₁, t₁, t₂, rfl, hy₁, hy₂⟩ | ⟨-, ho⟩
  · obtain ⟨ht₁, ht₂⟩ := Answers.explains_append.mp ht
    split_ifs at hy₂ with hv₁
    · have hv₁ := isRunning_iff.mp hv₁
      obtain ⟨whole₁, hs₁, hnames₁, hfits₁, hsim₁⟩ := h₁ place s t₁ s₁ hv
        (fun n hn => hfresh n (List.mem_append_left _ hn)) hfits hy₁ ht₁ hv₁
      have hfresh₂ (n : String) (hn : n ∈ names') : s₁.steps.get? n = none := by
        rw [hs₁, StepMap.get?_append, hfresh n (List.mem_append_right _ hn), Option.none_or]
        exact StepMap.get?_eq_none_iff.mpr fun h => hdisjoint (hnames₁ n h) hn
      obtain ⟨whole₂, hs₂, hnames₂, hfits₂, hsim₂⟩ :=
        h₂ place s₁ t₂ s' hv₁ hfresh₂ (scope_fits_append hfits hs₁ hfits₁) hy₂ ht₂ hend
      refine ⟨whole₁ ++ whole₂, by rw [hs₂, hs₁, List.append_assoc], fun n hn => ?_,
        StepMap.fits_append.mpr ⟨hfits₁, hfits₂⟩, ?_⟩
      · rw [StepMap.names, List.map_append, List.mem_append] at hn
        exact List.mem_append.mpr (hn.imp (hnames₁ n) (hnames₂ n))
      · rw [hs₁] at hsim₂
        exact hsim₁.seq hsim₂
    · obtain ⟨-, rfl⟩ := Yields.of_ended hy₂
      exact absurd (isRunning_iff.mpr hend) hv₁
  · exact absurd rfl (ho s')

theorem action {a : Action} (hreads : Reads x.kinds name fun names => Template.resolve names a.input)
    (hasks : ∀ input, x.asks name input ↔
      isPause (x.answers (targetOf a.work) (sourceOf? a.work) input none) = true)
    (hkind : ∃ type, x.kinds name type) :
    Covers x (fun place s => runAction x.beginning place name a s)
      (fun place s => runAction x.setup place name a s) [name] := by
  intro place s t s' hv hfresh hfits hy ht hend
  obtain ⟨r, hs, hr, hsim⟩ := Simulates.action hreads hasks
    (hfresh name (List.mem_singleton_self _)) hfits hkind hv hy ht hend
  exact ⟨[(name, r)], hs, fun n hn => hn, ⟨hr, trivial⟩, hsim⟩

theorem branch {c : ConditionSet}
    (hinput : Reads x.kinds name fun names => conditionInput names c)
    (hconditions : Reads x.kinds name fun names => Template.conditionsHold names c)
    (hkind : x.kinds name .branch)
    (h₁ : Covers x direct₁ walk₁ names) (h₂ : Covers x direct₂ walk₂ names')
    (hname : name ∉ names ++ names') :
    Covers x
      (fun place s => runBranch place name c
        (fun holds => if holds then direct₁ place else direct₂ place) s)
      (fun place s => runBranch place name c
        (fun holds => if holds then walk₁ place else walk₂ place) s) (name :: (names ++ names')) := by
  intro place s t s' hv hfresh hfits hy ht hend
  have hnone := hfresh name List.mem_cons_self
  refine Simulates.branch hinput hconditions hnone hfits hkind hy hend fun holds r hr hy => ?_
  have hput : (s.upsert name r).steps = s.steps ++ [(name, r)] := StepMap.insert_of_none _ hnone
  have hside : Covers x (fun place => if holds then direct₁ place else direct₂ place)
      (fun place => if holds then walk₁ place else walk₂ place) (names ++ names') := by
    cases holds
    · exact h₂.mono (List.subset_append_right _ _)
    · exact h₁.mono (List.subset_append_left _ _)
  have hfresh₁ (n : String) (hn : n ∈ names ++ names') : (s.upsert name r).steps.get? n = none := by
    have hne : name ≠ n := fun h => hname (h ▸ hn)
    rw [hput, StepMap.get?_append, hfresh n (List.mem_cons_of_mem _ hn), Option.none_or,
      StepMap.get?_cons, if_neg hne]
    rfl
  have hrecord : StepMap.Fits x.kinds [(name, r)] := by
    rw [hr]
    exact ⟨hkind, trivial⟩
  rw [← hput]
  exact hside place _ t s' hv hfresh₁ (scope_fits_append hfits hput hrecord) hy ht hend

theorem loop {settings : LoopSettings} {wB body : Body}
    (hreads : Reads x.kinds name fun names => Template.resolve names settings.items)
    (hkind : x.kinds name .loopOnItems) (h : Covers x wB body names) :
    Covers x (fun place s => runLoop x.beginning place name settings wB s)
      (fun place s => runLoop x.setup place name settings body s) (name :: names) := by
  intro place s t s' _ hfresh hfits hy ht hend
  obtain ⟨r, hs, hr, hsim⟩ := Simulates.loop hreads (hfresh name List.mem_cons_self) hfits hkind
    hy ht hend fun place s t s' hv hs haround hy ht hend => by
      have hfits : (place.scope s).Fits x.kinds :=
        Template.Scope.fits_push (by rw [hs]; exact StepMap.fits_nil) haround
      obtain ⟨whole, hsteps, -, hwhole, hsim⟩ :=
        h place s t s' hv (fun n _ => by rw [hs]; rfl) hfits hy ht hend
      rw [hs] at hsteps hsim
      rw [hsteps]
      exact ⟨hwhole, hsim⟩
  exact ⟨[(name, r)], hs, fun n hn => List.mem_singleton.mp hn ▸ List.mem_cons_self,
    ⟨hr, trivial⟩, hsim⟩

end Covers

/-! ## Walks of chains -/

variable (x)

theorem covers_hereditary : HereditaryDistinct
    (fun chain => x.Admits (chainRegion chain).steps →
      Covers x (walk x.beginning chain) (walk x.setup chain) (chainRegion chain).names)
    fun step => x.Admits (stepRegion step).steps →
      Covers x (walkStep x.beginning step) (walkStep x.setup step) (stepRegion step).names where
  nil _ := by
    rw [walk_nil, walk_nil]
    exact .nil
  cons step rest hnd hstep hrest hadmits := by
    rw [steps_cons] at hadmits
    rw [names_cons, walk_cons, walk_cons]
    exact (hstep (hadmits.mono (List.subset_append_left _ _))).seq
      (hrest (hadmits.mono (List.subset_append_right _ _))) (List.disjoint_of_nodup_append hnd)
  trigger l t _ := by
    intro place s t s' _ _ _ hy _ _
    rw [walkStep] at hy
    obtain ⟨-, ho | ho⟩ := Job.Yields.done_iff.mp hy <;> cases ho
  action l a hadmits := by
    have hmem : Step.action l a ∈ (stepRegion (.action l a)).steps := List.mem_cons_self
    rw [walkStep_action, walkStep_action]
    exact .action (hadmits.reads _ hmem) (hadmits.knows l a hmem) ⟨_, hadmits.kinds _ hmem⟩
  branch l c onSuccess onFailure hnd hsuccess hfailure hadmits := by
    rw [stepRegion] at hadmits ⊢
    obtain ⟨hinput, hconditions⟩ := hadmits.reads _ List.mem_cons_self
    rw [Region.branch_names, walkStep_branch, walkStep_branch]
    exact .branch hinput hconditions (hadmits.kinds _ List.mem_cons_self)
      (hsuccess (hadmits.mono fun y hy => List.mem_cons_of_mem _ (List.mem_append_left _ hy)))
      (hfailure (hadmits.mono fun y hy => List.mem_cons_of_mem _ (List.mem_append_right _ hy)))
      (List.nodup_cons.mp hnd).1
  split l settings branches _ _ hadmits :=
    absurd rfl (hadmits.splits (.split l settings branches) List.mem_cons_self)
  loop l settings body _ hbody hadmits := by
    rw [stepRegion] at hadmits ⊢
    rw [Region.loop_names, walkStep_loop, walkStep_loop]
    exact .loop (hadmits.reads _ List.mem_cons_self) (hadmits.kinds _ List.mem_cons_self)
      (hbody (hadmits.mono fun y hy => List.mem_cons_of_mem _ hy))

/-- Walks of a chain simulate the whole one. -/
theorem walk_covers (chain : List Step) (hadmits : x.Admits (chainRegion chain).steps)
    (hnd : (chainRegion chain).names.Nodup) :
    Covers x (walk x.beginning chain) (walk x.setup chain) (chainRegion chain).names :=
  (covers_hereditary x).chain hnd hadmits

end FlowEngine.Engine
