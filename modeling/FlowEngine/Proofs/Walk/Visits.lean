import FlowEngine.Proofs.Walk.Changes
import FlowEngine.Proofs.Walk.Nesting

/-!
# Where walks come to

A walk comes to steps, each at some place and with some records. The templates of a step are resolved
against what is visible there. Where a walk may enter a chain, it may enter every chain inside its steps
that it can come to, and so it enters each step that it comes to at some stage of this step.

* `Visits` — the steps that a walk may come to.
* `runAction_calls` — an action calls its target with the input that its template gives.
* `stage_head`, `stage_sides`, `stage_taken`, `stage_iteration` — the stages inside a stage.
* `Entered` — a part of a flow that a walk may enter.
* `Visits.entered` — what a walk comes to, it may enter.
-/

namespace FlowEngine.Engine

open FlowEngine.Run FlowEngine.Flow

/-- The walk of a chain may come to a step, at a place and with records. It goes on after a step that
ended normally, into a side of a branch with or without a new decision, into the branches of a split
with its record, and into the iterations of a loop with records of an earlier walk or with none. -/
inductive Visits (setup : Setup) : List Step → Place → RunState → Step → Place → RunState → Prop
  | here {step rest place s} : Visits setup (step :: rest) place s step place s
  | later {step rest place s t s₁ x p m}
    (first : Job.Yields (walkStep setup step place s) t (.result (.ok s₁)))
    (running : s₁.verdict = .running)
    (next : Visits setup rest place s₁ x p m) : Visits setup (step :: rest) place s x p m
  | success {label c onSuccess onFailure rest place s s₁ x p m}
    (entered : s₁ = s ∨ ∃ summary, s₁ = s.upsert label.name (.branch summary true))
    (inside : Visits setup onSuccess place s₁ x p m) :
    Visits setup (.branch label c onSuccess onFailure :: rest) place s x p m
  | failure {label c onSuccess onFailure rest place s s₁ x p m}
    (entered : s₁ = s ∨ ∃ summary, s₁ = s.upsert label.name (.branch summary false))
    (inside : Visits setup onFailure place s₁ x p m) :
    Visits setup (.branch label c onSuccess onFailure :: rest) place s x p m
  | split {label settings branches rest place s input taken b steps x p m}
    (opened : finished (s.steps.get? label.name) = false) (branch : (b, steps) ∈ branches)
    (inside : Visits setup steps place (splitBase s label.name input taken) x p m) :
    Visits setup (.split label settings branches :: rest) place s x p m
  | loop {label settings body rest place s r item index kept x p m}
    (opened : finished (s.steps.get? label.name) = false)
    (recorded : kept = [] ∨ ∃ prior its, s.steps.get? label.name = some prior ∧
      prior.iterations? = some its ∧ kept ∈ its)
    (inside : Visits setup body (place.enter (s.upsert label.name r) label.name ⟨item, index⟩)
      (s.nested kept) x p m) :
    Visits setup (.loop label settings body :: rest) place s x p m

/-! ## The steps of a chain -/

variable {setup : Setup} {chain rest : List Step} {place p : Place} {s m : RunState} {t : Trace}
  {o : Outcome Result} {step x : Step}

/-- What is inside a step that a walk comes to is inside the chain. -/
theorem Visits.steps_subset (h : Visits setup chain place s x p m) :
    (stepRegion x).steps ⊆ (chainRegion chain).steps := by
  intro y hy
  induction h with
  | here =>
    rw [steps_cons]
    exact List.mem_append_left _ hy
  | later _ _ _ ih => exact mem_later (ih hy)
  | success _ _ ih => exact mem_success (ih hy)
  | failure _ _ ih => exact mem_failure (ih hy)
  | split _ branch _ ih => exact mem_branch branch (ih hy)
  | loop _ _ _ ih => exact mem_body (ih hy)

/-- A walk comes to steps of the chain only. -/
theorem Visits.mem (h : Visits setup chain place s x p m) : x ∈ (chainRegion chain).steps := by
  refine h.steps_subset ?_
  rw [stepRegion_steps_eq]
  exact List.mem_cons_self

/-- The walk of a chain may come to a split that is not finished, and in a branch of that to a step. -/
structure VisitsBranch (setup : Setup) (chain : List Step) (place : Place) (s : RunState)
    (label : Label) (settings : SplitSettings) (branches : List (SplitBranch × List Step)) (p : Place)
    (m : RunState) (b : SplitBranch × List Step) (x : Step) (q : Place) (s₁ : RunState) : Prop where
  split : Visits setup chain place s (.split label settings branches) p m
  opened : finished (m.steps.get? label.name) = false
  branch : b ∈ branches
  inside : ∃ input taken, Visits setup b.2 p (splitBase m label.name input taken) x q s₁

theorem VisitsBranch.mono {label : Label} {settings : SplitSettings}
    {branches : List (SplitBranch × List Step)} {b : SplitBranch × List Step} {chain' : List Step}
    {place' q : Place} {s' s₁ : RunState}
    (h : VisitsBranch setup chain place s label settings branches p m b x q s₁)
    (hv : ∀ {x p m}, Visits setup chain place s x p m → Visits setup chain' place' s' x p m) :
    VisitsBranch setup chain' place' s' label settings branches p m b x q s₁ :=
  ⟨hv h.split, h.opened, h.branch, h.inside⟩

/-- A walk comes to a step in a branch of a split only by the split. -/
theorem Visits.through {label : Label} {settings : SplitSettings}
    {branches : List (SplitBranch × List Step)} {b : SplitBranch × List Step}
    (h : Visits setup chain place s x p m) (hx : InBranch chain label settings branches b x) :
    ∃ p₀ m₀, VisitsBranch setup chain place s label settings branches p₀ m₀ b x p m := by
  induction h with
  | here => exact hx.not_first.elim
  | later first running next ih =>
    obtain ⟨p₀, m₀, hthrough⟩ := ih (hx.later next.mem)
    exact ⟨p₀, m₀, hthrough.mono (.later first running)⟩
  | success entered inside ih =>
    obtain ⟨p₀, m₀, hthrough⟩ := ih (hx.success inside.mem)
    exact ⟨p₀, m₀, hthrough.mono (.success entered)⟩
  | failure entered inside ih =>
    obtain ⟨p₀, m₀, hthrough⟩ := ih (hx.failure inside.mem)
    exact ⟨p₀, m₀, hthrough.mono (.failure entered)⟩
  | @split _ _ _ _ place s input taken _ _ _ _ _ opened branch inside ih =>
    rcases hx.part branch inside.mem with ⟨heq, rfl⟩ | hx
    · cases heq
      exact ⟨place, s, .here, opened, branch, input, taken, inside⟩
    · obtain ⟨p₀, m₀, hthrough⟩ := ih hx
      exact ⟨p₀, m₀, hthrough.mono (.split opened branch)⟩
  | loop opened recorded inside ih =>
    obtain ⟨p₀, m₀, hthrough⟩ := ih (hx.body inside.mem)
    exact ⟨p₀, m₀, hthrough.mono (.loop opened recorded)⟩

/-! ## Calls -/

/-- A call is that of an action which the walk of a chain comes to, with the input that its template
gives there. -/
def CalledBy (setup : Setup) (chain : List Step) (place : Place) (s : RunState) (c : Block.Call) :
    Prop :=
  ∃ label a p m now input, Visits setup chain place s (.action label a) p m ∧
    Template.resolve (p.names m now) a.input = .ok input ∧
    c = ⟨targetOf a.work, requestOf setup p.path m label.name a.work input⟩

/-- The records that the iterations of a loop are walked with, if there are any, are those of an earlier
walk. -/
theorem mem_fit {its : List StepMap} {name : String} {count : Nat} {kept : StepMap}
    (hits : its = [] ∨ ∃ r, s.steps.get? name = some r ∧ r.iterations? = some its)
    (h : kept ∈ fit count its) : kept = [] ∨ ∃ prior its, s.steps.get? name = some prior ∧
      prior.iterations? = some its ∧ kept ∈ its := by
  rcases List.mem_append.mp h with h | h
  · rcases hits with rfl | ⟨prior, hprior, hits⟩
    · cases List.mem_of_mem_take h
    · exact .inr ⟨prior, its, hprior, hits, List.mem_of_mem_take h⟩
  · exact .inl (List.eq_of_mem_replicate h)

theorem runAction_calls {name : String} {a : Flow.Action}
    (hy : Job.Yields (runAction setup place name a s) t o) {e : Event Block.Call Block.Reply}
    (he : e ∈ t) : ∃ now input, Template.resolve (place.names s now) a.input = .ok input ∧
      e.call = ⟨targetOf a.work, requestOf setup place.path s name a.work input⟩ := by
  unfold runAction at hy
  split_ifs at hy
  · obtain ⟨rfl, -⟩ := Job.Yields.done_iff.mp hy
    cases he
  · obtain ⟨rfl, -⟩ := Job.Yields.done_iff.mp hy
    cases he
  obtain ⟨rfl, -⟩ | ⟨started, hy⟩ := Job.Yields.of_clock hy
  · cases he
  obtain ⟨rfl, -⟩ | ⟨r, hr, hy⟩ := Yields.of_onTemplate hy
  · cases he
  rcases r with error | input
  · obtain ⟨rfl, -⟩ := failStep_yields hy
    cases he
  · exact ⟨started.now, input, hr, (attempts_yields hy).1 e he⟩

/-! ## Branches of a split -/

/-- A walk may enter every branch of a split that was entered. -/
theorem Region.SplitEntered.stages {parts : List (String × Region)} {name : String}
    {q : Option Position} {m : StepMap} (h : Region.SplitEntered parts name q m)
    {x : String × Region} (hx : x ∈ parts) : ∃ q, x.2.stage q m := by
  obtain ⟨summary, taken, index, -, -, hfresh, hspread⟩ := h
  by_cases hn : x.1 ∈ taken
  · obtain ⟨i, hi⟩ := List.getElem?_of_mem (Region.mem_chosen.mpr ⟨x, hx, hn, rfl⟩)
    exact ⟨_, hspread.stage i x.2 m (by rw [List.getElem?_map, hi]; rfl)⟩
  · exact ⟨none, x.2.stage_fresh (hfresh x hx hn)⟩

/-! ## Stages inside a stage -/

section

variable {step : Step} {rest onSuccess onFailure body : List Step} {label : Label} {c : ConditionSet}
  {q : Option Position} {m kept : StepMap}

/-- The first step of a chain is complete, or where the walk is. -/
theorem stage_head (h : (chainRegion (step :: rest)).stage q m) :
    (∃ q, (stepRegion step).stage q m) ∧ ∃ q, (chainRegion rest).stage q m := by
  rw [chainRegion] at h
  rcases h with ⟨hc, h⟩ | ⟨h, hf⟩
  · exact ⟨⟨none, (stepRegion step).stage_complete hc⟩, q, h⟩
  · exact ⟨⟨q, h⟩, none, (chainRegion rest).stage_fresh hf⟩

/-- Both sides of a branch may be entered: one of them has no records, or neither has. -/
theorem stage_sides (h : (stepRegion (.branch label c onSuccess onFailure)).stage q m) :
    (∃ q, (chainRegion onSuccess).stage q m) ∧ ∃ q, (chainRegion onFailure).stage q m := by
  rw [stepRegion] at h
  rcases h with ⟨-, hf⟩ | ⟨holds, -, hside, hf⟩
  · have hf := hf.mono (List.subset_cons_self _ _)
    exact ⟨⟨none, (chainRegion onSuccess).stage_fresh (hf.mono (List.subset_append_left _ _))⟩,
      none, (chainRegion onFailure).stage_fresh (hf.mono (List.subset_append_right _ _))⟩
  · cases holds
    · exact ⟨⟨none, (chainRegion onSuccess).stage_fresh hf⟩, q, hside⟩
    · exact ⟨⟨q, hside⟩, none, (chainRegion onFailure).stage_fresh hf⟩

/-- All branches of a split that is not finished may be entered. They have no records if the split has
none. -/
theorem stage_taken {settings : SplitSettings} {branches : List (SplitBranch × List Step)}
    (h : (stepRegion (.split label settings branches)).stage q m)
    (hopen : finished (m.get? label.name) = false) :
    (m.get? label.name = none → Fresh (Region.branchNames (branchRegions branches)) m) ∧
      ∀ x ∈ branchRegions branches, ∃ q, x.2.stage q m := by
  rw [stepRegion] at h
  rcases h with ⟨-, hf | hdone⟩ | hentered
  · have hf := hf.mono (List.subset_cons_self _ _)
    exact ⟨fun _ => hf, fun x hx =>
      ⟨none, x.2.stage_fresh (hf.mono (Region.branchNames_subset hx))⟩⟩
  · obtain ⟨summary, taken, hr, hfin, -⟩ := hdone
    rw [show m.get? label.name = _ from hr] at hopen
    cases hopen.symm.trans hfin
  · refine ⟨fun hn => ?_, fun x hx => hentered.stages hx⟩
    obtain ⟨summary, taken, index, hr, -⟩ := hentered
    cases hn.symm.trans hr

/-- The body of a loop that is not finished may be entered with the records of every iteration, and these
are records of its steps. -/
theorem stage_iteration {settings : LoopSettings}
    (h : (stepRegion (.loop label settings body)).stage q m)
    (hopen : finished (m.get? label.name) = false) {r : StepRecord} {its : List StepMap}
    (hr : m.get? label.name = some r) (hits : r.iterations? = some its) (hk : kept ∈ its) :
    (∀ n ∈ kept.names, n ∈ (chainRegion body).names) ∧ ∃ q, (chainRegion body).stage q kept := by
  rw [stepRegion] at h
  rcases h.2 with ⟨-, hn | ⟨r', hr', hfin, -⟩⟩ | ⟨q', index, -, hentered⟩
  · cases hn.symm.trans hr
  · rw [show m.get? label.name = _ from hr'] at hopen
    cases hopen.symm.trans hfin
  · obtain ⟨summary, item, items, its', hr', -, -, -, hkeyed, hspread⟩ := hentered
    obtain rfl := Option.some.inj (hr.symm.trans hr')
    obtain rfl := Option.some.inj hits
    obtain ⟨i, hi⟩ := List.getElem?_of_mem hk
    exact ⟨hkeyed kept hk, _, hspread.stage i _ kept (by rw [List.getElem?_map, hi]; rfl)⟩

end

/-! ## Names inside a step -/

theorem success_sublist (label : Label) (c : ConditionSet) (onSuccess onFailure : List Step) :
    (label.name :: (chainRegion onSuccess).names).Sublist
      (stepRegion (.branch label c onSuccess onFailure)).names := by
  rw [stepRegion, Region.branch_names]
  exact List.Sublist.cons_cons _ (List.sublist_append_left _ _)

theorem failure_sublist (label : Label) (c : ConditionSet) (onSuccess onFailure : List Step) :
    (label.name :: (chainRegion onFailure).names).Sublist
      (stepRegion (.branch label c onSuccess onFailure)).names := by
  rw [stepRegion, Region.branch_names]
  exact List.Sublist.cons_cons _ (List.sublist_append_right _ _)

theorem taken_sublist (label : Label) (settings : SplitSettings)
    {branches : List (SplitBranch × List Step)} {b : SplitBranch × List Step} (hb : b ∈ branches) :
    (label.name :: (chainRegion b.2).names).Sublist
      (stepRegion (.split label settings branches)).names := by
  rw [stepRegion, Region.split_names]
  exact List.Sublist.cons_cons _ (branchNames_sublist hb)

/-! ## Parts of a flow that may be entered -/

/-- A walk may enter a part of a flow: it goes on, and the records are at some stage of it. -/
structure Entered (R : Region) (s : RunState) : Prop where
  nodup : R.names.Nodup
  running : s.verdict = .running
  tidy : s.steps.Tidy
  stage : ∃ q, R.stage q s.steps

variable {onSuccess onFailure body : List Step} {step x : Step} {label : Label} {c : ConditionSet}
  {s₁ : RunState}

namespace Entered

theorem head (h : Entered (chainRegion (step :: rest)) s) : Entered (stepRegion step) s := by
  obtain ⟨q, hq⟩ := h.stage
  have hnd := h.nodup
  rw [names_cons] at hnd
  exact ⟨hnd.of_append_left, h.running, h.tidy, (stage_head hq).1⟩

/-- After the first step was walked, the rest may be entered. -/
theorem tail (h : Entered (chainRegion (step :: rest)) s)
    (first : Job.Yields (walkStep setup step place s) t (.result (.ok s₁)))
    (running : s₁.verdict = .running) : Entered (chainRegion rest) s₁ := by
  obtain ⟨q, hq⟩ := h.stage
  have hnd := h.nodup
  rw [names_cons] at hnd
  rw [chainRegion] at hq
  obtain ⟨htidy, -, -, -, q', hq', -⟩ := (walkStep_follows setup step hnd.of_append_left).second
    (List.disjoint_of_nodup_append hnd) h.running h.tidy hq first running
  exact ⟨hnd.of_append_right, running, htidy, q', hq'⟩

/-- A chain inside a step may be entered, also with another record of the step itself. -/
theorem inside (h : Entered (stepRegion step) s) {chain : List Step}
    (hsub : (step.name :: (chainRegion chain).names).Sublist (stepRegion step).names)
    (hstage : ∃ q, (chainRegion chain).stage q s.steps) (running : s₁.verdict = s.verdict)
    (ht : s₁.steps.Tidy) (hother : ∀ n, n ≠ step.name → s₁.steps.get? n = s.steps.get? n) :
    Entered (chainRegion chain) s₁ := by
  obtain ⟨q, hq⟩ := hstage
  obtain ⟨hname, hnd⟩ := List.nodup_cons.mp (h.nodup.sublist hsub)
  refine ⟨hnd, running.trans h.running, ht, q, (chainRegion chain).stage_agree (fun n hn => ?_) hq⟩
  exact hother n (by rintro rfl; exact hname hn)

/-- After the decision of a branch, its sides may be entered. -/
theorem sides (h : Entered (stepRegion (.branch label c onSuccess onFailure)) s) {holds : Bool}
    (hs : s₁ = s ∨ ∃ summary, s₁ = s.upsert label.name (.branch summary holds)) :
    Entered (chainRegion onSuccess) s₁ ∧ Entered (chainRegion onFailure) s₁ := by
  obtain ⟨q, hq⟩ := h.stage
  obtain ⟨hsuccess, hfailure⟩ := stage_sides hq
  have hs₁ : s₁.verdict = s.verdict ∧ s₁.steps.Tidy ∧
      ∀ n, n ≠ label.name → s₁.steps.get? n = s.steps.get? n := by
    rcases hs with rfl | ⟨summary, rfl⟩
    · exact ⟨rfl, h.tidy, fun _ _ => rfl⟩
    · exact ⟨rfl, h.tidy.insert _ (by rintro its k ⟨⟩),
        fun n hn => StepMap.get?_insert_of_ne _ _ hn.symm⟩
  obtain ⟨hv, ht, hother⟩ := hs₁
  exact ⟨h.inside (success_sublist label c onSuccess onFailure) hsuccess hv ht hother,
    h.inside (failure_sublist label c onSuccess onFailure) hfailure hv ht hother⟩

/-- In a split that is not finished, every branch may be entered. -/
theorem branch {settings : SplitSettings} {branches : List (SplitBranch × List Step)}
    {b : SplitBranch × List Step} (h : Entered (stepRegion (.split label settings branches)) s)
    (hopen : finished (s.steps.get? label.name) = false) (hb : b ∈ branches) (input : Json)
    (taken : List String) : Entered (chainRegion b.2) (splitBase s label.name input taken) := by
  obtain ⟨q, hq⟩ := h.stage
  have hpart : (b.1.name, chainRegion b.2) ∈ branchRegions branches := by
    rw [branchRegions_eq]
    exact List.mem_map_of_mem hb
  exact h.inside (taken_sublist label settings hb) ((stage_taken hq hopen).2 _ hpart) rfl
    (splitBase_tidy h.tidy) fun n hn => splitBase_other s input taken hn

/-- In a loop that is not finished, the body may be entered in every iteration. -/
theorem iteration {settings : LoopSettings}
    (h : Entered (stepRegion (.loop label settings body)) s)
    (hopen : finished (s.steps.get? label.name) = false) {kept : StepMap}
    (hkept : kept = [] ∨ ∃ r its, s.steps.get? label.name = some r ∧ r.iterations? = some its ∧
      kept ∈ its) : Entered (chainRegion body) (s.nested kept) := by
  obtain ⟨q, hq⟩ := h.stage
  have hnd := h.nodup
  rw [stepRegion, Region.loop_names] at hnd
  have hbody := (List.nodup_cons.mp hnd).2
  rcases hkept with rfl | ⟨r, its, hr, hits, hk⟩
  · exact ⟨hbody, rfl, StepMap.tidy_nil, none, (chainRegion body).stage_fresh fun _ _ => rfl⟩
  · exact ⟨hbody, rfl, h.tidy.inner hr hits hk, (stage_iteration hq hopen hr hits hk).2⟩

end Entered

/-- A walk that may enter a chain may enter the steps that it comes to. -/
theorem Visits.entered (h : Visits setup chain place s x p m) (hs : Entered (chainRegion chain) s) :
    Entered (stepRegion x) m := by
  induction h with
  | here => exact hs.head
  | later first running _ ih => exact ih (hs.tail first running)
  | success entered _ ih => exact ih (hs.head.sides entered).1
  | failure entered _ ih => exact ih (hs.head.sides entered).2
  | split opened branch _ ih => exact ih (hs.head.branch opened branch _ _)
  | loop opened recorded _ ih => exact ih (hs.head.iteration opened recorded)

end FlowEngine.Engine
