import FlowEngine.Proofs.Walk.Visits

/-!
# What steps can see

The templates of a step see the records of its level and of the levels around it. While a chain is
walked, its steps see nothing new but records of the chain itself. Thus a step in a branch of a split
does not see what is recorded meanwhile in other branches.

* `Contained` — inside splits that were not entered, and next to loops, there are no records of the steps
  in them.
* `contained_of_stage` — so it is where a walk may enter.
* `Situated` — a chain where a walk comes to it.
* `Visits.situated` — a step sees what was seen when the walk began, apart from records of the walk.
* `VisitsBranch.sibling` — what a step in a branch of a split sees of the other branches.
-/

namespace FlowEngine.Engine

open FlowEngine.Run FlowEngine.Flow

/-! ## Where records are -/

mutual

/-- The records of the steps in splits and loops of a chain are only where these are entered: those of
a branch after its split has a record, and those of a body in the maps of its loop. -/
def Contained : List Step → StepMap → Prop
  | [] => fun _ => True
  | step :: rest => fun m => StepContained step m ∧ Contained rest m

/-- The records of the steps inside a step are only where it is entered. -/
def StepContained : Step → StepMap → Prop
  | .trigger _ _ | .action _ _ => fun _ => True
  | .branch _ _ onSuccess onFailure => fun m => Contained onSuccess m ∧ Contained onFailure m
  | .split l _ branches => fun m => finished (m.get? l.name) = false →
    (m.get? l.name = none → Fresh (Region.branchNames (branchRegions branches)) m) ∧
      BranchesContained branches m
  | .loop l _ body => fun m => Fresh (chainRegion body).names m ∧
    (finished (m.get? l.name) = false → ∀ r its k, m.get? l.name = some r → r.iterations? = some its →
      k ∈ its → (∀ n ∈ k.names, n ∈ (chainRegion body).names) ∧ Contained body k)

/-- The records of the steps in the branches of a split are only where they are entered. -/
def BranchesContained : List (SplitBranch × List Step) → StepMap → Prop
  | [] => fun _ => True
  | (_, steps) :: rest => fun m => Contained steps m ∧ BranchesContained rest m

end

theorem BranchesContained.of_mem {branches : List (SplitBranch × List Step)} {m : StepMap}
    (h : BranchesContained branches m) {b : SplitBranch × List Step} (hb : b ∈ branches) :
    Contained b.2 m := by
  induction branches with
  | nil => cases hb
  | cons x rest ih =>
    rw [BranchesContained] at h
    rcases List.mem_cons.mp hb with rfl | hb
    · exact h.1
    · exact ih h.2 hb

mutual

/-- Where records are depends on those of the chain only. -/
theorem contained_agree {m m' : StepMap} : ∀ chain : List Step,
    Agree (chainRegion chain).names m m' → Contained chain m → Contained chain m'
  | [], _, h => h
  | step :: rest, ha, h => by
    rw [names_cons] at ha
    rw [Contained] at h ⊢
    exact ⟨stepContained_agree step (ha.mono (List.subset_append_left _ _)) h.1,
      contained_agree rest (ha.mono (List.subset_append_right _ _)) h.2⟩

theorem stepContained_agree {m m' : StepMap} : ∀ step : Step,
    Agree (stepRegion step).names m m' → StepContained step m → StepContained step m'
  | .trigger _ _, _, h => h
  | .action _ _, _, h => h
  | .branch l c onSuccess onFailure, ha, h => by
    rw [stepRegion, Region.branch_names] at ha
    have hsides := ha.mono (List.subset_cons_self _ _)
    rw [StepContained] at h ⊢
    exact ⟨contained_agree onSuccess (hsides.mono (List.subset_append_left _ _)) h.1,
      contained_agree onFailure (hsides.mono (List.subset_append_right _ _)) h.2⟩
  | .split l settings branches, ha, h => by
    rw [stepRegion, Region.split_names] at ha
    have hbranches := ha.mono (List.subset_cons_self _ _)
    simp only [StepContained, ha l.name List.mem_cons_self] at h ⊢
    intro hopen
    obtain ⟨hfresh, h⟩ := h hopen
    exact ⟨fun hn => (hfresh hn).agree hbranches, branchesContained_agree branches hbranches h⟩
  | .loop l settings body, ha, h => by
    rw [stepRegion, Region.loop_names] at ha
    simp only [StepContained, ha l.name List.mem_cons_self] at h ⊢
    exact ⟨h.1.agree (ha.mono (List.subset_cons_self _ _)), h.2⟩

theorem branchesContained_agree {m m' : StepMap} :
    ∀ branches : List (SplitBranch × List Step),
      Agree (Region.branchNames (branchRegions branches)) m m' → BranchesContained branches m →
        BranchesContained branches m'
  | [], _, h => h
  | (b, steps) :: rest, ha, h => by
    rw [branchRegions, Region.branchNames, List.flatMap_cons] at ha
    rw [BranchesContained] at h ⊢
    exact ⟨contained_agree steps (ha.mono (List.subset_append_left _ _)) h.1,
      branchesContained_agree rest (ha.mono (List.subset_append_right _ _)) h.2⟩

end

/-! ## Where a walk may enter -/

mutual

/-- Where a walk may enter a chain, records are only where its steps are entered. -/
theorem contained_of_stage {q : Option Position} {m : StepMap} : ∀ chain : List Step,
    (chainRegion chain).stage q m → Contained chain m
  | [], _ => trivial
  | step :: rest, h => by
    obtain ⟨⟨q₁, h₁⟩, q₂, h₂⟩ := stage_head h
    rw [Contained]
    exact ⟨stepContained_of_stage step h₁, contained_of_stage rest h₂⟩

theorem stepContained_of_stage {q : Option Position} {m : StepMap} : ∀ step : Step,
    (stepRegion step).stage q m → StepContained step m
  | .trigger _ _, _ => trivial
  | .action _ _, _ => trivial
  | .branch l c onSuccess onFailure, h => by
    obtain ⟨⟨q₁, h₁⟩, q₂, h₂⟩ := stage_sides h
    rw [StepContained]
    exact ⟨contained_of_stage onSuccess h₁, contained_of_stage onFailure h₂⟩
  | .split l settings branches, h => by
    simp only [StepContained]
    intro hopen
    obtain ⟨hfresh, hstages⟩ := stage_taken h hopen
    exact ⟨hfresh, branchesContained_of_stage branches hstages⟩
  | .loop l settings body, h => by
    simp only [StepContained]
    refine ⟨?_, fun hopen r its k hr hits hk => ?_⟩
    · rw [stepRegion] at h
      exact h.1
    · obtain ⟨hkeyed, q', hq'⟩ := stage_iteration h hopen hr hits hk
      exact ⟨hkeyed, contained_of_stage body hq'⟩

theorem branchesContained_of_stage {m : StepMap} : ∀ branches : List (SplitBranch × List Step),
    (∀ x ∈ branchRegions branches, ∃ q, x.2.stage q m) → BranchesContained branches m
  | [], _ => trivial
  | (b, steps) :: rest, h => by
    rw [BranchesContained]
    obtain ⟨⟨q, hq⟩, hrest⟩ := List.forall_mem_cons.mp h
    exact ⟨contained_of_stage steps hq, branchesContained_of_stage rest hrest⟩

end

theorem contained_fresh {chain : List Step} {m : StepMap}
    (h : Fresh (chainRegion chain).names m) : Contained chain m :=
  contained_of_stage chain ((chainRegion chain).stage_fresh h)

/-! ## What can be seen -/

section

variable {place : Place} {s s' : RunState} {n : String}

theorem Place.step?_scope_congr (h : s'.steps.get? n = s.steps.get? n) :
    (place.scope s').step? n = (place.scope s).step? n := by
  rw [Place.step?_scope, Place.step?_scope, h]

/-- From the body of a loop, what has no record there is seen as from the level of the loop. -/
theorem Place.step?_enter {name : String} {cursor : Template.Cursor} (h : s'.steps.get? n = none) :
    ((place.enter s name cursor).scope s').step? n = (place.scope s).step? n := by
  rw [Place.step?_scope, h, Option.none_or]
  rfl

end

/-- A chain is situated at a place with some records: these are only where its steps are entered, and no
step of it can be seen from the levels around. -/
structure Situated (chain : List Step) (place : Place) (s : RunState) : Prop where
  nodup : (chainRegion chain).names.Nodup
  tidy : s.steps.Tidy
  contained : Contained chain s.steps
  hidden : ∀ n ∈ (chainRegion chain).names, place.around.step? n = none

variable {setup : Setup} {chain chain' onSuccess onFailure body steps rest : List Step}
  {step x : Step} {label : Label} {c : ConditionSet} {place p : Place} {s s₁ m : RunState}

theorem names_sublist_cons {names : List String} (rest : List Step)
    (h : names.Sublist (stepRegion step).names) :
    names.Sublist (chainRegion (step :: rest)).names := by
  rw [names_cons]
  exact h.trans (List.sublist_append_left _ _)

namespace Situated

/-- A part of a chain is situated where the chain is, also when other records were changed. -/
theorem part (h : Situated chain place s)
    (hsub : (chainRegion chain').names.Sublist (chainRegion chain).names)
    (hc : Contained chain' s.steps) (ht : s₁.steps.Tidy)
    (ha : Agree (chainRegion chain').names s.steps s₁.steps) : Situated chain' place s₁ where
  nodup := h.nodup.sublist hsub
  tidy := ht
  contained := contained_agree chain' ha hc
  hidden n hn := h.hidden n (hsub.subset hn)

theorem head (h : Situated (step :: rest) place s) : Situated [step] place s := by
  refine h.part ?_ ⟨h.contained.1, trivial⟩ h.tidy fun _ _ => rfl
  rw [names_cons, names_cons]
  exact (List.Sublist.refl _).append (List.nil_sublist _)

/-- After a step was walked, the rest of the chain is situated. -/
theorem tail (h : Situated (step :: rest) place s) (hs : Changes (stepRegion step).names s s₁) :
    Situated rest place s₁ := by
  have hnd := h.nodup
  rw [names_cons] at hnd
  refine h.part ?_ h.contained.2 hs.tidy fun n hn => hs.frame n fun hn' => ?_
  · rw [names_cons]
    exact List.sublist_append_right _ _
  · exact List.disjoint_of_nodup_append hnd hn' hn

theorem ne_of_mem_inside (h : Situated (step :: rest) place s)
    (hsub : (step.name :: (chainRegion chain').names).Sublist (stepRegion step).names) {n : String}
    (hn : n ∈ (chainRegion chain').names) : n ≠ step.name := by
  have hnd := h.nodup.sublist (names_sublist_cons rest hsub)
  rintro rfl
  exact (List.nodup_cons.mp hnd).1 hn

/-- A chain inside a step is situated on the same level. -/
theorem inside (h : Situated (step :: rest) place s) (ht : s₁.steps.Tidy)
    (hsub : (step.name :: (chainRegion chain').names).Sublist (stepRegion step).names)
    (hc : Contained chain' s.steps)
    (hother : ∀ n, n ≠ step.name → s₁.steps.get? n = s.steps.get? n) : Situated chain' place s₁ :=
  h.part ((List.sublist_cons_self _ _).trans (names_sublist_cons rest hsub)) hc ht
    fun n hn => hother n (h.ne_of_mem_inside hsub hn)

/-- If a chain has no records, then the chains inside its first step have none, whatever is recorded of
the first step itself. -/
theorem fresh_inside (h : Situated (step :: rest) place s)
    (hf : Fresh (chainRegion (step :: rest)).names s.steps)
    (hsub : (step.name :: (chainRegion chain').names).Sublist (stepRegion step).names)
    (hother : ∀ n, n ≠ step.name → s₁.steps.get? n = s.steps.get? n) :
    Fresh (chainRegion chain').names s₁.steps := fun n hn =>
  (hother n (h.ne_of_mem_inside hsub hn)).trans
    (hf n ((names_sublist_cons rest hsub).subset (List.mem_cons_of_mem _ hn)))

/-- After the decision of a branch, its sides are situated. -/
theorem side (h : Situated (.branch label c onSuccess onFailure :: rest) place s) {holds : Bool}
    (hs : s₁ = s ∨ ∃ summary, s₁ = s.upsert label.name (.branch summary holds)) :
    Situated onSuccess place s₁ ∧ Situated onFailure place s₁ ∧
      ∀ n, n ≠ label.name → s₁.steps.get? n = s.steps.get? n := by
  have hc := h.contained.1
  rw [StepContained] at hc
  have ht : s₁.steps.Tidy := by
    rcases hs with rfl | ⟨summary, rfl⟩
    · exact h.tidy
    · exact h.tidy.insert _ (by rintro its k ⟨⟩)
  have hother (n : String) (hn : n ≠ label.name) : s₁.steps.get? n = s.steps.get? n := by
    rcases hs with rfl | ⟨summary, rfl⟩
    · rfl
    · exact StepMap.get?_insert_of_ne _ _ hn.symm
  exact ⟨h.inside ht (success_sublist label c onSuccess onFailure) hc.1 hother,
    h.inside ht (failure_sublist label c onSuccess onFailure) hc.2 hother, hother⟩

/-- In a split that is not finished, every branch is situated. -/
theorem branch {settings : SplitSettings} {branches : List (SplitBranch × List Step)}
    {b : SplitBranch × List Step} (h : Situated (.split label settings branches :: rest) place s)
    (hopen : finished (s.steps.get? label.name) = false) (hb : b ∈ branches) (input : Json)
    (taken : List String) : Situated b.2 place (splitBase s label.name input taken) := by
  have hc := h.contained.1
  rw [StepContained] at hc
  exact h.inside (splitBase_tidy h.tidy) (taken_sublist label settings hb) ((hc hopen).2.of_mem hb)
    fun n hn => splitBase_other s input taken hn

/-- In a loop that is not finished, the body is situated in every iteration. -/
theorem iteration {settings : LoopSettings} (h : Situated (.loop label settings body :: rest) place s)
    (hopen : finished (s.steps.get? label.name) = false) {kept : StepMap}
    (hkept : kept = [] ∨ ∃ r its, s.steps.get? label.name = some r ∧ r.iterations? = some its ∧
      kept ∈ its) (r : StepRecord) (cursor : Template.Cursor) :
    Situated body (place.enter (s.upsert label.name r) label.name cursor) (s.nested kept) ∧
      ∀ n ∈ kept.names, n ∈ (chainRegion body).names := by
  have hc := h.contained.1
  have hnd := h.nodup
  have hhidden := h.hidden
  rw [StepContained] at hc
  rw [names_cons, stepRegion, Region.loop_names] at hnd hhidden
  obtain ⟨hname, hnd⟩ := List.nodup_cons.mp hnd
  obtain ⟨hfresh, hits⟩ := hc
  have hlevel : ∀ n ∈ (chainRegion body).names,
      (place.enter (s.upsert label.name r) label.name cursor).around.step? n = none := by
    intro n hn
    have hn' : n ∈ label.name :: (chainRegion body).names ++ (chainRegion rest).names :=
      List.mem_cons_of_mem _ (List.mem_append_left _ hn)
    have hne : label.name ≠ n := by
      rintro rfl
      exact hname (List.mem_append_left _ hn)
    change (place.scope (s.upsert label.name r)).step? n = none
    rw [Place.step?_scope, hhidden n hn', Option.or_none]
    exact (StepMap.get?_insert_of_ne _ _ hne).trans (hfresh n hn)
  have hbody : (chainRegion body).names.Nodup := hnd.sublist (List.sublist_append_left _ _)
  obtain rfl | ⟨prior, its, hprior, hrec, hmem⟩ := hkept
  · exact ⟨⟨hbody, StepMap.tidy_nil, contained_fresh fun _ _ => rfl, hlevel⟩, by rintro n ⟨⟩⟩
  · obtain ⟨hkeyed, hc⟩ := hits hopen prior its kept hprior hrec hmem
    exact ⟨⟨hbody, h.tidy.inner hprior hrec hmem, hc, hlevel⟩, hkeyed⟩

end Situated

/-- Where a walk comes to a step, the step is situated, and sees what was seen at the beginning, apart
from records of the chain that is walked. -/
theorem Visits.situated (h : Visits setup chain place s x p m) (hs : Situated chain place s) :
    Situated [x] p m ∧ ∀ n ∉ (chainRegion chain).names,
      (p.scope m).step? n = (place.scope s).step? n := by
  induction h with
  | here => exact ⟨hs.head, fun _ _ => rfl⟩
  | @later step rest place s t s₁ x p m first running next ih =>
    have hchanges : Changes (stepRegion step).names s s₁ :=
      (changesOwn_inductive setup).step step place s t s₁ hs.tidy first
    obtain ⟨hx, hsees⟩ := ih (hs.tail hchanges)
    refine ⟨hx, fun n hn => ?_⟩
    rw [names_cons, List.mem_append, not_or] at hn
    exact (hsees n hn.2).trans (Place.step?_scope_congr (hchanges.frame n hn.1))
  | @success label c onSuccess onFailure rest place s s₁ x p m entered inside ih =>
    obtain ⟨hside, -, hother⟩ := hs.side entered
    obtain ⟨hx, hsees⟩ := ih hside
    refine ⟨hx, fun n hn => ?_⟩
    simp only [names_cons, stepRegion, Region.branch_names, List.mem_cons, List.mem_append,
      not_or] at hn
    exact (hsees n hn.1.2.1).trans (Place.step?_scope_congr (hother n hn.1.1))
  | @failure label c onSuccess onFailure rest place s s₁ x p m entered inside ih =>
    obtain ⟨-, hside, hother⟩ := hs.side entered
    obtain ⟨hx, hsees⟩ := ih hside
    refine ⟨hx, fun n hn => ?_⟩
    simp only [names_cons, stepRegion, Region.branch_names, List.mem_cons, List.mem_append,
      not_or] at hn
    exact (hsees n hn.1.2.2).trans (Place.step?_scope_congr (hother n hn.1.1))
  | @split label settings branches rest place s input taken b steps x p m opened branch inside ih =>
    obtain ⟨hx, hsees⟩ := ih (hs.branch opened branch input taken)
    refine ⟨hx, fun n hn => ?_⟩
    simp only [names_cons, stepRegion, Region.split_names, List.mem_cons, List.mem_append,
      not_or] at hn
    have hn' : n ∉ (chainRegion steps).names := fun h =>
      hn.1.2 ((branchNames_sublist branch).subset h)
    exact (hsees n hn').trans (Place.step?_scope_congr (splitBase_other s input taken hn.1.1))
  | @loop label settings body rest place s r item index kept x p m opened recorded inside ih =>
    obtain ⟨hbody, hkeyed⟩ := hs.iteration opened recorded r ⟨item, index⟩
    obtain ⟨hx, hsees⟩ := ih hbody
    refine ⟨hx, fun n hn => ?_⟩
    simp only [names_cons, stepRegion, Region.loop_names, List.mem_cons, List.mem_append,
      not_or] at hn
    have hkept : (s.nested kept).steps.get? n = none :=
      StepMap.get?_eq_none_iff.mpr fun h => hn.1.2 (hkeyed n h)
    rw [hsees n hn.1.2, Place.step?_enter hkept]
    exact Place.step?_scope_congr (StepMap.get?_insert_of_ne _ _ (Ne.symm hn.1.1))

/-- In a walk that begins without records of its chain, a step has no record when the walk comes to it,
and neither have the steps inside it. -/
theorem Visits.fresh (h : Visits setup chain place s x p m) (hs : Situated chain place s)
    (hf : Fresh (chainRegion chain).names s.steps) : Fresh (stepRegion x).names m.steps := by
  induction h with
  | @here step rest place s =>
    rw [names_cons] at hf
    exact hf.mono (List.subset_append_left _ _)
  | @later step rest place s t s₁ x p m first running next ih =>
    have hchanges : Changes (stepRegion step).names s s₁ :=
      (changesOwn_inductive setup).step step place s t s₁ hs.tidy first
    have hnd := hs.nodup
    rw [names_cons] at hnd hf
    refine ih (hs.tail hchanges) fun n hn => (hchanges.frame n fun hn' => ?_).trans
      (hf n (List.mem_append_right _ hn))
    exact List.disjoint_of_nodup_append hnd hn' hn
  | @success label c onSuccess onFailure rest place s s₁ x p m entered inside ih =>
    obtain ⟨hside, -, hother⟩ := hs.side entered
    exact ih hside (hs.fresh_inside hf (success_sublist label c onSuccess onFailure) hother)
  | @failure label c onSuccess onFailure rest place s s₁ x p m entered inside ih =>
    obtain ⟨-, hside, hother⟩ := hs.side entered
    exact ih hside (hs.fresh_inside hf (failure_sublist label c onSuccess onFailure) hother)
  | @split label settings branches rest place s input taken b steps x p m opened branch inside ih =>
    exact ih (hs.branch opened branch input taken) (hs.fresh_inside hf
      (taken_sublist label settings branch) fun n hn => splitBase_other s input taken hn)
  | @loop label settings body rest place s r item index kept x p m opened recorded inside ih =>
    obtain rfl : kept = [] := by
      refine recorded.resolve_right fun ⟨prior, its, hprior, _⟩ => ?_
      have hnone := hf label.name (by
        rw [names_cons, stepRegion, Region.loop_names]
        exact List.mem_cons_self)
      cases hnone.symm.trans hprior
    exact ih (hs.iteration opened recorded r ⟨item, index⟩).1 fun _ _ => rfl

/-! ## Branches of splits -/

/-- A step in a branch of a split sees of a step in another branch what could be seen where the walk
came to the split. If the split had no record there, this is nothing. -/
theorem VisitsBranch.sibling {settings : SplitSettings} {branches : List (SplitBranch × List Step)}
    {b b' : SplitBranch × List Step} {q : Place}
    (h : VisitsBranch setup chain place s label settings branches p m b x q s₁)
    (hs : Situated chain place s) (hb' : b' ∈ branches) (hne : b' ≠ b) {n : String}
    (hn : n ∈ (chainRegion b'.2).names) :
    (q.scope s₁).step? n = (p.scope m).step? n ∧
      (m.steps.get? label.name = none → (q.scope s₁).step? n = none) := by
  obtain ⟨input, taken, hinside⟩ := h.inside
  have hsplit := (h.split.situated hs).1
  have hbranch := hsplit.branch h.opened h.branch input taken
  have hc := hsplit.contained.1
  have hnd := hsplit.nodup
  have hhidden := hsplit.hidden
  rw [StepContained] at hc
  rw [names_cons, stepRegion, Region.split_names] at hnd hhidden
  obtain ⟨hname, hnd⟩ := List.nodup_cons.mp hnd
  have hmem : n ∈ Region.branchNames (branchRegions branches) := (branchNames_sublist hb').subset hn
  have hother : n ∉ (chainRegion b.2).names := fun hn' =>
    hne (branch_eq_of_mem (hnd.sublist (List.sublist_append_left _ _)) hb' h.branch hn hn')
  have hlabel : n ≠ label.name := by
    rintro rfl
    exact hname (List.mem_append_left _ hmem)
  have hsees : (q.scope s₁).step? n = (p.scope m).step? n :=
    ((hinside.situated hbranch).2 n hother).trans
      (Place.step?_scope_congr (splitBase_other m input taken hlabel))
  refine ⟨hsees, fun hnone => ?_⟩
  have haround : p.around.step? n = none :=
    hhidden n (List.mem_cons_of_mem _ (List.mem_append_left _ hmem))
  rw [hsees, Place.step?_scope, haround, Option.or_none]
  exact (hc h.opened).1 hnone n hmem

end FlowEngine.Engine
