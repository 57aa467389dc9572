import FlowEngine.Proofs.Walk.Chain

/-!
# The steps that a run selects

The records of a run tell which of its steps are walked: the decision of a branch selects one of its
sides, and a split selects the branches that it took. The body of a loop is walked on levels of its
own, one for each item.

* `selected` — the steps of one level that are walked, in the order of the flow.
* `Exact` — the selected steps and no others have records, and these are the records of steps that
  are done.
* `InOrder` — the records are in the order of the flow.
-/

namespace FlowEngine.Engine

open FlowEngine.Run FlowEngine.Flow

mutual

/-- The steps of a chain that are walked on its level: every step of the chain, each followed by the
steps that are selected inside it. -/
def selected (m : StepMap) : List Step → List Step
  | [] => []
  | step :: rest => step :: (selectedInside m step ++ selected m rest)

/-- The steps inside a step that are walked on its level: of a branch one side, of a split the
branches that were taken. -/
def selectedInside (m : StepMap) : Step → List Step
  | .branch l _ onSuccess onFailure =>
    if (m.get? l.name).bind StepRecord.holds? = some true then selected m onSuccess
    else selected m onFailure
  | .split l _ branches =>
    selectedBranches m (((m.get? l.name).bind StepRecord.taken?).getD []) branches
  | .trigger _ _ | .action _ _ | .loop _ _ _ => []

/-- The steps that are walked in the branches of a split that were taken. -/
def selectedBranches (m : StepMap) (taken : List String) :
    List (SplitBranch × List Step) → List Step
  | [] => []
  | (b, steps) :: rest =>
    (if b.name ∈ taken then selected m steps else []) ++ selectedBranches m taken rest

end

theorem selectedInside_branch {m : StepMap} {l : Label} {summary : Summary} {holds : Bool}
    (hr : m.get? l.name = some (.branch summary holds)) (c : ConditionSet)
    (onSuccess onFailure : List Step) : selectedInside m (.branch l c onSuccess onFailure) =
      if holds then selected m onSuccess else selected m onFailure := by
  rw [selectedInside, hr, Option.bind_some, StepRecord.holds?]
  cases holds <;> rfl

theorem selectedInside_split {m : StepMap} {l : Label} {summary : Summary} {taken : List String}
    (hr : m.get? l.name = some (.split summary taken)) (settings : SplitSettings)
    (branches : List (SplitBranch × List Step)) :
    selectedInside m (.split l settings branches) = selectedBranches m taken branches := by
  rw [selectedInside, hr]
  rfl

/-- The record of a step that is done: it succeeded, or it is an action that failed and the run may go
on without it. A loop has a map for every item. -/
def Completed : Step → StepRecord → Prop
  | .action _ a, .action summary _ =>
    summary.status = .succeeded ∨ summary.status = .failed ∧ a.errorHandling.continues = true
  | .branch _ _ _ _, .branch summary _ => summary.status = .succeeded
  | .split _ _ _, .split summary _ => summary.status = .succeeded
  | .loop _ _ _, .loop summary _ _ its => summary.status = .succeeded ∧
    ∃ items, summary.input = .obj [("items", .arr items)] ∧ its.length = items.length
  | _, _ => False

/-- A map has records of the selected steps of a chain and of some steps before it, and of no others.
Every selected step is done, and so are the iterations of all loops. -/
inductive Exact : (before : List String) → List Step → StepMap → Prop
  | intro {before chain m} (names : m.names.Perm (before ++ (selected m chain).map Step.name))
    (records : ∀ step ∈ selected m chain, ∃ r, m.get? step.name = some r ∧ Completed step r)
    (inner : ∀ l settings body summary item index its, .loop l settings body ∈ selected m chain →
      m.get? l.name = some (.loop summary item index its) → ∀ k ∈ its, Exact [] body k) :
    Exact before chain m

/-- The records of a map are in the order in which the flow lists the selected steps, and so are those
of the iterations of all loops. -/
inductive InOrder : (before : List String) → List Step → StepMap → Prop
  | intro {before chain m} (names : m.names = before ++ (selected m chain).map Step.name)
    (inner : ∀ l settings body summary item index its, .loop l settings body ∈ selected m chain →
      m.get? l.name = some (.loop summary item index its) → ∀ k ∈ its, InOrder [] body k) :
    InOrder before chain m

/-! ## Selected steps are steps of the flow -/

mutual

/-- The selected steps of a chain are in the order of the flow. -/
theorem selected_sublist (m : StepMap) : ∀ chain : List Step,
    (selected m chain).Sublist (chainRegion chain).steps
  | [] => List.nil_sublist _
  | step :: rest => by
    rw [selected, chainRegion]
    exact (selectedInside_sublist m step).append (selected_sublist m rest)

theorem selectedInside_sublist (m : StepMap) : ∀ step : Step,
    (step :: selectedInside m step).Sublist (stepRegion step).steps
  | .trigger l t => .refl _
  | .action l a => .refl _
  | .branch l c onSuccess onFailure => by
    rw [selectedInside, stepRegion]
    refine List.Sublist.cons_cons _ ?_
    split_ifs
    · exact (selected_sublist m onSuccess).trans (List.sublist_append_left _ _)
    · exact (selected_sublist m onFailure).trans (List.sublist_append_right _ _)
  | .split l settings branches => by
    rw [selectedInside, stepRegion]
    exact List.Sublist.cons_cons _ (selectedBranches_sublist m _ branches)
  | .loop l settings body => List.Sublist.cons_cons _ (List.nil_sublist _)

theorem selectedBranches_sublist (m : StepMap) (taken : List String) :
    ∀ branches : List (SplitBranch × List Step),
      (selectedBranches m taken branches).Sublist
        ((branchRegions branches).flatMap fun x => x.2.steps)
  | [] => List.nil_sublist _
  | (b, steps) :: rest => by
    rw [selectedBranches, branchRegions, List.flatMap_cons]
    refine List.Sublist.append ?_ (selectedBranches_sublist m taken rest)
    split_ifs
    · exact selected_sublist m steps
    · exact List.nil_sublist _

end

/-- The names of the selected steps are names of steps of the chain. -/
theorem selected_names_subset (m : StepMap) (chain : List Step) :
    (selected m chain).map Step.name ⊆ (chainRegion chain).names :=
  ((selected_sublist m chain).map Step.name).subset

/-! ## Which steps are selected depends on the records of the chain only -/

mutual

theorem selected_congr {m m' : StepMap} : ∀ chain : List Step,
    Agree (chainRegion chain).names m m' → selected m' chain = selected m chain
  | [], _ => rfl
  | step :: rest, h => by
    rw [names_cons] at h
    rw [selected, selected, selectedInside_congr step (h.mono (List.subset_append_left _ _)),
      selected_congr rest (h.mono (List.subset_append_right _ _))]

theorem selectedInside_congr {m m' : StepMap} : ∀ step : Step,
    Agree (stepRegion step).names m m' → selectedInside m' step = selectedInside m step
  | .trigger _ _, _ => rfl
  | .action _ _, _ => rfl
  | .branch l c onSuccess onFailure, h => by
    rw [stepRegion, Region.branch_names] at h
    have hsides := h.mono (List.subset_cons_self _ _)
    rw [selectedInside, selectedInside, h l.name List.mem_cons_self,
      selected_congr onSuccess (hsides.mono (List.subset_append_left _ _)),
      selected_congr onFailure (hsides.mono (List.subset_append_right _ _))]
  | .split l settings branches, h => by
    rw [stepRegion, Region.split_names] at h
    rw [selectedInside, selectedInside, h l.name List.mem_cons_self,
      selectedBranches_congr _ branches (h.mono (List.subset_cons_self _ _))]
  | .loop _ _ _, _ => rfl

theorem selectedBranches_congr {m m' : StepMap} (taken : List String) :
    ∀ branches : List (SplitBranch × List Step),
      Agree (Region.branchNames (branchRegions branches)) m m' →
        selectedBranches m' taken branches = selectedBranches m taken branches
  | [], _ => rfl
  | (b, steps) :: rest, h => by
    rw [branchRegions, Region.branchNames, List.flatMap_cons] at h
    rw [selectedBranches, selectedBranches,
      selected_congr steps (h.mono (List.subset_append_left _ _)),
      selectedBranches_congr taken rest (h.mono (List.subset_append_right _ _))]

end

end FlowEngine.Engine
