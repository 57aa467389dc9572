import FlowEngine.Proofs.Walk.Chain

/-!
# Steps inside steps

The steps of a flow have names of their own, so a step that is in a branch of a split is in no other
part of the flow. On the way to it one comes through the split.

* `steps_subset` — what is inside a step is where the step is.
* `Inside` — a step inside a step that is somewhere in a chain; `Inside.later` and the lemmas after it
  follow it into the part of the chain that it is in.
* `InBranch` — the same for a step in a branch of a split.
-/

namespace FlowEngine.Engine

open FlowEngine.Run FlowEngine.Flow

variable {rest onSuccess onFailure : List Step} {step x : Step} {label l : Label}
  {settings : SplitSettings} {branches : List (SplitBranch × List Step)}
  {b b' : SplitBranch × List Step}

/-! ## Branches -/

/-- A name is that of a step in one branch of a split only. -/
theorem branch_eq_of_mem (h : (Region.branchNames (branchRegions branches)).Nodup)
    (hb : b ∈ branches) (hb' : b' ∈ branches) {n : String} (hn : n ∈ (chainRegion b.2).names)
    (hn' : n ∈ (chainRegion b'.2).names) : b = b' := by
  rw [branchNames_eq] at h
  exact eq_of_mem_of_nodup h hb hb' hn hn'

theorem mem_branchSteps :
    x ∈ ((branchRegions branches).flatMap fun part => part.2.steps) ↔
      ∃ b ∈ branches, x ∈ (chainRegion b.2).steps := by
  rw [branchRegions_eq, List.flatMap_map, List.mem_flatMap]

theorem stepRegion_steps_eq (step : Step) :
    (stepRegion step).steps = step :: (stepRegion step).steps.tail := by
  cases step <;> rfl

theorem steps_hereditary (step : Step) : Hereditary
    (fun chain => step ∈ (chainRegion chain).steps →
      (stepRegion step).steps ⊆ (chainRegion chain).steps)
    fun outer => step ∈ (stepRegion outer).steps.tail →
      (stepRegion step).steps ⊆ (stepRegion outer).steps.tail where
  nil h := by cases h
  cons first rest hfirst hrest h := by
    rw [steps_cons] at h ⊢
    rcases List.mem_append.mp h with h | h
    · rw [stepRegion_steps_eq first] at h
      rcases List.mem_cons.mp h with rfl | h
      · exact List.subset_append_left _ _
      · exact List.subset_append_of_subset_left _
          (List.Subset.trans (hfirst h) (List.tail_sublist _).subset)
    · exact List.subset_append_of_subset_right _ (hrest h)
  trigger _ _ h := by cases h
  action _ _ h := by cases h
  branch l c onSuccess onFailure hsuccess hfailure h := by
    rw [stepRegion] at h ⊢
    rcases List.mem_append.mp h with h | h
    · exact List.subset_append_of_subset_left _ (hsuccess h)
    · exact List.subset_append_of_subset_right _ (hfailure h)
  split l _ branches hbranches h := by
    rw [stepRegion] at h ⊢
    obtain ⟨b, hb, h⟩ := mem_branchSteps.mp h
    exact fun x hx => mem_branchSteps.mpr ⟨b, hb, hbranches b hb h hx⟩
  loop l _ body hbody h := by
    rw [stepRegion] at h ⊢
    exact hbody h

/-- What is inside a step is inside every chain that the step is in. -/
theorem steps_subset (chain : List Step) (h : step ∈ (chainRegion chain).steps) :
    (stepRegion step).steps ⊆ (chainRegion chain).steps :=
  (steps_hereditary step).chain chain h

/-- What is inside a step is inside every other step that the step is inside of. -/
theorem inside_subset (outer : Step) (h : step ∈ (stepRegion outer).steps.tail) :
    (stepRegion step).steps ⊆ (stepRegion outer).steps.tail :=
  (steps_hereditary step).step outer h

/-- A step that is in one of two parts of a flow is not in the other one. Thus a step is in the part
that the steps inside it are in. -/
theorem mem_part {L A B : List Step} {outer : Step} (hparts : L.Perm (A ++ B))
    (hnd : (L.map Step.name).Nodup) (hx : x ∈ A) (houter : outer ∈ L)
    (hinside : outer ∈ B → x ∈ B) : outer ∈ A ∧ (A.map Step.name).Nodup := by
  rw [(hparts.map Step.name).nodup_iff, List.map_append] at hnd
  refine ⟨(List.mem_append.mp (hparts.mem_iff.mp houter)).resolve_right fun h => ?_,
    (List.nodup_append.mp hnd).1⟩
  exact List.disjoint_of_nodup_append hnd (List.mem_map_of_mem hx) (List.mem_map_of_mem (hinside h))

/-! ## Ways into a chain -/

section

variable {c : ConditionSet} {steps : List Step} {loop : LoopSettings}

theorem mem_first (step : Step) (rest : List Step) : step ∈ (chainRegion (step :: rest)).steps := by
  rw [steps_cons, stepRegion_steps_eq]
  exact List.mem_cons_self

theorem mem_later (h : x ∈ (chainRegion rest).steps) : x ∈ (chainRegion (step :: rest)).steps := by
  rw [steps_cons]
  exact List.mem_append_right _ h

theorem mem_inside (h : x ∈ (stepRegion step).steps.tail) :
    x ∈ (chainRegion (step :: rest)).steps := by
  rw [steps_cons]
  exact List.mem_append_left _ ((List.tail_sublist _).subset h)

theorem mem_success (h : x ∈ (chainRegion onSuccess).steps) :
    x ∈ (chainRegion (.branch l c onSuccess onFailure :: rest)).steps :=
  mem_inside (List.mem_append_left _ h)

theorem mem_failure (h : x ∈ (chainRegion onFailure).steps) :
    x ∈ (chainRegion (.branch l c onSuccess onFailure :: rest)).steps :=
  mem_inside (List.mem_append_right _ h)

theorem mem_branch (hb : b ∈ branches) (h : x ∈ (chainRegion b.2).steps) :
    x ∈ (chainRegion (.split l settings branches :: rest)).steps :=
  mem_inside (mem_branchSteps.mpr ⟨b, hb, h⟩)

theorem mem_body (h : x ∈ (chainRegion steps).steps) :
    x ∈ (chainRegion (.loop l loop steps :: rest)).steps :=
  mem_inside h

end

/-- A step is inside another one, which is somewhere in a chain whose steps have names of their own. -/
structure Inside (chain : List Step) (outer x : Step) : Prop where
  distinct : (chainRegion chain).names.Nodup
  mem : outer ∈ (chainRegion chain).steps
  inside : x ∈ (stepRegion outer).steps.tail

namespace Inside

variable {outer : Step} {c : ConditionSet} {loop : LoopSettings} {steps : List Step}

/-- The inner step is wherever the outer one is. -/
theorem inner (h : Inside rest outer x) {chain : List Step} (hmem : outer ∈ (chainRegion chain).steps) :
    x ∈ (chainRegion chain).steps :=
  steps_subset chain hmem ((List.tail_sublist _).subset h.inside)

/-- If the inner step is in the first step of the chain, then so is the outer one. -/
theorem head (h : Inside (step :: rest) outer x) (hx : x ∈ (stepRegion step).steps) :
    outer ∈ (stepRegion step).steps ∧ (stepRegion step).names.Nodup :=
  mem_part (.of_eq (steps_cons step rest)) h.distinct hx h.mem h.inner

/-- The inner step is not the first one of the chain, which would be inside itself. -/
theorem not_first (h : Inside (x :: rest) outer x) : False := by
  obtain ⟨hmem, hnd⟩ := h.head (stepRegion_steps_eq x ▸ List.mem_cons_self)
  rw [Region.names, stepRegion_steps_eq] at hnd
  rw [stepRegion_steps_eq] at hmem
  refine (List.nodup_cons.mp hnd).1 (List.mem_map_of_mem ?_)
  rcases List.mem_cons.mp hmem with rfl | hmem
  · exact h.inside
  · exact inside_subset x hmem ((List.tail_sublist _).subset h.inside)

theorem later (h : Inside (step :: rest) outer x) (hx : x ∈ (chainRegion rest).steps) :
    Inside rest outer x := by
  have hparts : (chainRegion (step :: rest)).steps.Perm
      ((chainRegion rest).steps ++ (stepRegion step).steps) := by
    rw [steps_cons]
    exact List.perm_append_comm
  obtain ⟨hmem, hnd⟩ := mem_part hparts h.distinct hx h.mem fun hmem => by
    rw [← descendants_singleton, ← chainRegion_steps] at hmem ⊢
    exact h.inner hmem
  exact ⟨hnd, hmem, h.inside⟩

theorem success (h : Inside (.branch l c onSuccess onFailure :: rest) outer x)
    (hx : x ∈ (chainRegion onSuccess).steps) :
    outer = .branch l c onSuccess onFailure ∨ Inside onSuccess outer x := by
  obtain ⟨hmem, hnd⟩ := h.head (List.mem_cons_of_mem _ (List.mem_append_left _ hx))
  rcases List.mem_cons.mp hmem with heq | hmem
  · exact .inl heq
  · obtain ⟨hmem, hnd⟩ := mem_part (.refl _) (List.nodup_cons.mp hnd).2 hx hmem h.inner
    exact .inr ⟨hnd, hmem, h.inside⟩

theorem failure (h : Inside (.branch l c onSuccess onFailure :: rest) outer x)
    (hx : x ∈ (chainRegion onFailure).steps) :
    outer = .branch l c onSuccess onFailure ∨ Inside onFailure outer x := by
  obtain ⟨hmem, hnd⟩ := h.head (List.mem_cons_of_mem _ (List.mem_append_right _ hx))
  rcases List.mem_cons.mp hmem with heq | hmem
  · exact .inl heq
  · obtain ⟨hmem, hnd⟩ :=
      mem_part List.perm_append_comm (List.nodup_cons.mp hnd).2 hx hmem h.inner
    exact .inr ⟨hnd, hmem, h.inside⟩

theorem body (h : Inside (.loop l loop steps :: rest) outer x) (hx : x ∈ (chainRegion steps).steps) :
    outer = .loop l loop steps ∨ Inside steps outer x := by
  obtain ⟨hmem, hnd⟩ := h.head (List.mem_cons_of_mem _ hx)
  rcases List.mem_cons.mp hmem with heq | hmem
  · exact .inl heq
  · exact .inr ⟨(List.nodup_cons.mp hnd).2, hmem, h.inside⟩

theorem part (h : Inside (.split l settings branches :: rest) outer x) (hb : b ∈ branches)
    (hx : x ∈ (chainRegion b.2).steps) :
    outer = .split l settings branches ∨ Inside b.2 outer x := by
  obtain ⟨hmem, hnd⟩ := h.head (List.mem_cons_of_mem _ (mem_branchSteps.mpr ⟨_, hb, hx⟩))
  rw [stepRegion, Region.split_names] at hnd
  have hnames := (List.nodup_cons.mp hnd).2
  rcases List.mem_cons.mp hmem with heq | hmem
  · exact .inl heq
  · obtain ⟨b', hb', hmem⟩ := mem_branchSteps.mp hmem
    obtain rfl : b' = b := branch_eq_of_mem hnames hb' hb (List.mem_map_of_mem (h.inner hmem))
      (List.mem_map_of_mem hx)
    exact .inr ⟨hnames.sublist (branchNames_sublist hb), hmem, h.inside⟩

end Inside

/-- A step is in a branch of a split, and the split is somewhere in a chain whose steps have names of
their own. -/
structure InBranch (chain : List Step) (label : Label) (settings : SplitSettings)
    (branches : List (SplitBranch × List Step)) (b : SplitBranch × List Step) (x : Step) : Prop where
  distinct : (chainRegion chain).names.Nodup
  split : .split label settings branches ∈ (chainRegion chain).steps
  branch : b ∈ branches
  inside : x ∈ (chainRegion b.2).steps

namespace InBranch

/-- A step in a branch of a split is inside the split. -/
theorem within (h : InBranch rest label settings branches b x) :
    Inside rest (.split label settings branches) x :=
  ⟨h.distinct, h.split, mem_branchSteps.mpr ⟨b, h.branch, h.inside⟩⟩

/-- Where the step is inside the split, it is in the branch. -/
theorem of_within (h : InBranch rest label settings branches b x) {chain : List Step}
    (hw : Inside chain (.split label settings branches) x) :
    InBranch chain label settings branches b x :=
  ⟨hw.distinct, hw.mem, h.branch, h.inside⟩

theorem not_first (h : InBranch (x :: rest) label settings branches b x) : False :=
  h.within.not_first

theorem later (h : InBranch (step :: rest) label settings branches b x)
    (hx : x ∈ (chainRegion rest).steps) : InBranch rest label settings branches b x :=
  h.of_within (h.within.later hx)

theorem success {c : ConditionSet}
    (h : InBranch (.branch l c onSuccess onFailure :: rest) label settings branches b x)
    (hx : x ∈ (chainRegion onSuccess).steps) : InBranch onSuccess label settings branches b x :=
  h.of_within ((h.within.success hx).resolve_left (by rintro ⟨⟩))

theorem failure {c : ConditionSet}
    (h : InBranch (.branch l c onSuccess onFailure :: rest) label settings branches b x)
    (hx : x ∈ (chainRegion onFailure).steps) : InBranch onFailure label settings branches b x :=
  h.of_within ((h.within.failure hx).resolve_left (by rintro ⟨⟩))

theorem body {outer : LoopSettings} {steps : List Step}
    (h : InBranch (.loop l outer steps :: rest) label settings branches b x)
    (hx : x ∈ (chainRegion steps).steps) : InBranch steps label settings branches b x :=
  h.of_within ((h.within.body hx).resolve_left (by rintro ⟨⟩))

/-- In a branch of another split it is further inside; if the split is the same one, then so is the
branch. -/
theorem part {outer : SplitSettings} {others : List (SplitBranch × List Step)}
    (h : InBranch (.split l outer others :: rest) label settings branches b x) (hb : b' ∈ others)
    (hx : x ∈ (chainRegion b'.2).steps) :
    (Step.split label settings branches = .split l outer others ∧ b = b') ∨
      InBranch b'.2 label settings branches b x := by
  refine (h.within.part hb hx).imp (fun heq => ⟨heq, ?_⟩) h.of_within
  cases heq
  have hnd := (h.within.head (List.mem_cons_of_mem _ (mem_branchSteps.mpr ⟨_, hb, hx⟩))).2
  rw [stepRegion, Region.split_names] at hnd
  exact branch_eq_of_mem (List.nodup_cons.mp hnd).2 h.branch hb (List.mem_map_of_mem h.inside)
    (List.mem_map_of_mem hx)

end InBranch

end FlowEngine.Engine
