import FlowEngine.Proofs.Walk.Action
import FlowEngine.Proofs.Walk.Branch
import FlowEngine.Proofs.Walk.Loop
import FlowEngine.Proofs.Walk.Split

/-!
# Walking a chain

Every chain of steps is a region, put together from those of its steps.

* `chainRegion`, `stepRegion` — the regions of chains and steps.
* `Hereditary` — properties of chains and steps that pass from their parts to the whole, hence hold of
  all; `HereditaryDistinct` — of all in which no two steps have the same name.
* `walk_follows` — a walk of a chain, of whatever shape, goes through its region.
* `Inductive.chain` — the walk of a chain, with its region, has a property that all kinds of steps pass
  on.
* `InductiveUnsplit.chain` — so does the walk of a chain without splits, if the other kinds pass it on.
-/

namespace FlowEngine.Engine

open FlowEngine.Run FlowEngine.Flow

/-- A step that no walk passes. -/
def Region.barrier (step : Step) : Region where
  steps := [step]
  complete _ := False
  stage q m := q = none ∧ m.get? step.name = none
  complete_agree _ h := h
  stage_agree {q m m'} ha h := ⟨h.1, (ha _ (by simp)).trans h.2⟩
  stage_fresh h := ⟨rfl, h _ (by simp)⟩
  stage_complete h := h.elim
  root_mem h := by cases h.1
  quiet _ h n hn _ r hr := by
    obtain rfl := List.mem_singleton.mp hn
    rw [h.2] at hr
    cases hr
  paused _ h := by cases h.1
  withdrawn _ h := by cases h.1

mutual

/-- The region of a chain. -/
def chainRegion : List Step → Region
  | [] => .nil
  | step :: rest => (stepRegion step).seq (chainRegion rest)

/-- The region of a step. -/
def stepRegion : Step → Region
  | .trigger l t => .barrier (.trigger l t)
  | .action l a => .action (.action l a)
  | .branch l c onSuccess onFailure =>
    .branch (.branch l c onSuccess onFailure) (chainRegion onSuccess) (chainRegion onFailure)
  | .split l settings branches => .split (.split l settings branches) (branchRegions branches)
  | .loop l settings body => .loop (.loop l settings body) (chainRegion body)

/-- The names and regions of the branches of a split. -/
def branchRegions : List (SplitBranch × List Step) → List (String × Region)
  | [] => []
  | (b, steps) :: rest => (b.name, chainRegion steps) :: branchRegions rest

end

/-! ## The steps of a region -/

mutual

theorem chainRegion_steps : ∀ chain : List Step, (chainRegion chain).steps = descendants chain
  | [] => by simp [chainRegion, Region.nil, descendants_eq, places]
  | step :: rest => by
    rw [chainRegion, descendants_cons, ← chainRegion_steps rest, ← List.cons_append,
      ← stepRegion_steps step]
    rfl

theorem stepRegion_steps : ∀ step : Step,
    (stepRegion step).steps = step :: (placesInside step).map Prod.fst
  | .trigger l t => by simp [stepRegion, Region.barrier, placesInside]
  | .action l a => by simp [stepRegion, Region.action, placesInside]
  | .branch l c onSuccess onFailure => by
    simp [stepRegion, Region.branch, placesInside, chainRegion_steps onSuccess,
      chainRegion_steps onFailure, descendants_eq]
  | .split l settings branches => by
    simp [stepRegion, Region.split, placesInside, branchRegions_steps branches]
  | .loop l settings body => by
    simp [stepRegion, Region.loop, placesInside, chainRegion_steps body, descendants_eq]

theorem branchRegions_steps : ∀ branches : List (SplitBranch × List Step),
    (branchRegions branches).flatMap (fun x => x.2.steps) =
      (placesInBranches branches).map Prod.fst
  | [] => by simp [branchRegions, placesInBranches]
  | (b, steps) :: rest => by
    simp [branchRegions, placesInBranches, chainRegion_steps steps, branchRegions_steps rest,
      descendants_eq]

end

/-- The steps of the region of a step are those of the chain of it alone. -/
theorem descendants_singleton (step : Step) : descendants [step] = (stepRegion step).steps := by
  rw [← chainRegion_steps, chainRegion, chainRegion]
  exact List.append_nil _

theorem chainRegion_names (chain : List Step) :
    (chainRegion chain).names = (descendants chain).map Step.name := by
  rw [Region.names, chainRegion_steps]

theorem names_cons (step : Step) (rest : List Step) :
    (chainRegion (step :: rest)).names = (stepRegion step).names ++ (chainRegion rest).names := by
  rw [chainRegion, Region.seq_names]

theorem steps_cons (step : Step) (rest : List Step) :
    (chainRegion (step :: rest)).steps = (stepRegion step).steps ++ (chainRegion rest).steps := by
  rw [chainRegion]
  rfl

theorem branchRegions_eq : ∀ branches : List (SplitBranch × List Step),
    branchRegions branches = branches.map fun b => (b.1.name, chainRegion b.2)
  | [] => rfl
  | (b, steps) :: rest => by rw [branchRegions, List.map_cons, branchRegions_eq rest]

theorem branchNames_eq (branches : List (SplitBranch × List Step)) :
    Region.branchNames (branchRegions branches) =
      branches.flatMap fun b => (chainRegion b.2).names := by
  rw [branchRegions_eq, Region.branchNames, List.flatMap_map]

theorem branchNames_sublist {branches : List (SplitBranch × List Step)} {b : SplitBranch × List Step}
    (hb : b ∈ branches) :
    (chainRegion b.2).names.Sublist (Region.branchNames (branchRegions branches)) := by
  rw [branchNames_eq, List.flatMap_def]
  exact List.sublist_flatten_of_mem (List.mem_map_of_mem hb)

/-! ## Induction over flows -/

/-- Properties of chains and of steps that each of them has if those in it do. -/
structure Hereditary (P : List Step → Prop) (S : Step → Prop) : Prop where
  nil : P []
  cons : ∀ step rest, S step → P rest → P (step :: rest)
  trigger : ∀ l t, S (.trigger l t)
  action : ∀ l a, S (.action l a)
  branch : ∀ l c onSuccess onFailure, P onSuccess → P onFailure → S (.branch l c onSuccess onFailure)
  split : ∀ l settings branches, (∀ b ∈ branches, P b.2) → S (.split l settings branches)
  loop : ∀ l settings body, P body → S (.loop l settings body)

namespace Hereditary

variable {P : List Step → Prop} {S : Step → Prop}

mutual

theorem chain (h : Hereditary P S) : ∀ chain : List Step, P chain
  | [] => h.nil
  | step :: rest => h.cons step rest (h.step step) (h.chain rest)

theorem step (h : Hereditary P S) : ∀ step : Step, S step
  | .trigger l t => h.trigger l t
  | .action l a => h.action l a
  | .branch l c onSuccess onFailure =>
    h.branch l c onSuccess onFailure (h.chain onSuccess) (h.chain onFailure)
  | .split l settings branches => h.split l settings branches (h.branches branches)
  | .loop l settings body => h.loop l settings body (h.chain body)

theorem branches (h : Hereditary P S) :
    ∀ branches : List (SplitBranch × List Step), ∀ b ∈ branches, P b.2
  | (_, steps) :: rest, x, hx => by
    rcases List.mem_cons.mp hx with rfl | hx
    · exact h.chain steps
    · exact h.branches rest x hx

end

end Hereditary

/-- Properties of chains and of steps with different names that each of them has if those in it do. -/
structure HereditaryDistinct (P : List Step → Prop) (S : Step → Prop) : Prop where
  nil : P []
  cons : ∀ step rest, ((stepRegion step).names ++ (chainRegion rest).names).Nodup →
    S step → P rest → P (step :: rest)
  trigger : ∀ l t, S (.trigger l t)
  action : ∀ l a, S (.action l a)
  branch : ∀ l c onSuccess onFailure,
    (l.name :: ((chainRegion onSuccess).names ++ (chainRegion onFailure).names)).Nodup →
    P onSuccess → P onFailure → S (.branch l c onSuccess onFailure)
  split : ∀ l settings branches, (l.name :: Region.branchNames (branchRegions branches)).Nodup →
    (∀ b ∈ branches, P b.2) → S (.split l settings branches)
  loop : ∀ l settings body, (l.name :: (chainRegion body).names).Nodup →
    P body → S (.loop l settings body)

namespace HereditaryDistinct

variable {P : List Step → Prop} {S : Step → Prop}

theorem hereditary (h : HereditaryDistinct P S) :
    Hereditary (fun chain => (chainRegion chain).names.Nodup → P chain)
      fun step => (stepRegion step).names.Nodup → S step where
  nil _ := h.nil
  cons step rest hstep hrest hnd := by
    rw [names_cons] at hnd
    exact h.cons step rest hnd (hstep hnd.of_append_left) (hrest hnd.of_append_right)
  trigger l t _ := h.trigger l t
  action l a _ := h.action l a
  branch l c onSuccess onFailure hsuccess hfailure hnd := by
    rw [stepRegion, Region.branch_names] at hnd
    have hsides := (List.nodup_cons.mp hnd).2
    exact h.branch l c onSuccess onFailure hnd (hsuccess hsides.of_append_left)
      (hfailure hsides.of_append_right)
  split l settings branches hbranches hnd := by
    rw [stepRegion, Region.split_names] at hnd
    have hinner := (List.nodup_cons.mp hnd).2
    exact h.split l settings branches hnd fun b hb =>
      hbranches b hb (hinner.sublist (branchNames_sublist hb))
  loop l settings body hbody hnd := by
    rw [stepRegion, Region.loop_names] at hnd
    exact h.loop l settings body hnd (hbody (List.nodup_cons.mp hnd).2)

theorem chain (h : HereditaryDistinct P S) {chain : List Step}
    (hnd : (chainRegion chain).names.Nodup) : P chain :=
  h.hereditary.chain chain hnd

theorem step (h : HereditaryDistinct P S) {step : Step} (hnd : (stepRegion step).names.Nodup) : S step :=
  h.hereditary.step step hnd

end HereditaryDistinct

/-! ## Walks of chains -/

variable (setup : Setup)

theorem walk_nil : walk setup [] = fun _ s => Walk.ended s := by
  funext place s
  rw [walk]

theorem walk_cons (step : Step) (rest : List Step) :
    walk setup (step :: rest) = afterwards (walkStep setup step) (walk setup rest) := by
  funext place s
  rw [walk]
  rfl

theorem walkStep_action (l : Label) (a : Action) : walkStep setup (.action l a) =
    fun place s => runAction setup place l.name a s := by
  funext place s
  rw [walkStep]

theorem walkStep_branch (l : Label) (c : ConditionSet) (onSuccess onFailure : List Step) :
    walkStep setup (.branch l c onSuccess onFailure) = fun place s =>
      runBranch place l.name c (fun holds =>
        if holds then walk setup onSuccess place else walk setup onFailure place) s := by
  funext place s
  rw [walkStep]

theorem walkStep_loop (l : Label) (settings : LoopSettings) (body : List Step) :
    walkStep setup (.loop l settings body) = fun place s =>
      runLoop setup place l.name settings (walk setup body) s := by
  funext place s
  rw [walkStep]

/-- The branches of a split with their regions and walks. -/
def arms (branches : List (SplitBranch × List Step)) : List Arm :=
  branches.map fun b => ⟨b.1, chainRegion b.2, walk setup b.2⟩

theorem arms_part (branches : List (SplitBranch × List Step)) :
    (arms setup branches).map Arm.part = branchRegions branches := by
  rw [branchRegions_eq, arms, List.map_map]
  rfl

theorem taken_arms (branches : List (SplitBranch × List Step)) (taken : List String) :
    Arm.taken (arms setup branches) taken =
      arms setup (branches.filter fun b => taken.contains b.1.name) := List.filter_map

theorem arms_path (branches : List (SplitBranch × List Step)) (place : Place) :
    paths setup branches place = (arms setup branches).map (Arm.path place) := by
  induction branches with
  | nil => rw [paths]; rfl
  | cons b rest ih =>
    rw [paths, ih, ← chainRegion_names]
    rfl

theorem walkStep_split (l : Label) (settings : SplitSettings)
    (branches : List (SplitBranch × List Step)) : walkStep setup (.split l settings branches) =
      fun place s =>
        runSplit setup place l.name settings ((arms setup branches).map (Arm.path place)) s := by
  funext place s
  rw [walkStep, arms_path]

theorem Follows.barrier (l : Label) (t : Trigger) :
    Follows setup (Region.barrier (.trigger l t)) (walkStep setup (.trigger l t)) where
  rests _ _ _ h := h.elim
  calls place q s t o _ _ _ h e he := by
    rw [walkStep] at h
    rw [(Job.Yields.done_iff.mp h).1] at he
    cases he
  lands place q s t s' _ _ _ h := by
    rw [walkStep] at h
    obtain ⟨-, ho | ho⟩ := Job.Yields.done_iff.mp h <;> cases ho

/-- The walk of a chain or of a step goes through its region if those in it do. -/
theorem follows_hereditary : HereditaryDistinct
    (fun chain => Follows setup (chainRegion chain) (walk setup chain))
    fun step => Follows setup (stepRegion step) (walkStep setup step) where
  nil := by
    rw [chainRegion, walk_nil]
    exact .nil setup
  cons step rest hnd hstep hrest := by
    rw [chainRegion, walk_cons]
    exact hstep.seq hrest (List.disjoint_of_nodup_append hnd)
  trigger l t := by
    rw [stepRegion]
    exact .barrier setup l t
  action l a := by
    rw [stepRegion, walkStep_action]
    exact .action setup l a
  branch l c onSuccess onFailure hnd hsuccess hfailure := by
    rw [stepRegion, walkStep_branch]
    exact .branch l c onSuccess onFailure hsuccess hfailure hnd
  split l settings branches hnd hbranches := by
    rw [← arms_part setup] at hnd
    obtain ⟨hname, hinner⟩ := List.nodup_cons.mp hnd
    rw [stepRegion, walkStep_split, ← arms_part setup]
    exact .split l settings branches (List.forall_mem_map.mpr hbranches) hname hinner
  loop l settings body hnd hbody := by
    rw [stepRegion, walkStep_loop]
    exact .loop l settings body hbody (List.nodup_cons.mp hnd).1

/-- A walk of a chain goes through its region if its steps have different names. -/
theorem walk_follows (chain : List Step) (hnd : (chainRegion chain).names.Nodup) :
    Follows setup (chainRegion chain) (walk setup chain) :=
  (follows_hereditary setup).chain hnd

theorem walkStep_follows (step : Step) (hnd : (stepRegion step).names.Nodup) :
    Follows setup (stepRegion step) (walkStep setup step) :=
  (follows_hereditary setup).step hnd

theorem arms_follow (branches : List (SplitBranch × List Step))
    (hnd : (Region.branchNames (branchRegions branches)).Nodup) :
    ∀ a ∈ arms setup branches, Follows setup a.region a.body :=
  List.forall_mem_map.mpr fun b hb =>
    walk_follows setup b.2 (hnd.sublist (branchNames_sublist hb))

/-! ## Induction over walks -/

section

/-- A property of regions and walks that the walks of all kinds of steps have if those of the chains
in them do. -/
structure Inductive (setup : Setup) (P : Region → Body → Prop) : Prop where
  nil : P .nil fun _ s => Walk.ended s
  seq : ∀ A B wA wB, P A wA → P B wB → P (A.seq B) (afterwards wA wB)
  trigger : ∀ l t, P (.barrier (.trigger l t)) fun _ _ => .done (.error (.unexpectedTrigger l.name))
  action : ∀ l a, P (.action (.action l a)) fun place s => runAction setup place l.name a s
  branch : ∀ l c onSuccess onFailure A B wA wB, P A wA → P B wB →
    P (.branch (.branch l c onSuccess onFailure) A B) fun place s =>
      runBranch place l.name c (fun holds => if holds then wA place else wB place) s
  split : ∀ l settings branches (arms : List Arm), arms.map Arm.part = branchRegions branches →
    arms.map Arm.branch = branches.map Prod.fst → (∀ a ∈ arms, P a.region a.body) →
    P (.split (.split l settings branches) (arms.map Arm.part)) fun place s =>
      runSplit setup place l.name settings (arms.map (Arm.path place)) s
  loop : ∀ l settings body B wB, P B wB → P (.loop (.loop l settings body) B) fun place s =>
    runLoop setup place l.name settings wB s

variable {setup} {P : Region → Body → Prop}

namespace Inductive

theorem hereditary (h : Inductive setup P) :
    Hereditary (fun chain => P (chainRegion chain) (walk setup chain))
      fun step => P (stepRegion step) (walkStep setup step) where
  nil := by
    rw [chainRegion, walk_nil]
    exact h.nil
  cons step rest hstep hrest := by
    rw [chainRegion, walk_cons]
    exact h.seq _ _ _ _ hstep hrest
  trigger l t := by
    have heq : walkStep setup (.trigger l t) =
        fun _ _ => .done (.error (.unexpectedTrigger l.name)) := by
      funext place s
      rw [walkStep]
    rw [stepRegion, heq]
    exact h.trigger l t
  action l a := by
    rw [stepRegion, walkStep_action]
    exact h.action l a
  branch l c onSuccess onFailure hsuccess hfailure := by
    rw [stepRegion, walkStep_branch]
    exact h.branch l c onSuccess onFailure _ _ _ _ hsuccess hfailure
  split l settings branches hbranches := by
    rw [stepRegion, walkStep_split, ← arms_part setup]
    refine h.split l settings branches _ (arms_part setup branches) ?_
      (List.forall_mem_map.mpr hbranches)
    exact List.map_map
  loop l settings body hbody := by
    rw [stepRegion, walkStep_loop]
    exact h.loop l settings body _ _ hbody

/-- The walk of a chain has the property. -/
theorem chain (h : Inductive setup P) (chain : List Step) : P (chainRegion chain) (walk setup chain) :=
  h.hereditary.chain chain

theorem step (h : Inductive setup P) (step : Step) : P (stepRegion step) (walkStep setup step) :=
  h.hereditary.step step

end Inductive

end

/-! ## Chains without splits -/

/-- A property of walks that those of all kinds of steps but splits have if those of the chains in them
do. -/
structure InductiveUnsplit (setup : Setup) (P : Body → Prop) : Prop where
  nil : P fun _ s => Walk.ended s
  seq : ∀ wA wB, P wA → P wB → P (afterwards wA wB)
  trigger : ∀ l t, P (walkStep setup (.trigger l t))
  action : ∀ name a, P fun place s => runAction setup place name a s
  branch : ∀ name c wA wB, P wA → P wB →
    P fun place s => runBranch place name c (fun holds => if holds then wA place else wB place) s
  loop : ∀ name settings wB, P wB → P fun place s => runLoop setup place name settings wB s

namespace InductiveUnsplit

variable {setup : Setup} {P : Body → Prop}

theorem hereditary (h : InductiveUnsplit setup P) :
    Hereditary (fun chain => (∀ step ∈ (chainRegion chain).steps, step.type ≠ .split) →
        P (walk setup chain))
      fun step => (∀ step' ∈ (stepRegion step).steps, step'.type ≠ .split) →
        P (walkStep setup step) where
  nil _ := by
    rw [walk_nil]
    exact h.nil
  cons step rest hstep hrest hunsplit := by
    rw [steps_cons] at hunsplit
    rw [walk_cons]
    exact h.seq _ _ (hstep fun y hy => hunsplit y (List.mem_append_left _ hy))
      (hrest fun y hy => hunsplit y (List.mem_append_right _ hy))
  trigger l t _ := h.trigger l t
  action l a _ := by
    rw [walkStep_action]
    exact h.action l.name a
  branch l c onSuccess onFailure hsuccess hfailure hunsplit := by
    rw [stepRegion] at hunsplit
    rw [walkStep_branch]
    have hsides := fun y hy => hunsplit y (List.mem_cons_of_mem _ hy)
    exact h.branch l.name c _ _ (hsuccess fun y hy => hsides y (List.mem_append_left _ hy))
      (hfailure fun y hy => hsides y (List.mem_append_right _ hy))
  split l settings branches _ hunsplit :=
    absurd rfl (hunsplit (.split l settings branches) List.mem_cons_self)
  loop l settings body hbody hunsplit := by
    rw [stepRegion] at hunsplit
    rw [walkStep_loop]
    exact h.loop l.name settings _ (hbody fun y hy => hunsplit y (List.mem_cons_of_mem _ hy))

/-- The walk of a chain without splits has the property. -/
theorem chain (h : InductiveUnsplit setup P) (chain : List Step)
    (hunsplit : ∀ step ∈ (chainRegion chain).steps, step.type ≠ .split) : P (walk setup chain) :=
  h.hereditary.chain chain hunsplit

end InductiveUnsplit

end FlowEngine.Engine
