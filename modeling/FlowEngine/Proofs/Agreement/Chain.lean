import FlowEngine.Proofs.Agreement.Loop
import FlowEngine.Proofs.Agreement.Split

/-!
# Chains agree

Walks of the same chain from alike records at alike places agree while they go on. They agree as a
whole if the steps have different names and iterations are walked one after the other.

* `OneByOne` — a step whose iterations, if it has any, are walked one after the other.
* `WalksAgree` — the walks of a region agree.
* `walk_agrees`, `walkStep_agrees` — the walks of chains and of single steps.
-/

namespace FlowEngine.Engine

open FlowEngine.Run FlowEngine.Flow

/-- The iterations of a step, if it has any, are walked one after the other. -/
def OneByOne : Step → Prop
  | .loop _ settings _ => settings.parallel = false
  | _ => True

/-- The walks of a region from alike records at alike places agree. They agree as a whole if names and
loops allow for it. -/
def WalksAgree (answer : Answering) (whole : Prop) (R : Region) (w : Body) : Prop :=
  (∀ step ∈ R.steps, ReadsNoDuration step) →
    (whole → R.names.Nodup ∧ ∀ step ∈ R.steps, OneByOne step) →
      ∀ place place' s s', place.timeless = place'.timeless → s.timeless = s'.timeless →
        s.steps.Tidy → s'.steps.Tidy → Agrees answer whole (w place s) (w place' s')

variable {answer : Answering} {whole : Prop} {setup : Setup}

/-- Steps one after the other agree if all of them do. -/
theorem walksAgree_seq {A B : Region} {wA wB : Body} (hA : WalksAgree answer whole A wA)
    (hB : WalksAgree answer whole B wB) (ownA : ChangesOwn A wA) :
    WalksAgree answer whole (A.seq B) (afterwards wA wB) := by
  intro hreads hwhole place place' s s' hp hs ht ht'
  obtain ⟨hreadsA, hreadsB⟩ := List.forall_mem_append.mp hreads
  have hA := hA hreadsA (fun h => by
    obtain ⟨hnodup, hone⟩ := hwhole h
    rw [Region.seq_names] at hnodup
    exact ⟨hnodup.of_append_left, (List.forall_mem_append.mp hone).1⟩)
  have hB := hB hreadsB (fun h => by
    obtain ⟨hnodup, hone⟩ := hwhole h
    rw [Region.seq_names] at hnodup
    exact ⟨hnodup.of_append_right, (List.forall_mem_append.mp hone).2⟩)
  refine (hA place place' s s' hp hs ht ht').andThen (fun t s₁ t' s₁' hy hy' hs₁ => ?_)
    (.inr fun s₁ t o hy ho => ?_)
  · rw [RunState.verdict_alike hs₁]
    split_ifs
    · exact hB place place' s₁ s₁' hp hs₁ (ownA place s t s₁ ht hy).tidy
        (ownA place' s' t' s₁' ht' hy').tidy
    · exact .ended hs₁
  · split_ifs at hy with hv
    · exact isRunning_iff.mp hv
    · obtain ⟨s₂, rfl, hrun⟩ := ho
      obtain ⟨-, rfl⟩ := Yields.of_ended hy
      exact hrun

theorem walksAgree_branch {A B : Region} {wA wB : Body} (hA : WalksAgree answer whole A wA)
    (hB : WalksAgree answer whole B wB) (l : Label) (c : ConditionSet)
    (onSuccess onFailure : List Step) :
    WalksAgree answer whole (.branch (.branch l c onSuccess onFailure) A B) fun place s =>
      runBranch place l.name c (fun holds => if holds then wA place else wB place) s := by
  intro hreads hwhole place place' s s' hp hs ht ht'
  obtain ⟨⟨hinput, hholds⟩, hreads⟩ := List.forall_mem_cons.mp hreads
  obtain ⟨hreadsA, hreadsB⟩ := List.forall_mem_append.mp hreads
  rw [Region.branch_names] at hwhole
  refine runBranch_agrees hinput hholds hp hs ht ht' fun holds s s' hs ht ht' => ?_
  cases holds
  · refine hB hreadsB (fun h => ?_) place place' s s' hp hs ht ht'
    obtain ⟨hnodup, hone⟩ := hwhole h
    exact ⟨(List.nodup_cons.mp hnodup).2.of_append_right,
      (List.forall_mem_append.mp (List.forall_mem_cons.mp hone).2).2⟩
  · refine hA hreadsA (fun h => ?_) place place' s s' hp hs ht ht'
    obtain ⟨hnodup, hone⟩ := hwhole h
    exact ⟨(List.nodup_cons.mp hnodup).2.of_append_left,
      (List.forall_mem_append.mp (List.forall_mem_cons.mp hone).2).1⟩

theorem walksAgree_loop {B : Region} {wB : Body} (hB : WalksAgree answer whole B wB) (l : Label)
    (settings : LoopSettings) (body : List Step) :
    WalksAgree answer whole (.loop (.loop l settings body) B) fun place s =>
      runLoop setup place l.name settings wB s := by
  intro hreads hwhole place place' s s' hp hs ht ht'
  obtain ⟨hitems, hreads⟩ := List.forall_mem_cons.mp hreads
  rw [Region.loop_names] at hwhole
  refine runLoop_agrees rfl hitems (fun h => ?_) hp hs ht ht' (hB hreads fun h => ?_)
  · obtain ⟨-, hone⟩ := hwhole h
    have hself := (List.forall_mem_cons.mp hone).1
    exact ⟨hself, hself⟩
  · obtain ⟨hnodup, hone⟩ := hwhole h
    exact ⟨(List.nodup_cons.mp hnodup).2, (List.forall_mem_cons.mp hone).2⟩

theorem walksAgree_split {arms : List Arm} (own : ∀ a ∈ arms, ChangesOwn a.region a.body)
    (harms : ∀ a ∈ arms, WalksAgree answer whole a.region a.body) (l : Label)
    (settings : SplitSettings) (branches : List (SplitBranch × List Step))
    (hbranches : arms.map Arm.branch = branches.map Prod.fst) :
    WalksAgree answer whole (.split (.split l settings branches) (arms.map Arm.part))
      fun place s => runSplit setup place l.name settings (arms.map (Arm.path place)) s := by
  intro hreads hwhole place place' s s' hp hs ht ht'
  obtain ⟨hself, hreads⟩ := List.forall_mem_cons.mp hreads
  rw [Region.split_names] at hwhole
  have inner (a : Arm) (ha : a ∈ arms) (step : Step) (hstep : step ∈ a.region.steps) :
      step ∈ (arms.map Arm.part).flatMap fun x => x.2.steps :=
    List.mem_flatMap.mpr ⟨a.part, List.mem_map_of_mem ha, hstep⟩
  refine runSplit_agrees (fun a ha => hself a.branch (hbranches ▸ List.mem_map_of_mem ha)) hp hs ht
    ht' (fun h => (List.nodup_cons.mp (hwhole h).1).2) own fun a ha s s' hs ht ht' =>
      harms a ha (fun step hstep => hreads step (inner a ha step hstep)) (fun h => ?_) place place'
        s s' hp hs ht ht'
  obtain ⟨hnodup, hone⟩ := hwhole h
  have hnodup := (List.nodup_cons.mp hnodup).2
  rw [Region.branchNames, List.flatMap_map] at hnodup
  exact ⟨(List.nodup_flatMap.mp hnodup).1 a ha,
    fun step hstep => (List.forall_mem_cons.mp hone).2 step (inner a ha step hstep)⟩

theorem walksAgree_inductive (answer : Answering) (whole : Prop) (setup : Setup) :
    Inductive setup fun R w => ChangesOwn R w ∧ WalksAgree answer whole R w where
  nil := ⟨(changesOwn_inductive setup).nil, fun _ _ _ _ _ _ _ hs _ _ => .ended hs⟩
  seq _ _ _ _ hA hB :=
    ⟨(changesOwn_inductive setup).seq _ _ _ _ hA.1 hB.1, walksAgree_seq hA.2 hB.2 hA.1⟩
  trigger l t := ⟨(changesOwn_inductive setup).trigger l t, fun _ _ _ _ _ _ _ _ _ _ => .done rfl⟩
  action l a := ⟨changesOwn_action l a, fun hreads _ _ _ _ _ hp hs _ _ =>
    runAction_agrees (List.forall_mem_cons.mp hreads).1 hp hs⟩
  branch l c onSuccess onFailure _ _ _ _ hA hB :=
    ⟨changesOwn_branch hA.1 hB.1 l c onSuccess onFailure,
      walksAgree_branch hA.2 hB.2 l c onSuccess onFailure⟩
  split l settings branches _ _ hbranches harms :=
    ⟨changesOwn_split (fun a ha => (harms a ha).1) l settings branches,
      walksAgree_split (fun a ha => (harms a ha).1) (fun a ha => (harms a ha).2) l settings branches
        hbranches⟩
  loop l settings body _ _ hB :=
    ⟨changesOwn_loop hB.1 l settings body, walksAgree_loop hB.2 l settings body⟩

/-- Walks of a chain from alike records at alike places agree. -/
theorem walk_agrees (answer : Answering) (whole : Prop) (setup : Setup) (chain : List Step) :
    WalksAgree answer whole (chainRegion chain) (walk setup chain) :=
  ((walksAgree_inductive answer whole setup).chain chain).2

/-- Walks of a step from alike records at alike places agree. -/
theorem walkStep_agrees (answer : Answering) (whole : Prop) (setup : Setup) (step : Step) :
    WalksAgree answer whole (stepRegion step) (walkStep setup step) :=
  ((walksAgree_inductive answer whole setup).step step).2

end FlowEngine.Engine
