import FlowEngine.Proofs.Selection.Selected

/-!
# Sound records

At any time between the walks of a run, a finished record is that of a step that is done, together
with all steps inside it. Records that are not finished may stand beside it; the steps inside these
have sound records as well.

* `Local` — properties of records that are kept wherever the records are.
* `Sound` — the property of the records of a chain.
* `sound_local` — it is local.
-/

namespace FlowEngine.Engine

open FlowEngine.Run FlowEngine.Flow

/-! ## Local properties -/

/-- A property of the records of some names. It holds where there are none, and is kept when pauses
are withdrawn. -/
structure Local (names : List String) (S : StepMap → Prop) : Prop where
  agree : ∀ {m m' : StepMap}, Agree names m m' → S m → S m'
  fresh : ∀ {m : StepMap}, Fresh names m → S m
  withdrawn : ∀ {m m' : StepMap}, m.Tidy → Withdrawn names m m' → S m → S m'

namespace Local

variable {names names' : List String} {S S' : StepMap → Prop}

theorem mono (h : Local names S) (hn : names ⊆ names') : Local names' S where
  agree ha := h.agree (ha.mono hn)
  fresh hf := h.fresh (hf.mono hn)
  withdrawn ht hw := h.withdrawn ht (hw.mono hn)

theorem and (h : Local names S) (h' : Local names S') : Local names fun m => S m ∧ S' m where
  agree ha hs := ⟨h.agree ha hs.1, h'.agree ha hs.2⟩
  fresh hf := ⟨h.fresh hf, h'.fresh hf⟩
  withdrawn ht hw hs := ⟨h.withdrawn ht hw hs.1, h'.withdrawn ht hw hs.2⟩

theorem trivial (names : List String) : Local names fun _ => True where
  agree _ _ := True.intro
  fresh _ := True.intro
  withdrawn _ _ _ := True.intro

/-- A local property of a part of a fan-out is kept when all parts are put together. -/
theorem settled {R : Region} {kids : List (Option RunState)} {i : Nat} {m m' : StepMap}
    (h : Local R.names S) (hm' : Settled R kids i m m')
    (hkid : kids[i]? = some none ∨ ∃ s, kids[i]? = some (some s)) (hm : S m)
    (hs : ∀ s, kids[i]? = some (some s) → s.steps.Tidy ∧ S s.steps) : S m' := by
  rcases hkid with hk | ⟨s, hk⟩
  · rwa [hm'.skipped hk]
  · obtain ⟨ht, hs⟩ := hs s hk
    by_cases hr : Repeats kids i
    · exact h.withdrawn ht (hm'.repeated s hk hr) hs
    · exact h.agree (hm'.kept s hk hr) hs

end Local

/-! ## Finished records -/

/-- The record of a name is finished only if it has some property, which depends on other records. -/
def FinishedOnly (name : String) (P : StepRecord → StepMap → Prop) (m : StepMap) : Prop :=
  ∀ r, m.get? name = some r → r.status.isFinished = true → P r m

theorem Local.finishedOnly {names : List String} {name : String} {P : StepRecord → StepMap → Prop}
    (hname : name ∈ names) (agree : ∀ {r m m'}, Agree names m m' → P r m → P r m')
    (withdrawn : ∀ {r m m'}, m.Tidy → Withdrawn names m m' → P r m → P r m') :
    Local names (FinishedOnly name P) where
  agree {m m'} ha h r hr hf := by
    rw [ha name hname] at hr
    exact agree ha (h r hr hf)
  fresh {m} hfresh r hr := by
    rw [hfresh name hname] at hr
    cases hr
  withdrawn {m m'} ht hw h r hr hf := by
    rw [hw name hname, Option.bind_eq_some_iff] at hr
    obtain ⟨r₀, hr₀, hr⟩ := hr
    obtain rfl := StepRecord.withoutPause_finished hr hf
    exact withdrawn ht hw (h r hr₀ hf)

/-- The record of a step is finished only if the step is done. -/
def Closed (step : Step) : StepMap → Prop := FinishedOnly step.name fun r _ => Completed step r

theorem closed_local (step : Step) {names : List String} (hname : step.name ∈ names) :
    Local names (Closed step) := .finishedOnly hname (fun _ h => h) fun _ _ h => h

/-- A split is finished only if nothing is left to do in the branches that it took, and the others were
not entered. -/
def ClosedBranches (name : String) (parts : List (String × Region)) : StepMap → Prop :=
  FinishedOnly name fun r m => ∀ taken, r.taken? = some taken → ∀ x ∈ parts,
    (x.1 ∈ taken → x.2.complete m) ∧ (x.1 ∉ taken → Fresh x.2.names m)

theorem closedBranches_local (name : String) (parts : List (String × Region)) :
    Local (name :: Region.branchNames parts) (ClosedBranches name parts) := by
  have hsub {x : String × Region} (hx : x ∈ parts) :
      x.2.names ⊆ name :: Region.branchNames parts :=
    fun n hn => List.mem_cons_of_mem _ (Region.branchNames_subset hx hn)
  refine .finishedOnly List.mem_cons_self (fun ha h taken ht x hx => ?_)
    fun htidy hw h taken ht x hx => ?_
  · obtain ⟨hin, hout⟩ := h taken ht x hx
    exact ⟨fun hn => x.2.complete_agree (ha.mono (hsub hx)) (hin hn),
      fun hn => (hout hn).agree (ha.mono (hsub hx))⟩
  · obtain ⟨hin, hout⟩ := h taken ht x hx
    exact ⟨fun hn => Region.withdrawn_complete htidy (hin hn) (hw.mono (hsub hx)),
      fun hn => (hout hn).withdrawn (hw.mono (hsub hx))⟩

/-- The iterations of a loop have records of steps of the body only, and a property. The loop is finished
only if nothing is left to do in them. -/
def ClosedIterations (name : String) (B : Region) (S : StepMap → Prop) (m : StepMap) : Prop :=
  ∀ r its k, m.get? name = some r → r.iterations? = some its → k ∈ its →
    S k ∧ (∀ n ∈ k.names, n ∈ B.names) ∧ (r.status.isFinished = true → B.complete k)

theorem closedIterations_local (name : String) {B : Region} {S : StepMap → Prop}
    (hS : Local B.names S) {names : List String} (hname : name ∈ names) :
    Local names (ClosedIterations name B S) where
  agree {m m'} ha h r its k hr hits hk := by
    rw [ha name hname] at hr
    exact h r its k hr hits hk
  fresh {m} hfresh r its k hr := by
    rw [hfresh name hname] at hr
    cases hr
  withdrawn {m m'} ht hw h r its k hr hits hk := by
    rw [hw name hname, Option.bind_eq_some_iff] at hr
    obtain ⟨r₀, hr₀, hr⟩ := hr
    obtain ⟨-, -, -, rfl | ⟨its₀, hits₀, hits'⟩⟩ := StepRecord.withoutPause_kept hr
    · exact h r its k hr₀ hits hk
    · obtain rfl := Option.some.inj (hits.symm.trans hits')
      obtain ⟨k₀, hk₀, rfl⟩ := List.mem_map.mp hk
      have htk := ht.inner hr₀ hits₀ hk₀
      obtain ⟨hs, hkeyed, -⟩ := h r₀ its₀ k₀ hr₀ hits₀ hk₀
      refine ⟨hS.withdrawn htk (fun n _ => StepMap.get?_withdrawPauses htk.nodup n) hs,
        fun n hn => hkeyed n (StepMap.names_withdrawPauses_subset k₀ n hn), fun hf => ?_⟩
      obtain rfl := StepRecord.withoutPause_finished hr hf
      exact (h r _ _ hr₀ hits hk).2.2 hf

/-! ## Sound records of a chain -/

mutual

/-- The records of a chain are sound. -/
def Sound : List Step → StepMap → Prop
  | [] => fun _ => True
  | step :: rest => fun m => StepSound step m ∧ Sound rest m

/-- The records of a step and of those inside it are sound. -/
def StepSound : Step → StepMap → Prop
  | .trigger l t => Closed (.trigger l t)
  | .action l a => Closed (.action l a)
  | .branch l c onSuccess onFailure => fun m =>
    Closed (.branch l c onSuccess onFailure) m ∧ Sound onSuccess m ∧ Sound onFailure m
  | .split l settings branches => fun m =>
    Closed (.split l settings branches) m ∧ ClosedBranches l.name (branchRegions branches) m ∧
      BranchesSound branches m
  | .loop l settings body => fun m =>
    Closed (.loop l settings body) m ∧ ClosedIterations l.name (chainRegion body) (Sound body) m

/-- The records of the branches of a split are sound. -/
def BranchesSound : List (SplitBranch × List Step) → StepMap → Prop
  | [] => fun _ => True
  | (_, steps) :: rest => fun m => Sound steps m ∧ BranchesSound rest m

end

theorem branchesSound_iff {branches : List (SplitBranch × List Step)} {m : StepMap} :
    BranchesSound branches m ↔ ∀ b ∈ branches, Sound b.2 m := by
  induction branches with
  | nil => simp [BranchesSound]
  | cons b rest ih => simp only [BranchesSound, ih, List.forall_mem_cons]

mutual

theorem sound_local : ∀ chain : List Step, Local (chainRegion chain).names (Sound chain)
  | [] => by
    rw [Sound]
    exact .trivial _
  | step :: rest => by
    rw [names_cons, Sound]
    exact ((stepSound_local step).mono (List.subset_append_left _ _)).and
      ((sound_local rest).mono (List.subset_append_right _ _))

theorem stepSound_local : ∀ step : Step, Local (stepRegion step).names (StepSound step)
  | .trigger l t => by
    rw [StepSound]
    exact closed_local (.trigger l t) List.mem_cons_self
  | .action l a => by
    rw [StepSound]
    exact closed_local (.action l a) List.mem_cons_self
  | .branch l c onSuccess onFailure => by
    rw [stepRegion, Region.branch_names, StepSound]
    exact (closed_local (.branch l c onSuccess onFailure) List.mem_cons_self).and
      (((sound_local onSuccess).mono fun _ hn =>
        List.mem_cons_of_mem _ (List.mem_append_left _ hn)).and
        ((sound_local onFailure).mono fun _ hn =>
          List.mem_cons_of_mem _ (List.mem_append_right _ hn)))
  | .split l settings branches => by
    rw [stepRegion, Region.split_names, StepSound]
    exact (closed_local (.split l settings branches) List.mem_cons_self).and
      ((closedBranches_local l.name (branchRegions branches)).and
        ((branchesSound_local branches).mono (List.subset_cons_self _ _)))
  | .loop l settings body => by
    rw [stepRegion, Region.loop_names, StepSound]
    exact (closed_local (.loop l settings body) List.mem_cons_self).and
      (closedIterations_local l.name (sound_local body) List.mem_cons_self)

theorem branchesSound_local : ∀ branches : List (SplitBranch × List Step),
    Local (Region.branchNames (branchRegions branches)) (BranchesSound branches)
  | [] => by
    rw [BranchesSound]
    exact .trivial _
  | (b, steps) :: rest => by
    rw [branchRegions, Region.branchNames, List.flatMap_cons, BranchesSound]
    exact ((sound_local steps).mono (List.subset_append_left _ _)).and
      ((branchesSound_local rest).mono (List.subset_append_right _ _))

end

end FlowEngine.Engine
