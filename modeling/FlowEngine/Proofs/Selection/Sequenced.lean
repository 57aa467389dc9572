import FlowEngine.Proofs.Selection.Chain

/-!
# Loops that walk one iteration after the other

A loop that is not parallel is at one of its items at a time. Until it is finished, nothing is left to
do in the iterations before that item, and those after it have no records.

* `Sequenced` — the property of the records of a chain.
* `LoopEntry.sequenced` — it holds of the maps that the walk of such a loop ends with.
* `walk_sequenced` — walks of chains keep it.
-/

namespace FlowEngine.Engine

open FlowEngine.Run FlowEngine.Flow

variable {setup : Setup} {s : RunState} {t : Trace} {q : Option Position} {name : String} {B : Region}

/-! ## Loops -/

/-- A loop that is not parallel is at one item until it is finished: the iterations before it are complete,
and those after it have no records. -/
def LoopSequenced (parallel : Bool) (name : String) (B : Region) (m : StepMap) : Prop :=
  parallel = false → ∀ summary item index its, m.get? name = some (.loop summary item index its) →
    summary.status.isFinished = false → ∀ (i : Nat) (k : StepMap), its[i]? = some k →
      (i < index → B.complete k) ∧ (index < i → k = [])

theorem loopSequenced_local (parallel : Bool) (name : String) (B : Region) {names : List String}
    (hname : name ∈ names) : Local names (LoopSequenced parallel name B) where
  agree {m m'} ha h hp summary item index its hr := by
    rw [ha name hname] at hr
    exact h hp summary item index its hr
  fresh {m} hf _ summary item index its hr := by
    rw [hf name hname] at hr
    cases hr
  withdrawn {m m'} ht hw h hp summary item index its hr hs i k hk := by
    rw [hw name hname, Option.bind_eq_some_iff] at hr
    obtain ⟨r, hr₀, hr⟩ := hr
    by_cases hpaused : r.status = .paused
    · cases r with
      | loop summary₀ item₀ index₀ its₀ =>
        rw [StepRecord.withoutPause_loop (s := summary₀) hpaused] at hr
        cases hr
        rw [List.getElem?_map, Option.map_eq_some_iff] at hk
        obtain ⟨k₀, hk₀, rfl⟩ := hk
        obtain ⟨hbefore, hafter⟩ :=
          h hp _ _ _ _ hr₀ (by rw [show summary₀.status = .paused from hpaused]; rfl) i k₀ hk₀
        have htk := ht.inner hr₀ rfl (List.mem_of_getElem? hk₀)
        refine ⟨fun hi => Region.withdrawn_complete htk (hbefore hi) fun n _ =>
          StepMap.get?_withdrawPauses htk.nodup n, fun hi => ?_⟩
        rw [hafter hi]
        rfl
      | action | branch | split => cases (StepRecord.withoutPause_eq_none hpaused rfl).symm.trans hr
    · rw [StepRecord.withoutPause_of_status_ne hpaused] at hr
      cases hr
      exact h hp _ _ _ _ hr₀ hs i k hk

section

variable {wB : Body} {place : Place} {items : List Json} {recorded maps : List StepMap}
  {q' : Option Position} {index : Nat} {traces : Nat → Trace} {kids : List (Option RunState)}
  {i : Nat} {v : Verdict}

/-- An iteration before the one that decides ended normally, and the map after it is its own. -/
theorem LoopEntry.walked (hB : Follows setup B wB)
    (he : LoopEntry B name q s.steps items recorded q' index)
    (hit : Iterated (looping name items place s wB).visit (items.zip recorded) t traces kids maps
      (some (i, v))) (hsucc : Successive kids (some (i, v))) {j : Nat} (hj : j < i) {m : StepMap}
    (hm : recorded[j]? = some m) :
    ∃ kid, kids[j]? = some (some kid) ∧ kid.verdict = .running ∧ maps[j]? = some kid.steps := by
  have hpart : (recorded.map fun k => (B, k))[j]? = some (B, m) := by rw [List.getElem?_map, hm]; rfl
  rcases (he.fanOut hB hit).kid hpart with hnone | ⟨kid, hkid⟩
  · obtain ⟨l, kid, hl, hkid, hv⟩ := hit.skipped j hnone
    exact absurd ((hsucc i v rfl l kid hkid).resolve_left (by omega)).2 hv
  · have hrun := ((hsucc i v rfl j kid hkid).resolve_left (by omega)).2
    obtain ⟨m', hm', hafter, -⟩ := he.after hB hit hm
    rw [hafter.kept kid hkid ?_] at hm'
    · exact ⟨kid, hkid, hrun, hm'⟩
    · intro hr
      obtain ⟨pause, hpaused⟩ := hr.paused hkid
      exact absurd (hrun.symm.trans hpaused) nofun

/-- The maps at the end of a loop that walked its iterations one after the other, up to one that
decides. -/
theorem LoopEntry.sequenced (hB : Follows setup B wB)
    (he : LoopEntry B name q s.steps items recorded q' index)
    (hit : Iterated (looping name items place s wB).visit (items.zip recorded) t traces kids maps
      (some (i, v))) (hseq : LoopSequenced false name B s.steps) (hsucc : Successive kids (some (i, v)))
    {j : Nat} {k : StepMap} (hk : maps[j]? = some k) : (j < i → B.complete k) ∧ (i < j → k = []) := by
  have hf := he.fanOut hB hit
  obtain ⟨m, hm, hmap, -⟩ := he.of_map hB hit hk
  have part {i : Nat} {m : StepMap} (hi : recorded[i]? = some m) :
      (recorded.map fun k => (B, k))[i]? = some (B, m) := by rw [List.getElem?_map, hi]; rfl
  constructor
  · intro hj
    obtain ⟨kid, hkid, hrun, hmap⟩ := he.walked hB hit hsucc hj hm
    obtain rfl := Option.some.inj (hk.symm.trans hmap)
    exact (hf.lands j B _ kid (part hm) hkid).complete hrun
  · intro hj
    have hnone : kids[j]? = some none := (hf.kid (part hm)).resolve_right fun ⟨s', hs'⟩ => by
      rcases hsucc i _ rfl j s' hs' with h | h <;> omega
    rw [hmap.skipped hnone]
    obtain ⟨_, m', kid, hz, hkid, rfl, -⟩ := hit.decided
    obtain ⟨-, hi, -⟩ := he.part hz
    rcases he.prior with ⟨-, hempty⟩ | ⟨summary, item, at_, hr, -, hopen⟩
    · exact hempty _ (List.mem_of_getElem? hm)
    · -- the loop was at an item that is not after the one that decides, since it rests before that
      refine (hseq rfl summary item at_ recorded hr hopen j _ hm).2
        (Nat.lt_of_not_le fun hle => hit.decides.1 ?_)
      exact hf.rests i B _ kid (part hi) hkid
        ((hseq rfl summary item at_ recorded hr hopen i _ hi).1 (by omega))

end

/-- A loop that ends normally or with a pause is at the item that it paused at. -/
theorem preserves_sequence {wB : Body} (l : Label) (settings : LoopSettings) (body : List Step)
    (hB : Follows setup B wB) :
    Preserves (.loop (.loop l settings body) B) (LoopSequenced settings.parallel l.name B)
      fun place s => runLoop setup place l.name settings wB s := by
  intro place q s t s' hv ht hstage hs hy hgo hparallel
  rcases runLoop_yields ht hstage hy with ⟨-, -, -, hs'⟩ | ⟨-, ho⟩ | ⟨-, -, -, input, message, ho⟩ |
    ⟨items, its, recorded, q', index, started, hfit, he, hy⟩
  · obtain rfl := hs' s' rfl
    exact hs hparallel
  · exact absurd rfl (ho s')
  · cases ho
    exact absurd hgo not_goesOn_failed
  obtain ⟨traces, kids, maps, decisive, duration, hit, hsucc, rfl⟩ := (walkItems_ends hfit hy).2 s' rfl
  obtain ⟨summary, item, j, hsteps, hinput, hnone, hsome, -⟩ :=
    closeLoop_eq (looping l.name items place s wB) items duration maps decisive
  intro summary' item' index' its' hr hopen i k hk
  rw [hsteps, show (looping l.name items place s wB).name = l.name from rfl,
    StepMap.get?_insert_self] at hr
  cases hr
  rcases decisive with _ | ⟨d, v⟩
  · rw [hnone rfl] at hopen
    cases hopen
  · obtain ⟨-, rfl⟩ := hsome d v rfl
    exact he.sequenced hB hit (hparallel ▸ hs) (hsucc hparallel) hk

/-! ## Chains -/

mutual

/-- The loops of a chain that are not parallel are at one item, at every level. -/
def Sequenced : List Step → StepMap → Prop
  | [] => fun _ => True
  | step :: rest => fun m => StepSequenced step m ∧ Sequenced rest m

/-- A loop is at one item, or the loops inside a step are. -/
def StepSequenced : Step → StepMap → Prop
  | .trigger _ _ => fun _ => True
  | .action l a => Closed (.action l a)
  | .branch l c onSuccess onFailure => fun m =>
    Closed (.branch l c onSuccess onFailure) m ∧ Sequenced onSuccess m ∧ Sequenced onFailure m
  | .split _ _ branches => BranchesSequenced branches
  | .loop l settings body => fun m =>
    LoopSequenced settings.parallel l.name (chainRegion body) m ∧ Closed (.loop l settings body) m ∧
      ClosedIterations l.name (chainRegion body) (Sequenced body) m

/-- The loops in the branches of a split are at one item. -/
def BranchesSequenced : List (SplitBranch × List Step) → StepMap → Prop
  | [] => fun _ => True
  | (_, steps) :: rest => fun m => Sequenced steps m ∧ BranchesSequenced rest m

end

theorem branchesSequenced_iff {branches : List (SplitBranch × List Step)} {m : StepMap} :
    BranchesSequenced branches m ↔ ∀ b ∈ branches, Sequenced b.2 m := by
  induction branches with
  | nil => simp [BranchesSequenced]
  | cons b rest ih => simp only [BranchesSequenced, ih, List.forall_mem_cons]

mutual

theorem sequenced_local : ∀ chain : List Step, Local (chainRegion chain).names (Sequenced chain)
  | [] => by
    rw [Sequenced]
    exact .trivial _
  | step :: rest => by
    rw [names_cons, Sequenced]
    exact ((stepSequenced_local step).mono (List.subset_append_left _ _)).and
      ((sequenced_local rest).mono (List.subset_append_right _ _))

theorem stepSequenced_local : ∀ step : Step, Local (stepRegion step).names (StepSequenced step)
  | .trigger l t => by
    rw [StepSequenced]
    exact .trivial _
  | .action l a => by
    rw [StepSequenced]
    exact closed_local (.action l a) List.mem_cons_self
  | .branch l c onSuccess onFailure => by
    rw [stepRegion, Region.branch_names, StepSequenced]
    exact (closed_local (.branch l c onSuccess onFailure) List.mem_cons_self).and
      (((sequenced_local onSuccess).mono fun _ hn =>
        List.mem_cons_of_mem _ (List.mem_append_left _ hn)).and
        ((sequenced_local onFailure).mono fun _ hn =>
          List.mem_cons_of_mem _ (List.mem_append_right _ hn)))
  | .split l settings branches => by
    rw [stepRegion, Region.split_names, StepSequenced]
    exact (branchesSequenced_local branches).mono (List.subset_cons_self _ _)
  | .loop l settings body => by
    rw [stepRegion, Region.loop_names, StepSequenced]
    exact (loopSequenced_local settings.parallel l.name (chainRegion body) List.mem_cons_self).and
      ((closed_local (.loop l settings body) List.mem_cons_self).and
        (closedIterations_local l.name (sequenced_local body) List.mem_cons_self))

theorem branchesSequenced_local : ∀ branches : List (SplitBranch × List Step),
    Local (Region.branchNames (branchRegions branches)) (BranchesSequenced branches)
  | [] => by
    rw [BranchesSequenced]
    exact .trivial _
  | (b, steps) :: rest => by
    rw [branchRegions, Region.branchNames, List.flatMap_cons, BranchesSequenced]
    exact ((sequenced_local steps).mono (List.subset_append_left _ _)).and
      ((branchesSequenced_local rest).mono (List.subset_append_right _ _))

end

variable (setup)

theorem sequenced_hereditary : HereditaryDistinct
    (fun chain => Preserves (chainRegion chain) (Sequenced chain) (walk setup chain))
    fun step => Preserves (stepRegion step) (StepSequenced step) (walkStep setup step) where
  nil := by
    intro place q s t s' _ _ _ _ _ _
    rw [Sequenced]
    trivial
  cons step rest hnd hstep hrest := by
    rw [chainRegion, walk_cons, Sequenced]
    exact .seq (walkStep_follows setup step hnd.of_append_left)
      (walk_follows setup rest hnd.of_append_right) (List.disjoint_of_nodup_append hnd)
      (stepSequenced_local step) (sequenced_local rest) hstep hrest
  trigger l t := by
    intro place q s t s' _ _ _ _ _ _
    rw [StepSequenced]
    trivial
  action l a := by
    rw [stepRegion, walkStep_action, StepSequenced]
    exact preserves_action l a
  branch l c onSuccess onFailure hnd hsuccess hfailure := by
    have hsides := (List.nodup_cons.mp hnd).2
    rw [stepRegion, walkStep_branch, StepSequenced]
    exact preserves_branch l c onSuccess onFailure (walk_follows setup onSuccess hsides.of_append_left)
      (walk_follows setup onFailure hsides.of_append_right) hnd (sequenced_local onSuccess)
      (sequenced_local onFailure) hsuccess hfailure
  split l settings branches hnd hbranches := by
    have hfollows := arms_follow setup branches (List.nodup_cons.mp hnd).2
    rw [← arms_part setup] at hnd
    obtain ⟨hname, hinner⟩ := List.nodup_cons.mp hnd
    have heq : BranchesSequenced branches = fun m => ∀ b ∈ branches, Sequenced b.2 m :=
      funext fun m => propext branchesSequenced_iff
    rw [stepRegion, walkStep_split, StepSequenced, heq, ← arms_part setup]
    exact preserves_parts l settings branches hfollows hname hinner
      (fun b _ => sequenced_local b.2) hbranches
  loop l settings body hnd hbody := by
    have hfollows := walk_follows setup body (List.nodup_cons.mp hnd).2
    rw [stepRegion, walkStep_loop, StepSequenced]
    rintro place q s t s' hv ht hstage ⟨hseq, hinner⟩ hy hgo
    exact ⟨preserves_sequence l settings body hfollows place q s t s' hv ht hstage hseq hy hgo,
      preserves_loop l settings body hfollows (sequenced_local body) hbody place q s t s' hv ht hstage
        hinner hy hgo⟩

/-- A walk of a chain that ends normally or with a pause leaves its loops at one item. -/
theorem walk_sequenced (chain : List Step) (hnd : (chainRegion chain).names.Nodup) :
    Preserves (chainRegion chain) (Sequenced chain) (walk setup chain) :=
  (sequenced_hereditary setup).chain hnd

end FlowEngine.Engine
