import FlowEngine.Proofs.Agreement.Merge
import FlowEngine.Proofs.Agreement.Steps
import FlowEngine.Proofs.Walk.Changes

/-!
# Splits agree

The branches of a split begin with the same records and have steps of different names, so that what
they changed is put together alike, however they were interleaved.

* `chooseBranches_congr` — the same branches are taken.
* `mergeBranches_alike` — branches that end alike are put together alike.
* `runSplit_agrees` — walks of splits from alike records at alike places.
-/

namespace FlowEngine.Engine

open FlowEngine.Run FlowEngine.Flow

variable {answer : Answering} {whole : Prop} {setup : Setup} {place place' : Place}
  {s s' : RunState} {name : String} {input : Json} {taken : List String} {arms : List Arm}

/-! ## Choosing -/

theorem matchingBranches_congr {names names' : Expr.Names} (execution : SplitExecution)
    {branches : List SplitBranch} (h : ∀ b ∈ branches,
      Template.conditionsHold names b.condition = Template.conditionsHold names' b.condition) :
    matchingBranches names execution branches = matchingBranches names' execution branches := by
  induction branches with
  | nil => rfl
  | cons b branches ih =>
    obtain ⟨hb, hrest⟩ := List.forall_mem_cons.mp h
    unfold matchingBranches
    rw [ih hrest, hb]

theorem chooseBranches_congr {names names' : Expr.Names} (execution : SplitExecution)
    {branches : List SplitBranch} (h : ∀ b ∈ branches,
      Template.conditionsHold names b.condition = Template.conditionsHold names' b.condition) :
    chooseBranches names execution branches = chooseBranches names' execution branches := by
  unfold chooseBranches
  rw [matchingBranches_congr execution h]

theorem recordedSplit?_timeless (prior : Option StepRecord) :
    recordedSplit? (prior.map StepRecord.timeless) = recordedSplit? prior := by
  cases prior with
  | none => rfl
  | some r => cases r <;> rfl

/-! ## Putting branches together -/

section

variable {base base' : RunState} {chosen : List Arm} {results results' : List Result}

/-- A record that a branch rewrote is one of its own, so that branches with other names leave it. -/
theorem leaves_of_disjoint {x y : Path × Option Result}
    (hx : ∀ s, x.2 = some (.ok s) → Changes x.1.stepNames base s)
    (hy : ∀ s, y.2 = some (.ok s) → Changes y.1.stepNames base s)
    (hd : x.1.stepNames.Disjoint y.1.stepNames) {n : String} (h : Rewrites base.steps y n) :
    Leaves base.steps x n := by
  obtain ⟨s, r, hs, hr, -, hne⟩ := h
  have hn : n ∈ y.1.stepNames := by
    by_contra hn
    exact hne (((hy s hs).frame n hn).symm.trans hr)
  have hother : n ∉ x.1.stepNames := fun hmem => hd hmem hn
  exact ⟨hother, fun s hs => (hx s hs).frame n hother⟩

/-- A branch that ended normally rewrote no record alike: what it changed, it finished. -/
theorem not_rewrites_of_running {path : Path} {names : List String} (h : Changes names base s)
    (hv : s.verdict = .running) (n : String) : ¬ Rewrites base.steps (path, some (.ok s)) n := by
  rintro ⟨s', r, hs, hr, halike, hne⟩
  cases hs
  rcases h.settles hv n with heq | ⟨hopen, hfin⟩
  · exact hne (heq.symm.trans hr)
  · rw [StepMap.get?_timeless] at halike
    obtain ⟨r', hr', hrr⟩ := Option.map_eq_some_iff.mp halike
    have hstatus : r'.status = r.status := StepRecord.status_alike hrr
    rw [hr] at hfin
    rw [hr'] at hopen
    change r.status.isFinished = true at hfin
    change r'.status.isFinished = false at hopen
    rw [hstatus, hfin] at hopen
    cases hopen

/-- No branch rewrote a record alike that another one changed, if their names are different or all of
them ended normally. -/
theorem pairwise_leaves (hown : ∀ (i : Nat) (a : Arm) (s : RunState), chosen[i]? = some a →
      results[i]? = some (.ok s) → Changes a.region.names base s)
    (h : (chosen.Pairwise fun a b => a.region.names.Disjoint b.region.names) ∨
      ∀ r ∈ results, Outcome.GoesOn (.result r)) :
    ((chosen.map (Arm.path place)).zip (results.map some)).Pairwise fun x y =>
      ∀ n, Rewrites base.steps y n → Leaves base.steps x n := by
  refine List.pairwise_iff_getElem.mpr fun i j hi hj hij n hn => ?_
  rw [List.length_zip, List.length_map, List.length_map] at hi hj
  obtain ⟨hci, hri⟩ := Nat.lt_min.mp hi
  obtain ⟨hcj, hrj⟩ := Nat.lt_min.mp hj
  simp only [List.getElem_zip, List.getElem_map] at hn ⊢
  have changes {k : Nat} (hc : k < chosen.length) (hr : k < results.length) (s : RunState)
      (hs : some results[k] = some (.ok s)) : Changes chosen[k].region.names base s :=
    hown k _ s (List.getElem?_eq_getElem hc) ((List.getElem?_eq_getElem hr).trans hs)
  rcases h with hd | hrun
  · exact leaves_of_disjoint (changes hci hri) (changes hcj hrj)
      (List.pairwise_iff_getElem.mp hd i j hci hcj hij) hn
  · obtain ⟨s, hs, hv⟩ := hrun _ (List.getElem_mem hrj)
    have hs : results[j] = .ok s := Outcome.result.inj hs
    rw [hs] at hn
    exact absurd hn (not_rewrites_of_running (changes hcj hrj s (congrArg some hs)) hv n)

/-- Branches that end alike are put together alike. -/
theorem mergeBranches_alike (place place' : Place) (hbase : base.timeless = base'.timeless)
    (ht : base.steps.Tidy) (ht' : base'.steps.Tidy)
    (halike : results.map Result.timeless = results'.map Result.timeless)
    (hown : ∀ (i : Nat) (a : Arm) (s : RunState), chosen[i]? = some a →
      results[i]? = some (.ok s) → Changes a.region.names base s)
    (hown' : ∀ (i : Nat) (a : Arm) (s : RunState), chosen[i]? = some a →
      results'[i]? = some (.ok s) → Changes a.region.names base' s)
    (hd : (chosen.Pairwise fun a b => a.region.names.Disjoint b.region.names) ∨
      (∀ r ∈ results, Outcome.GoesOn (.result r)) ∧ ∀ r ∈ results', Outcome.GoesOn (.result r)) :
    (mergeBranches base.steps 0 Halts.none base
        ((chosen.map (Arm.path place)).zip (results.map some))).map (fun x => (x.1.timeless, x.2)) =
      (mergeBranches base'.steps 0 Halts.none base'
        ((chosen.map (Arm.path place')).zip (results'.map some))).map
          fun x => (x.1.timeless, x.2) := by
  have nodup {place : Place} {base : RunState} {results : List Result}
      (hown : ∀ (i : Nat) (a : Arm) (s : RunState), chosen[i]? = some a →
        results[i]? = some (.ok s) → Changes a.region.names base s)
      (x : Path × Option Result) (hx : x ∈ (chosen.map (Arm.path place)).zip (results.map some))
      (s : RunState) (hs : x.2 = some (.ok s)) : s.steps.names.Nodup := by
    obtain ⟨i, hi⟩ := List.getElem?_of_mem hx
    obtain ⟨hp, hr⟩ := List.getElem?_zip_eq_some.mp hi
    rw [List.getElem?_map, Option.map_eq_some_iff] at hp hr
    obtain ⟨a, ha, -⟩ := hp
    obtain ⟨r, hr, hx⟩ := hr
    rw [hs] at hx
    obtain rfl := Option.some.inj hx
    exact (hown i a s ha hr).tidy.nodup
  rw [mergeBranches_timeless (nodup hown) (pairwise_leaves hown (hd.imp id And.left)) 0 _ ht.nodup
      fun _ _ _ _ => rfl,
    mergeBranches_timeless (nodup hown') (pairwise_leaves hown' (hd.imp id And.right)) 0 _ ht'.nodup
      fun _ _ _ _ => rfl, RunState.steps_alike hbase, hbase]
  refine mergeBranches_congr ?_ 0 _ _
  have key (place : Place) (results : List Result) :
      (((chosen.map (Arm.path place)).zip (results.map some)).map fun x =>
          (x.1, x.2.map Result.timeless)).map (fun x => (x.1.stepNames, x.2)) =
        (chosen.map fun a => a.region.names).zip ((results.map Result.timeless).map some) := by
    rw [List.map_map, List.zip_map, List.map_map, List.map_map, List.zip_map]
    rfl
  rw [key, key, halike]

end

/-! ## The walk -/

/-- Splits that end with what was put together alike end alike. -/
theorem closeSplit_alike (hs : s.timeless = s'.timeless) (duration duration' : Nat) (halts : Halts) :
    (closeSplit name input taken duration s halts).timeless =
      (closeSplit name input taken duration' s' halts).timeless := by
  have hr (status : StepStatus) (error : Option String) :
      (splitRecord status input error (some duration) taken).timeless =
        (splitRecord status input error (some duration') taken).timeless := by
    simp only [splitRecord, StepRecord.timeless]
  unfold closeSplit
  rcases halts.decisive? with _ | ⟨i, verdict⟩
  · exact RunState.upsert_alike hs name (hr _ _)
  · refine RunState.withVerdict_alike (RunState.upsert_alike hs name ?_) verdict
    cases verdict <;> exact hr _ _

/-- Splits agree whose branches were put together alike. -/
theorem closeMerged_agrees {x x' : Except Fault (RunState × Halts)}
    (started started' : Reading Time.Instant)
    (h : x.map (fun x => (x.1.timeless, x.2)) = x'.map fun x => (x.1.timeless, x.2)) :
    Agrees answer whole (closeMerged name input taken started x)
      (closeMerged name input taken started' x') := by
  rcases x with e | ⟨merged, halts⟩ <;> rcases x' with e' | ⟨merged', halts'⟩
  · obtain rfl := Except.error.inj h
    exact .done rfl
  · cases h
  · cases h
  · obtain ⟨hmerged, rfl⟩ := Prod.mk.inj (Except.ok.inj h)
    exact .clock fun stopped stopped' => .ended (closeSplit_alike hmerged _ _ halts)

/-- If the walk goes on after a split, then its branches ended normally. -/
theorem closeMerged_goesOn {base : RunState} {started : Reading Time.Instant} {paths : List Path}
    {results : List Result} {t : Trace} {o : Outcome Result} (length : results.length = paths.length)
    (hy : Job.Yields (closeMerged name input taken started
      (mergeBranches base.steps 0 Halts.none base (paths.zip (results.map some)))) t o)
    (ho : o.GoesOn) : ∀ r ∈ results, Outcome.GoesOn (.result r) := by
  obtain ⟨s, rfl, hv⟩ := ho
  obtain ⟨merged, halts, duration, hm, rfl⟩ := (closeMerged_yields hy).2 s rfl
  obtain ⟨kids, hkids⟩ := mergeBranches_results (by simpa using length) (by simp) hm
  rw [hkids] at hm
  have hlen : kids.length = paths.length := by
    have := congrArg List.length hkids
    simpa [length] using this.symm
  obtain ⟨hsees, -⟩ := mergeBranches_sees .nil hlen hm
  obtain ⟨-, hrun⟩ := closeSplit_running (by simpa using hsees) hv
  intro r hr
  have hr : some r ∈ kids.map fun s => some (Except.ok s) := hkids ▸ List.mem_map_of_mem hr
  obtain ⟨k, hk, heq⟩ := List.mem_map.mp hr
  obtain rfl := Option.some.inj heq
  exact ⟨k, rfl, hrun k hk⟩

/-- The branches that are taken agree if all branches do. They agree as a whole only if their steps
have different names. -/
theorem walkPaths_agrees {concurrency concurrency' : Option Nat}
    {started started' : Reading Time.Instant} (hs : s.timeless = s'.timeless) (ht : s.steps.Tidy)
    (ht' : s'.steps.Tidy) (hnames : whole → (Region.branchNames (arms.map Arm.part)).Nodup)
    (harms : ∀ a ∈ arms, ChangesOwn a.region a.body)
    (hagree : ∀ a ∈ arms, ∀ s s', s.timeless = s'.timeless → s.steps.Tidy → s'.steps.Tidy →
      Agrees answer whole (a.body place s) (a.body place' s')) :
    Agrees answer whole
      (walkPaths setup name concurrency (arms.map (Arm.path place)) started input taken s)
      (walkPaths setup name concurrency' (arms.map (Arm.path place')) started' input taken s') := by
  have hbase : (splitBase s name input taken).timeless = (splitBase s' name input taken).timeless :=
    RunState.upsert_alike hs name rfl
  have changes {place : Place} {s : RunState} (ht : s.steps.Tidy) {results : List Result}
      (hran : ∀ i r, results[i]? = some r → ∃ t, Job.Yields
        (Arm.visit (Arm.taken arms taken) place (splitBase s name input taken) i) t (.result r))
      (i : Nat) (a : Arm) (k : RunState) (ha : (Arm.taken arms taken)[i]? = some a)
      (hk : results[i]? = some (.ok k)) :
      Changes a.region.names (splitBase s name input taken) k := by
    obtain ⟨t, hy⟩ := hran i _ hk
    rw [Arm.visit, ha] at hy
    exact harms a (Arm.names_subset (List.mem_of_getElem? ha)).1 place _ t k (splitBase_tidy ht) hy
  have idle (place : Place) (s : RunState) (i : Nat) (hi : (Arm.taken arms taken).length ≤ i) :
      ∃ s₁, Arm.visit (Arm.taken arms taken) place s i = Walk.ended s₁ :=
    ⟨s, by rw [Arm.visit, List.getElem?_eq_none hi]⟩
  rw [walkPaths_eq, walkPaths_eq]
  refine .fan (fun _ => rfl) (fun _ => rfl) (fun i => ?_) (idle place _) (idle place' _)
    (fun results results' hlen halike hran hran' => ?_) fun results t o hlen hy ho => ?_
  · unfold Arm.visit
    cases ha : (Arm.taken arms taken)[i]? with
    | none => exact .ended hbase
    | some a =>
      exact hagree a (Arm.names_subset (List.mem_of_getElem? ha)).1 _ _ hbase (splitBase_tidy ht)
        (splitBase_tidy ht')
  · intro t o t' o' hy hy' hans hans' ho ho' hw
    have hd : ((Arm.taken arms taken).Pairwise fun a b => a.region.names.Disjoint b.region.names) ∨
        (∀ r ∈ results, Outcome.GoesOn (.result r)) ∧ ∀ r ∈ results', Outcome.GoesOn (.result r) := by
      refine hw.imp (fun h => Arm.disjoint_taken taken (hnames h)) fun h => ?_
      have hrun := closeMerged_goesOn (by simpa using hlen) hy h
      refine ⟨hrun, fun r' hr' => ?_⟩
      obtain ⟨r, hr, hrr⟩ := List.mem_map.mp (halike ▸ List.mem_map_of_mem hr')
      exact (hrun r hr).of_alike hrr
    have hmerge := mergeBranches_alike place place' hbase (splitBase_tidy ht)
      (splitBase_tidy ht') halike (changes ht hran) (changes ht' hran') hd
    exact closeMerged_agrees _ _ hmerge t o t' o' hy hy' hans hans' ho ho' hw
  · exact closeMerged_goesOn (by simpa using hlen) hy ho

/-- Splits agree that are walked from alike records, if their branches do. They agree as a whole only
if the steps of their branches have different names. -/
theorem runSplit_agrees {settings : SplitSettings}
    (huntimed : ∀ a ∈ arms, Untimed fun names => Template.conditionsHold names a.branch.condition)
    (hp : place.timeless = place'.timeless) (hs : s.timeless = s'.timeless) (ht : s.steps.Tidy)
    (ht' : s'.steps.Tidy) (hnames : whole → (Region.branchNames (arms.map Arm.part)).Nodup)
    (harms : ∀ a ∈ arms, ChangesOwn a.region a.body)
    (hagree : ∀ a ∈ arms, ∀ s s', s.timeless = s'.timeless → s.steps.Tidy → s'.steps.Tidy →
      Agrees answer whole (a.body place s) (a.body place' s')) :
    Agrees answer whole (runSplit setup place name settings (arms.map (Arm.path place)) s)
      (runSplit setup place' name settings (arms.map (Arm.path place')) s') := by
  have walked {input : Json} {taken : List String} (started started' : Reading Time.Instant) :
      Agrees answer whole
        (walkPaths setup name settings.concurrency (arms.map (Arm.path place)) started input taken s)
        (walkPaths setup name settings.concurrency (arms.map (Arm.path place')) started' input taken
          s') := walkPaths_agrees hs ht ht' hnames harms hagree
  have hrecorded : recordedSplit? (s.steps.get? name) = recordedSplit? (s'.steps.get? name) := by
    rw [← recordedSplit?_timeless, RunState.get?_alike hs, recordedSplit?_timeless]
  have hbranches (place : Place) :
      (arms.map (Arm.path place)).map Path.branch = arms.map Arm.branch := by
    rw [List.map_map]
    rfl
  unfold runSplit
  dsimp only
  rw [any_status_alike hs StepStatus.isFinished name, hrecorded, hbranches, hbranches]
  split_ifs
  · exact .ended hs
  refine .clock fun started started' => ?_
  have hchosen : chooseBranches (place.names s started.now) settings.execution
        (arms.map Arm.branch) =
      chooseBranches (place'.names s' started'.now) settings.execution (arms.map Arm.branch) := by
    refine chooseBranches_congr _ fun b hb => ?_
    obtain ⟨a, ha, rfl⟩ := List.mem_map.mp hb
    exact (huntimed a ha).eq hp hs _ _
  rw [hchosen]
  split
  · exact walked started started'
  · split
    · exact .crash
    · exact .failed hs _ rfl
    · exact walked started started'

end FlowEngine.Engine
