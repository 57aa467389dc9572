import FlowEngine.Proofs.Walk.Changes
import FlowEngine.Proofs.Walk.Nesting

/-!
# Where failures come from

A walk fails because of one step. Its record, those of the loops around it and those of the splits
around it say so when the walk has ended: what a fan-out takes over from its parts is the failure of
one of them, with the records of the same one.

* `Fails` — a step whose failure the records of a chain show.
* `walk_traces` — at the end of a walk that failed there is one.
* `Fails.loops`, `Fails.splits` — the loops and splits around it.
-/

namespace FlowEngine.Engine

open FlowEngine.Run FlowEngine.Flow

/-- The records of a chain show that a step failed with a message, and that this was not to be
passed over. The loops around it name the iteration that it failed in. They carry the message, and
the splits around it failed as well. -/
inductive Fails (name message : String) :
    List Step → StepMap → List (String × Nat) → Step → Prop
  | here {step rest m r} (named : step.name = name)
    (stops : step.errorHandling.continues = false) (record : m.get? name = some r)
    (failed : r.status = .failed) (error : r.summary.error = some message) :
    Fails name message (step :: rest) m [] step
  | later {step rest m path x} (next : Fails name message rest m path x) :
    Fails name message (step :: rest) m path x
  | success {label c onSuccess onFailure rest m path x}
    (inside : Fails name message onSuccess m path x) :
    Fails name message (.branch label c onSuccess onFailure :: rest) m path x
  | failure {label c onSuccess onFailure rest m path x}
    (inside : Fails name message onFailure m path x) :
    Fails name message (.branch label c onSuccess onFailure :: rest) m path x
  | split {label settings branches rest m b path x r} (record : m.get? label.name = some r)
    (failed : r.status = .failed) (branch : b ∈ branches)
    (inside : Fails name message b.2 m path x) :
    Fails name message (.split label settings branches :: rest) m path x
  | loop {label settings body rest m summary item index its k path x}
    (record : m.get? label.name = some (.loop summary item index its))
    (failed : summary.status = .failed) (error : summary.error = some message)
    (iteration : its[index]? = some k) (inside : Fails name message body k path x) :
    Fails name message (.loop label settings body :: rest) m ((label.name, index) :: path) x

variable {setup : Setup} {chain : List Step} {m m' : StepMap} {path : List (String × Nat)}
  {name message : String} {x step : Step} {rest : List Step}

namespace Fails

/-! ## The step -/

theorem mem (h : Fails name message chain m path x) : x ∈ (chainRegion chain).steps := by
  induction h with
  | here => exact mem_first _ _
  | later _ ih => exact mem_later ih
  | success _ ih => exact mem_success ih
  | failure _ ih => exact mem_failure ih
  | split _ _ branch _ ih => exact mem_branch branch ih
  | loop _ _ _ _ _ ih => exact mem_body ih

theorem stops (h : Fails name message chain m path x) :
    x.name = name ∧ x.errorHandling.continues = false := by
  induction h with
  | here named stops => exact ⟨named, stops⟩
  | later _ ih | success _ ih | failure _ ih | split _ _ _ _ ih | loop _ _ _ _ _ ih => exact ih

/-- The record of the step is found where the path leads. -/
theorem record (h : Fails name message chain m path x) : ∃ r, m.at? ⟨path, name⟩ = some r ∧
    r.status = .failed ∧ r.summary.error = some message := by
  induction h with
  | @here _ _ _ r _ _ record failed error => exact ⟨r, record, failed, error⟩
  | later _ ih | success _ ih | failure _ ih | split _ _ _ _ ih => exact ih
  | loop record failed error iteration inside ih =>
    obtain ⟨r, hr, hrest⟩ := ih
    exact ⟨r, StepMap.at?_inside_eq_some.mpr ⟨_, _, _, record, rfl, iteration, hr⟩, hrest⟩

/-! ## The loops and splits around it -/

/-- Every loop on the path failed in the iteration that the path names, with the same message. -/
theorem loops (h : Fails name message chain m path x) {outer inner : List (String × Nat)}
    {l : String} {i : Nat} (hpath : path = outer ++ (l, i) :: inner) :
    ∃ summary item its, m.at? ⟨outer, l⟩ = some (.loop summary item i its) ∧
      summary.status = .failed ∧ summary.error = some message := by
  induction h generalizing outer with
  | here => simp at hpath
  | later _ ih | success _ ih | failure _ ih | split _ _ _ _ ih => exact ih hpath
  | @loop label _ _ _ _ summary item index its k path _ record failed error iteration inside ih =>
    rcases outer with _ | ⟨e, outer⟩
    · obtain ⟨⟨rfl, rfl⟩, rfl⟩ : (label.name = l ∧ index = i) ∧ path = inner := by
        simpa using hpath
      exact ⟨summary, item, its, record, failed, error⟩
    · obtain ⟨rfl, htail⟩ : (label.name, index) = e ∧ path = outer ++ (l, i) :: inner := by
        simpa using hpath
      obtain ⟨summary', item', its', hat, hrest⟩ := ih htail
      exact ⟨summary', item', its', StepMap.at?_inside_eq_some.mpr
        ⟨_, _, _, record, rfl, iteration, hat⟩, hrest⟩

/-- Every split around the step failed. -/
theorem splits {label : Label} {settings : SplitSettings}
    {branches : List (SplitBranch × List Step)} {b : SplitBranch × List Step}
    (h : Fails name message chain m path x) (hx : InBranch chain label settings branches b x) :
    ∃ outer inner r, path = outer ++ inner ∧ m.at? ⟨outer, label.name⟩ = some r ∧
      r.status = .failed := by
  induction h with
  | here => exact hx.not_first.elim
  | later next ih => exact ih (hx.later next.mem)
  | success inside ih => exact ih (hx.success inside.mem)
  | failure inside ih => exact ih (hx.failure inside.mem)
  | @split _ _ _ _ _ _ path _ r record failed branch inside ih =>
    rcases hx.part branch inside.mem with ⟨heq, -⟩ | hx
    · cases heq
      exact ⟨[], path, r, rfl, record, failed⟩
    · exact ih hx
  | @loop l _ _ _ _ _ _ index _ _ _ _ record failed error iteration inside ih =>
    obtain ⟨outer, inner, r, rfl, hat, hr⟩ := ih (hx.body inside.mem)
    exact ⟨(l.name, index) :: outer, inner, r, rfl, StepMap.at?_inside_eq_some.mpr
      ⟨_, _, _, record, rfl, iteration, hat⟩, hr⟩

/-! ## Other records -/

/-- The failure is shown by any records that have those of the chain. -/
theorem kept (h : Fails name message chain m path x)
    (hm : ∀ y ∈ (chainRegion chain).steps, ∀ r, m.get? y.name = some r → m'.get? y.name = some r) :
    Fails name message chain m' path x := by
  induction h with
  | @here step _ _ r named stops record failed error =>
    subst named
    exact .here rfl stops (hm step (mem_first _ _) r record) failed error
  | later _ ih => exact .later (ih fun y hy => hm y (mem_later hy))
  | success _ ih => exact .success (ih fun y hy => hm y (mem_success hy))
  | failure _ ih => exact .failure (ih fun y hy => hm y (mem_failure hy))
  | split record failed branch _ ih =>
    exact .split (hm _ (mem_first _ _) _ record) failed branch
      (ih fun y hy => hm y (mem_branch branch hy))
  | loop record failed error iteration inside =>
    exact .loop (hm _ (mem_first _ _) _ record) failed error iteration inside

end Fails

/-! ## Walks -/

section

variable {place : Place} {s s' : RunState} {t : Trace}

/-- A loop that fails does so because an iteration did: it records its index and its message. -/
theorem closeLoop_failed {l : Looping} {items : List Json} {duration : Nat} {maps : List StepMap}
    {decisive : Option (Nat × Verdict)}
    (hv : (closeLoop l items duration maps decisive).verdict = .failed name message) :
    ∃ i summary item, decisive = some (i, .failed name message) ∧
      (closeLoop l items duration maps decisive).steps =
        l.state.steps.insert l.name (.loop summary item i maps) ∧
      summary.status = .failed ∧ summary.error = some message := by
  rcases decisive with _ | ⟨i, v⟩
  · cases hv
  · have hv : v = .failed name message := hv
    subst hv
    exact ⟨i, _, _, rfl, rfl, rfl, rfl⟩

/-- A split that fails does so because a branch did. -/
theorem closeSplit_failed {label : String} {input : Json} {taken : List String} {duration : Nat}
    {merged : RunState} {halts : Halts} (hm : merged.verdict = .running)
    (hv : (closeSplit label input taken duration merged halts).verdict = .failed name message) :
    ∃ i summary, halts.decisive? = some (i, .failed name message) ∧
      (closeSplit label input taken duration merged halts).steps =
        merged.steps.insert label (.split summary taken) ∧ summary.status = .failed := by
  unfold closeSplit at hv ⊢
  cases hd : halts.decisive? with
  | none =>
    rw [hd] at hv
    exact absurd (hm.symm.trans hv) nofun
  | some d =>
    obtain ⟨i, v⟩ := d
    rw [hd] at hv
    have hv : v = .failed name message := hv
    subst hv
    exact ⟨i, _, rfl, rfl, rfl⟩

/-- The records at the end of a branch that did not pause are there after all branches. -/
theorem mergeBranches_kept {base : RunState} {index : Nat} {halts halts' : Halts}
    {merged merged' k : RunState} {paths : List Path} {kids : List RunState} {i : Nat} {path : Path}
    {n : String} {r : StepRecord} (hm : merged.steps.Tidy)
    (hkids : ∀ x ∈ paths.zip kids, Changes x.1.stepNames base x.2)
    (length : kids.length = paths.length)
    (disjoint : (paths.map Path.stepNames).Pairwise List.Disjoint)
    (h : mergeBranches base.steps index halts merged
      (paths.zip (kids.map fun s => some (.ok s))) = .ok (merged', halts'))
    (hpath : paths[i]? = some path) (hk : kids[i]? = some k) (hv : k.verdict.status ≠ .paused)
    (hn : n ∈ path.stepNames) (hb : merged.steps.get? n = base.steps.get? n)
    (hr : k.steps.get? n = some r) : merged'.steps.get? n = some r := by
  induction paths generalizing index halts merged kids i with
  | nil => cases hpath
  | cons first paths ih =>
    cases kids with
    | nil => cases length
    | cons s kids =>
      rw [List.map_cons, List.zip_cons_cons, mergeBranches_cons] at h
      rw [List.map_cons, List.pairwise_cons] at disjoint
      obtain ⟨hfirst, hrest⟩ := disjoint
      have hown : Changes first.stepNames base s := hkids (first, s) List.mem_cons_self
      have hothers (x) (hx : x ∈ paths.zip kids) : Changes x.1.stepNames base x.2 :=
        hkids x (List.mem_cons_of_mem _ hx)
      have hlength : kids.length = paths.length := by simpa using length
      cases i with
      | zero =>
        obtain rfl : first = path := by simpa using hpath
        obtain rfl : s = k := by simpa using hk
        rw [(mergeBranches_changes (tidy_mergeOne hm hown.tidy) hothers hlength h).2.1 n
            fun p hp hmem => hfirst _ (List.mem_map_of_mem hp) hn hmem,
          mergeOne_of_unpaused hv, get?_mergeSteps _ _ hown.tidy.nodup, hr]
        split_ifs with hsame
        · exact hb.trans hsame.symm
        · rfl
      | succ i =>
        have hpath : paths[i]? = some path := by simpa using hpath
        have hne : n ∉ first.stepNames := fun hmem =>
          hfirst _ (List.mem_map_of_mem (List.mem_of_getElem? hpath)) hmem hn
        refine ih (tidy_mergeOne hm hown.tidy) hothers hlength hrest h hpath (by simpa using hk) ?_
        exact (mergeOne_unchanged hm.nodup hown.tidy.nodup hne (hown.frame n hne)).trans hb

/-- An action that fails the run is not one after which the run goes on. -/
theorem runAction_traces {l : Label} {a : Flow.Action} (hs : s.verdict = .running)
    (hy : Job.Yields (runAction setup place l.name a s) t (.result (.ok s')))
    (hv : s'.verdict = .failed name message) :
    Fails name message (.action l a :: rest) s'.steps [] (.action l a) := by
  rcases runAction_ends hy with ⟨-, rfl⟩ | ⟨-, ⟨input, failure, duration, rfl⟩ |
    ⟨i, output, duration, hook, -, rfl⟩⟩
  · rw [hs] at hv
    cases hv
  · unfold failedState at hv ⊢
    dsimp only at hv ⊢
    split_ifs at hv ⊢ with hc
    · exact absurd (hs.symm.trans hv) nofun
    · cases hv
      exact .here rfl (Bool.eq_false_iff.mpr hc) (StepMap.get?_insert_self _ _ _) rfl rfl
  · rcases hook with _ | pause | response
    · exact absurd (hs.symm.trans hv) nofun
    · cases hv
    · cases hv

/-- A branch, a split or a loop that fails before anything in it is walked. -/
theorem fails_at {input : Json} {text : String} (hstep : step.errorHandling = .none)
    (hs' : s' = (s.upsert step.name (failedRecord input text)).withVerdict (.failed step.name text))
    (hv : s'.verdict = .failed name message) : Fails name message (step :: rest) s'.steps [] step := by
  subst hs'
  cases hv
  exact .here rfl (by rw [hstep]; rfl) (StepMap.get?_insert_self _ _ _) rfl rfl

/-- Whenever a walk fails, the records of a chain show of which step. -/
def Traces (chain : List Step) (w : Body) : Prop :=
  ∀ (place : Place) (s : RunState) (t : Trace) (s' : RunState) (name message : String),
    s.verdict = .running → s.steps.Tidy → Job.Yields (w place s) t (.result (.ok s')) →
      s'.verdict = .failed name message → ∃ path x, Fails name message chain s'.steps path x

/-- A loop that fails does so because of the step that its body failed at. -/
theorem runLoop_traces {l : Label} {settings : LoopSettings} {body : List Step} {wB : Body}
    (hB : Traces body wB) (hs : s.verdict = .running) (ht : s.steps.Tidy)
    (hy : Job.Yields (runLoop setup place l.name settings wB s) t (.result (.ok s')))
    (hv : s'.verdict = .failed name message) :
    ∃ path x, Fails name message (.loop l settings body :: rest) s'.steps path x := by
  rcases runLoop_ends hy with ⟨-, hdone⟩ | ⟨-, ⟨-, hfails⟩ | ⟨items, started, its, hits, hy⟩⟩
  · obtain ⟨-, rfl⟩ := hdone s' rfl
    exact absurd (hs.symm.trans hv) nofun
  · obtain ⟨input, text, hs'⟩ := hfails s' rfl
    exact ⟨[], _, fails_at rfl hs' hv⟩
  obtain ⟨traces, kids, maps, decisive, duration, hit, rfl⟩ := (walkItems_yields rfl hy).2 s' rfl
  obtain ⟨i, summary, item, rfl, hsteps, hfailed, herror⟩ := closeLoop_failed hv
  obtain ⟨_, m, k, hx, -, hkv, hran, hm⟩ := hit.decided
  have htidy := tidy_entered ht hits items.length _ (List.of_mem_zip (List.mem_of_getElem? hx)).2
  obtain ⟨path, x, h⟩ := hB _ (s.nested m) _ k name message rfl htidy hran hkv
  rw [hsteps]
  exact ⟨_, x, .loop (StepMap.get?_insert_self _ _ _) hfailed herror hm h⟩

theorem arms_change (setup : Setup) (branches : List (SplitBranch × List Step)) :
    ∀ a ∈ arms setup branches, ChangesOwn a.region a.body := by
  intro a ha
  obtain ⟨b, -, rfl⟩ := List.mem_map.mp ha
  exact walk_changes setup b.2

/-- A split that fails does so because of the step that one of its branches failed at. -/
theorem runSplit_traces {l : Label} {settings : SplitSettings}
    {branches : List (SplitBranch × List Step)}
    (hbranches : ∀ b ∈ branches, Traces b.2 (walk setup b.2))
    (hnd : (l.name :: Region.branchNames (branchRegions branches)).Nodup)
    (hs : s.verdict = .running) (ht : s.steps.Tidy)
    (hy : Job.Yields (runSplit setup place l.name settings ((arms setup branches).map (Arm.path place))
      s) t (.result (.ok s'))) (hv : s'.verdict = .failed name message) :
    ∃ path x, Fails name message (.split l settings branches :: rest) s'.steps path x := by
  rcases runSplit_ends hy with ⟨-, hdone⟩ | ⟨-, ⟨-, hfails⟩ | ⟨started, input, taken, hy⟩⟩
  · obtain ⟨-, rfl⟩ := hdone s' rfl
    exact absurd (hs.symm.trans hv) nofun
  · obtain ⟨input, text, hs'⟩ := hfails s' rfl
    exact ⟨[], _, fails_at rfl hs' hv⟩
  obtain ⟨traces, kids, merged, halts, duration, hb, hmerge, rfl⟩ := (walkPaths_yields hy).2 s' rfl
  obtain ⟨hsees, hverdict⟩ := mergeBranches_sees .nil (by simpa using hb.length) hmerge
  obtain ⟨i, summary, hd, hsteps, hfailed⟩ := closeSplit_failed (hverdict.trans hs) hv
  have hdecides := hsees.decides
  rw [hd] at hdecides
  obtain ⟨a, k, ha, hk, hkv, hran⟩ := hb.decided hdecides
  obtain ⟨hmem, -, hnames⟩ := Arm.names_subset (List.mem_of_getElem? ha)
  obtain ⟨b, hbranch, rfl⟩ := List.mem_map.mp hmem
  have hbase : (splitBase s l.name input taken).steps.Tidy := splitBase_tidy ht
  obtain ⟨path, x, h⟩ := hbranches b hbranch place (splitBase s l.name input taken) _ k name message hs
    hbase hran hkv
  rw [List.nodup_cons, ← arms_part setup] at hnd
  have hrecord : (closeSplit l.name input taken duration merged halts).steps.get? l.name =
      some (.split summary taken) := by
    rw [hsteps]
    exact StepMap.get?_insert_self _ _ _
  refine ⟨path, x, .split hrecord hfailed hbranch (h.kept fun y hy r hr => ?_)⟩
  have hn : y.name ∈ (chainRegion b.2).names := List.mem_map_of_mem hy
  have hne : l.name ≠ y.name := fun heq => hnd.1 (heq ▸ hnames hn)
  have hpath : ((Arm.taken (arms setup branches) taken).map (Arm.path place))[i]? =
      some ⟨b.1, (chainRegion b.2).names, walk setup b.2 place⟩ := by
    rw [List.getElem?_map, ha]
    rfl
  have hdisjoint : (((Arm.taken (arms setup branches) taken).map (Arm.path place)).map
      Path.stepNames).Pairwise List.Disjoint :=
    List.pairwise_map.mpr (List.pairwise_map.mpr (Arm.disjoint_taken taken hnd.2))
  rw [hsteps, StepMap.get?_insert_of_ne _ _ hne]
  exact mergeBranches_kept hbase (hb.changes (arms_change setup branches) hbase)
    (by simpa using hb.length) hdisjoint hmerge hpath hk (by simp [hkv, Verdict.status]) hn rfl hr

theorem traces_hereditary : HereditaryDistinct (fun chain => Traces chain (walk setup chain))
    fun step => ∀ rest, Traces (step :: rest) (walkStep setup step) where
  nil := by
    intro place s t s' name message hs _ hy hv
    rw [walk_nil] at hy
    obtain ⟨-, rfl⟩ := Yields.of_ended hy
    exact absurd (hs.symm.trans hv) nofun
  cons step rest _ hstep hrest := by
    intro place s t s' name message hs ht hy hv
    rw [walk_cons] at hy
    rcases Job.Yields.of_andThen hy with ⟨s₁, t₁, t₂, rfl, hy₁, hy₂⟩ | ⟨-, ho⟩
    · split_ifs at hy₂ with hrun
      · obtain ⟨path, x, h⟩ := hrest place s₁ t₂ s' name message (isRunning_iff.mp hrun)
          (walkStep_changes setup step place s t₁ s₁ ht hy₁).tidy hy₂ hv
        exact ⟨path, x, .later h⟩
      · obtain ⟨-, rfl⟩ := Yields.of_ended hy₂
        exact hstep rest place s t₁ s' name message hs ht hy₁ hv
    · exact absurd rfl (ho s')
  trigger _ _ rest := by
    intro place s t s' name message _ _ hy _
    rw [walkStep] at hy
    obtain ⟨-, ho | ho⟩ := Job.Yields.done_iff.mp hy <;> cases ho
  action l a rest := by
    intro place s t s' name message hs _ hy hv
    rw [walkStep_action] at hy
    exact ⟨[], _, runAction_traces hs hy hv⟩
  branch l c onSuccess onFailure _ hsuccess hfailure rest := by
    intro place s t s' name message hs ht hy hv
    rw [walkStep_branch] at hy
    rcases runBranch_ends hy with ⟨-, hends⟩ | ⟨holds, s₁, hs₁, -, hy⟩
    · rcases hends s' rfl with ⟨-, -, rfl⟩ | ⟨-, input, text, hs'⟩
      · exact absurd (hs.symm.trans hv) nofun
      · exact ⟨[], _, fails_at rfl hs' hv⟩
    obtain ⟨hverdict, htidy⟩ := side_entered hs₁
    cases holds
    · obtain ⟨path, x, h⟩ := hfailure place s₁ t s' name message (hverdict.trans hs) (htidy ht) hy hv
      exact ⟨path, x, .failure h⟩
    · obtain ⟨path, x, h⟩ := hsuccess place s₁ t s' name message (hverdict.trans hs) (htidy ht) hy hv
      exact ⟨path, x, .success h⟩
  split l settings branches hnd hbranches rest := by
    intro place s t s' name message hs ht hy hv
    rw [walkStep_split] at hy
    exact runSplit_traces hbranches hnd hs ht hy hv
  loop l settings body _ hbody rest := by
    intro place s t s' name message hs ht hy hv
    rw [walkStep_loop] at hy
    exact runLoop_traces hbody hs ht hy hv

/-- The walk of a chain that fails does so because of a step, and the records show which one. -/
theorem walk_traces (chain : List Step) (hnd : (chainRegion chain).names.Nodup) :
    Traces chain (walk setup chain) :=
  traces_hereditary.chain hnd

end

end FlowEngine.Engine
