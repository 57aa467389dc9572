import FlowEngine.Proofs.Selection.Order

/-!
# Branches in the order of the flow

The records that branches put after those of a split are put together branch by branch.

* `Grown` — one branch; `Shown` — all branches, with the records that show them.
* `appended_mergeBranches` — what is put together of branches that grew.
* `walk_appends` — so every walk that begins without records of its steps puts those of the selected
  steps in the order of the flow.
-/

namespace FlowEngine.Engine

open FlowEngine.Run FlowEngine.Flow

/-! ## Putting branches together -/

/-- A branch that ended normally and put the records of its selected steps after those of the split. -/
structure Grown (base : StepMap) (chain : List Step) (s : RunState) : Prop where
  verdict : s.verdict = .running
  returned : Returned base (chainRegion chain).names s.steps
  appended : Appended (selected s.steps chain) base s.steps

/-- The walks of branches that are put together. -/
def armPath (setup : Setup) (place : Place) (b : SplitBranch × List Step) : Path :=
  Arm.path place ⟨b.1, chainRegion b.2, walk setup b.2⟩

variable {setup : Setup} {place : Place} {base : StepMap}

theorem Grown.newNames {chain : List Step} {s : RunState} (h : Grown base chain s) :
    newNames base s = (selected s.steps chain).map Step.name := by
  have hnd := h.returned.nodup
  rw [h.appended.names] at hnd
  have hnew : ∀ n ∈ (selected s.steps chain).map Step.name, n ∉ base.names := fun n hn hbase =>
    List.disjoint_of_nodup_append hnd hbase hn
  rw [Engine.newNames, h.appended.names, List.filter_append, List.filter_eq_nil_iff.mpr (by simp),
    List.nil_append]
  exact List.filter_eq_self.mpr fun n hn => by simpa using hnew n hn

/-! ## Splits -/

/-- The selected steps of a split are those of its branches that were taken. -/
theorem selectedBranches_eq (m : StepMap) (taken : List String)
    (branches : List (SplitBranch × List Step)) : selectedBranches m taken branches =
      (branches.filter fun b => taken.contains b.1.name).flatMap fun b => selected m b.2 := by
  induction branches with
  | nil => rfl
  | cons b rest ih =>
    obtain ⟨b, steps⟩ := b
    rw [selectedBranches, ih, List.filter_cons]
    by_cases hb : b.name ∈ taken
    · rw [if_pos hb, if_pos (by simpa using hb), List.flatMap_cons]
    · rw [if_neg hb, if_neg (by simpa using hb), List.nil_append]

/-- Branches that begin without records of their steps and end normally grow. -/
theorem Branched.grown {base : RunState} {chosen : List (SplitBranch × List Step)} {t : Trace}
    {traces : Nat → Trace} {kids : List RunState}
    (hb : Branched place base (arms setup chosen) t traces kids) (ht : base.steps.Tidy)
    (hrun : ∀ k ∈ kids, k.verdict = .running)
    (hfresh : ∀ b ∈ chosen, Fresh (chainRegion b.2).names base.steps)
    (happends : ∀ b ∈ chosen, Appends (chainRegion b.2) (selected · b.2) (walk setup b.2)) :
    ∀ b k, (b, k) ∈ chosen.zip kids → Grown base.steps b.2 k := by
  intro b k hbk
  obtain ⟨i, hi⟩ := List.getElem?_of_mem hbk
  obtain ⟨hc, hk⟩ := List.getElem?_zip_eq_some.mp hi
  have hmem := List.mem_of_getElem? hc
  have hrun := hrun k (List.mem_of_getElem? hk)
  have hran := hb.ran i _ k (by rw [arms, List.getElem?_map, hc]; rfl) hk
  have hchanges := walk_changes setup b.2 place _ _ k ht hran
  have happended := happends b hmem place _ _ k ht (hfresh b hmem) hran hrun
  refine ⟨hrun, ⟨hchanges.tidy.nodup, hchanges.frame, fun n r hr => ?_⟩, happended⟩
  refine StepMap.mem_names_iff.mp ?_
  rw [happended.names]
  exact List.mem_append_left _ (StepMap.mem_names_iff.mpr ⟨r, hr⟩)

/-- Branches that grew, and records that show those of each branch. -/
structure Shown (base : StepMap) (chosen : List (SplitBranch × List Step)) (kids : List RunState)
    (m : StepMap) : Prop where
  length : kids.length = chosen.length
  grown : ∀ b k, (b, k) ∈ chosen.zip kids → Grown base b.2 k
  agree : ∀ b k, (b, k) ∈ chosen.zip kids → Agree (chainRegion b.2).names k.steps m

namespace Shown

variable {chosen : List (SplitBranch × List Step)} {kids : List RunState} {m : StepMap}
  {b : SplitBranch × List Step} {k : RunState}

/-- Every branch has a state at its end. -/
theorem kid (h : Shown base chosen kids m) (hb : b ∈ chosen) : ∃ k, (b, k) ∈ chosen.zip kids := by
  obtain ⟨i, hi⟩ := List.getElem?_of_mem hb
  obtain ⟨k, hk⟩ := exists_getElem? h.length.symm hi
  exact ⟨k, List.mem_of_getElem? (List.getElem?_zip_eq_some.mpr ⟨hi, hk⟩)⟩

theorem selected_eq (h : Shown base chosen kids m) (hb : (b, k) ∈ chosen.zip kids) :
    selected m b.2 = selected k.steps b.2 :=
  selected_congr b.2 (h.agree b k hb)

/-- What the branches put after the others are their selected steps. -/
theorem newNames (h : Shown base chosen kids m) : kids.flatMap (newNames base) =
    chosen.flatMap fun b => (selected m b.2).map Step.name := by
  have hzip : (chosen.zip kids).flatMap (fun x => Engine.newNames base x.2) =
      (chosen.zip kids).flatMap fun x => (selected m x.1.2).map Step.name :=
    List.flatMap_congr fun ⟨b, k⟩ hb => by rw [h.selected_eq hb, (h.grown b k hb).newNames]
  rw [← List.flatMap_map Prod.snd (Engine.newNames base), ← List.flatMap_map Prod.fst fun b :
    SplitBranch × List Step => (selected m b.2).map Step.name,
    List.map_snd_zip (Nat.le_of_eq h.length), List.map_fst_zip (Nat.le_of_eq h.length.symm)] at hzip
  exact hzip

/-- The selected steps of a branch have records. -/
theorem mem_names (h : Shown base chosen kids m) (hb : b ∈ chosen) {n : String}
    (hn : n ∈ (selected m b.2).map Step.name) : n ∈ m.names := by
  obtain ⟨k, hb⟩ := h.kid hb
  rw [h.selected_eq hb] at hn
  have hk : n ∈ k.steps.names := by
    rw [(h.grown b k hb).appended.names]
    exact List.mem_append_right _ hn
  obtain ⟨r, hr⟩ := StepMap.mem_names_iff.mp hk
  exact StepMap.mem_names_iff.mpr ⟨r, (h.agree b k hb n (selected_names_subset _ _ hn)).trans hr⟩

/-- If what the branches put after the others is what is new, this is one branch after the other. -/
theorem appended (h : Shown base chosen kids m)
    (names : m.names = base.names ++ (kids.flatMap (Engine.newNames base)).filter (· ∈ m.names)) :
    Appended (chosen.flatMap fun b => selected m b.2) base m := by
  refine ⟨?_, fun l settings body summary item index its hs hl => ?_⟩
  · have hall : ∀ n ∈ kids.flatMap (Engine.newNames base), n ∈ m.names := fun n hn => by
      rw [h.newNames] at hn
      obtain ⟨b, hb, hn⟩ := List.mem_flatMap.mp hn
      exact h.mem_names hb hn
    rw [names, List.filter_eq_self.mpr fun n hn => by simpa using hall n hn, h.newNames,
      List.map_flatMap]
  · obtain ⟨b, hb, hs⟩ := List.mem_flatMap.mp hs
    obtain ⟨k, hb⟩ := h.kid hb
    have hname := selected_names_subset _ _ (List.mem_map_of_mem (f := Step.name) hs)
    rw [h.selected_eq hb] at hs
    exact (h.grown b k hb).appended.inner l settings body summary item index its hs
      ((h.agree b k hb l.name hname).symm.trans hl)

end Shown

/-- What is put together of branches that grew shows the records of each of them, one branch after the
other. -/
theorem appended_mergeBranches {base merged : RunState} {chosen : List (SplitBranch × List Step)}
    {kids : List RunState} {halts : Halts} (length : kids.length = chosen.length)
    (hgrown : ∀ b k, (b, k) ∈ chosen.zip kids → Grown base.steps b.2 k)
    (hfresh : ∀ b ∈ chosen, Fresh (chainRegion b.2).names base.steps)
    (hdisjoint : chosen.Pairwise fun a b =>
      (chainRegion a.2).names.Disjoint (chainRegion b.2).names)
    (hbase : base.steps.names.Nodup)
    (h : mergeBranches base.steps 0 Halts.none base
      ((chosen.map (armPath setup place)).zip (kids.map fun k => some (.ok k))) =
        .ok (merged, halts)) :
    Appended (chosen.flatMap fun b => selected merged.steps b.2) base.steps merged.steps := by
  have returned (i : Nat) (path : Path) (k : RunState)
      (hp : (chosen.map (armPath setup place))[i]? = some path) (hk : kids[i]? = some k) :
      Returned base.steps path.stepNames k.steps := by
    rw [List.getElem?_map, Option.map_eq_some_iff] at hp
    obtain ⟨b, hb, rfl⟩ := hp
    exact (hgrown b k (List.mem_of_getElem? (List.getElem?_zip_eq_some.mpr ⟨hb, hk⟩))).returned
  have disjoint : ((chosen.map (armPath setup place)).map Path.stepNames).Pairwise List.Disjoint := by
    rw [List.map_map, List.pairwise_map]
    exact hdisjoint
  have hlength : kids.length = (chosen.map (armPath setup place)).length := by simpa using length
  obtain ⟨-, hother, hown⟩ := mergeBranches_ok .nil hbase hlength returned disjoint h
  have hjoined : Shown base.steps chosen kids merged.steps := by
    refine ⟨length, hgrown, fun b k hbk n hn => ?_⟩
    obtain ⟨i, hi⟩ := List.getElem?_of_mem hbk
    obtain ⟨hb, hk⟩ := List.getElem?_zip_eq_some.mp hi
    refine (hown i (armPath setup place b) k n (by rw [List.getElem?_map, hb]; rfl) hk hn rfl).2
      fun hr => ?_
    -- a branch that ended normally did not pause
    have hk' : (kids.map some)[0 + i]? = some (some k) := by
      rw [Nat.zero_add, List.getElem?_map, hk]
      rfl
    obtain ⟨pause, hv⟩ := hr.paused hk'
    exact absurd ((hgrown b k hbk).verdict.symm.trans hv) nofun
  refine hjoined.appended (mergeBranches_names hbase hlength returned disjoint h fun n hn => ?_)
  -- the records of the split are still there, since no branch has steps of their names
  obtain ⟨r, hr⟩ := StepMap.mem_names_iff.mp hn
  refine StepMap.mem_names_iff.mpr ⟨r, (hother n fun path hp hmem => ?_).trans hr⟩
  obtain ⟨b, hb, rfl⟩ := List.mem_map.mp hp
  exact absurd ((hfresh b hb n hmem).symm.trans hr) nofun

/-- The record of a split is before those of its branches, and that it is replaced changes no order. -/
theorem appended_split {l : Label} {settings : SplitSettings}
    {branches : List (SplitBranch × List Step)} {s merged : RunState} {input : Json}
    {taken : List String} (hname : ∀ b ∈ branches, l.name ∉ (chainRegion b.2).names)
    (hnone : s.steps.get? l.name = none)
    (hmerged : Appended ((branches.filter fun b => taken.contains b.1.name).flatMap fun b =>
      selected merged.steps b.2) (splitBase s l.name input taken).steps merged.steps)
    (summary : Summary) :
    Appended (.split l settings branches :: selectedInside
        (merged.steps.insert l.name (.split summary taken)) (.split l settings branches))
      s.steps (merged.steps.insert l.name (.split summary taken)) := by
  have hone : Appended [.split l settings branches] s.steps
      (splitBase s l.name input taken).steps := .insert hnone (by rintro _ _ _ _ ⟨⟩)
  have hown : l.name ∈ merged.steps.names := by
    rw [hmerged.names]
    exact List.mem_append_left _ (StepMap.mem_names_iff.mpr ⟨_, splitBase_own s l.name input taken⟩)
  set chosen := branches.filter fun b => taken.contains b.1.name with hchosen
  have hkept {b : SplitBranch × List Step} (hb : b ∈ chosen) : Agree (chainRegion b.2).names
      merged.steps (merged.steps.insert l.name (.split summary taken)) := fun n hn =>
    StepMap.get?_insert_of_ne _ _ (by rintro rfl; exact hname b (List.mem_filter.mp hb).1 hn)
  have hselected : (chosen.flatMap fun b =>
      selected (merged.steps.insert l.name (.split summary taken)) b.2) =
        chosen.flatMap fun b => selected merged.steps b.2 :=
    List.flatMap_congr fun b hb => selected_congr _ (hkept hb)
  rw [selectedInside_split (StepMap.get?_insert_self _ _ _), selectedBranches_eq, ← hchosen,
    hselected]
  refine ⟨?_, fun l' settings' body summary' item index its hs hl => ?_⟩
  · rw [StepMap.names_insert_of_mem _ hown, hmerged.names, hone.names, List.append_assoc]
    rfl
  · have hs := (List.mem_cons.mp hs).resolve_left (by simp)
    obtain ⟨b, hb, hmem⟩ := List.mem_flatMap.mp hs
    have hin := selected_names_subset _ _ (List.mem_map_of_mem (f := Step.name) hmem)
    exact hmerged.inner l' settings' body summary' item index its hs
      ((hkept hb l'.name hin).symm.trans hl)

theorem appends_split (l : Label) (settings : SplitSettings)
    (branches : List (SplitBranch × List Step))
    (hname : l.name ∉ Region.branchNames (branchRegions branches))
    (hnd : (Region.branchNames (branchRegions branches)).Nodup)
    (hbranches : ∀ b ∈ branches, Appends (chainRegion b.2) (selected · b.2) (walk setup b.2)) :
    Appends (.split (.split l settings branches) (branchRegions branches))
      (fun m => .split l settings branches :: selectedInside m (.split l settings branches))
      fun place s =>
        runSplit setup place l.name settings ((arms setup branches).map (Arm.path place)) s := by
  intro place s t s' ht hfresh hy hv
  rw [Region.split_names] at hfresh
  have hnone : s.steps.get? l.name = none := hfresh _ List.mem_cons_self
  rcases runSplit_first hnone hy with ⟨-, ho⟩ | ⟨-, input, message, ho⟩ |
    ⟨started, input, taken, hy⟩
  · exact absurd rfl (ho s')
  · cases ho
    cases hv
  obtain ⟨traces, kids, merged, halts, duration, hb, hmerge, rfl⟩ := (walkPaths_yields hy).2 s' rfl
  obtain ⟨hsees, -⟩ := mergeBranches_sees .nil (by simpa using hb.length) hmerge
  obtain ⟨-, hall⟩ := closeSplit_running hsees hv
  obtain ⟨summary, hsteps, -⟩ := closeSplit_eq l.name input taken duration merged halts
  have htidy : (splitBase s l.name input taken).steps.Tidy := splitBase_tidy ht
  have hsub {b : SplitBranch × List Step} (hb : b ∈ branches) :
      (chainRegion b.2).names ⊆ Region.branchNames (branchRegions branches) := by
    rw [← arms_part setup]
    exact Region.branchNames_subset (x := (b.1.name, chainRegion b.2))
      (List.mem_map.mpr ⟨_, List.mem_map_of_mem hb, rfl⟩)
  have hinner {b : SplitBranch × List Step} (hb : b ∈ branches) :
      l.name ∉ (chainRegion b.2).names := fun hn => hname (hsub hb hn)
  have hmem {b : SplitBranch × List Step}
      (hb : b ∈ branches.filter fun b => taken.contains b.1.name) : b ∈ branches :=
    (List.mem_filter.mp hb).1
  have hfreshbase : ∀ b ∈ branches.filter fun b => taken.contains b.1.name,
      Fresh (chainRegion b.2).names (splitBase s l.name input taken).steps := fun b hb n hn => by
    rw [splitBase_other s input taken (by rintro rfl; exact hinner (hmem hb) hn)]
    exact hfresh n (List.mem_cons_of_mem _ (hsub (hmem hb) hn))
  have hdisjoint := Arm.disjoint_taken taken (arms_part setup branches ▸ hnd)
  rw [taken_arms] at hb hmerge
  rw [taken_arms, arms, List.pairwise_map] at hdisjoint
  have hgrown := hb.grown htidy hall hfreshbase fun b hb => hbranches b (hmem hb)
  rw [arms, List.map_map] at hmerge
  dsimp only
  rw [hsteps]
  exact appended_split (fun b => hinner) hnone
    (appended_mergeBranches (by simpa [arms] using hb.length) hgrown hfreshbase
      hdisjoint htidy.nodup hmerge) summary

/-! ## Chains -/

theorem selectedInside_chooses (step : Step) :
    Chooses (stepRegion step) fun m => step :: selectedInside m step where
  mem {m _} hs := ((selectedInside_sublist m step).map Step.name).subset (List.mem_map_of_mem hs)
  congr ha := congrArg (step :: ·) (selectedInside_congr step ha)

variable (setup)

theorem appends_hereditary : HereditaryDistinct
    (fun chain => Appends (chainRegion chain) (selected · chain) (walk setup chain))
    fun step => Appends (stepRegion step) (fun m => step :: selectedInside m step)
      (walkStep setup step) where
  nil := by
    intro place s t s' _ _ hy _
    rw [walk] at hy
    obtain ⟨-, rfl⟩ := Yields.of_ended hy
    exact .refl _
  cons step rest hnd hstep hrest := by
    rw [chainRegion, walk_cons]
    exact .seq (List.disjoint_of_nodup_append hnd) ((changesOwn_inductive setup).step step)
      (walk_changes setup rest) (selectedInside_chooses step) hstep hrest
  trigger l t := by
    intro place s t s' _ _ hy _
    rw [walkStep] at hy
    obtain ⟨-, ho | ho⟩ := Job.Yields.done_iff.mp hy <;> cases ho
  action l a := by
    rw [stepRegion, walkStep_action]
    exact appends_action l a
  branch l c onSuccess onFailure hnd hsuccess hfailure := by
    rw [stepRegion, walkStep_branch]
    exact appends_branch l c onSuccess onFailure (List.nodup_cons.mp hnd).1
      (walk_changes setup onSuccess) (walk_changes setup onFailure) hsuccess hfailure
  split l settings branches hnd hbranches := by
    obtain ⟨hname, hinner⟩ := List.nodup_cons.mp hnd
    rw [stepRegion, walkStep_split]
    exact appends_split l settings branches hname hinner hbranches
  loop l settings body _ hbody := by
    rw [stepRegion, walkStep_loop]
    exact appends_loop l settings body hbody

/-- A walk of a chain that begins without records of its steps and ends normally puts the records of
the selected steps after the others, in the order of the flow. -/
theorem walk_appends (chain : List Step) (hnd : (chainRegion chain).names.Nodup) :
    Appends (chainRegion chain) (selected · chain) (walk setup chain) :=
  (appends_hereditary setup).chain hnd

end FlowEngine.Engine
