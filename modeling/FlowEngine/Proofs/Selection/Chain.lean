import FlowEngine.Proofs.Selection.Steps

/-!
# Walks of chains keep records sound

* `preserves_parts`, `preserves_split` — walks of splits, given those of their branches.
* `walk_preserves` — walks of chains, of whatever shape.
-/

namespace FlowEngine.Engine

open FlowEngine.Run FlowEngine.Flow

variable {setup : Setup}

/-! ## Splits -/

section

variable {arms : List Arm} {name : String} {place : Place} {q : Option Position} {s : RunState}
  {input : Json} {taken : List String} {index : Nat} {traces : Nat → Trace} {kids : List RunState}
  {merged : RunState} {decisive : Option (Nat × Verdict)}

/-- If no branch decides once the split is finished, then its branches are complete by then, or have
no records. -/
theorem SplitEnd.closed
    (h : SplitEnd arms name place q s input taken index traces kids merged decisive)
    {summary : Summary} (hfin : summary.status.isFinished = true → decisive = none) :
    ClosedBranches name (arms.map Arm.part) (merged.steps.insert name (.split summary taken)) := by
  intro r hr hf taken' htaken x hx
  rw [StepMap.get?_insert_self] at hr
  cases hr
  obtain rfl := Option.some.inj htaken
  obtain rfl := hfin hf
  obtain ⟨a, ha, rfl⟩ := List.mem_map.mp hx
  exact ⟨fun hn => h.complete ha hn _, fun hn => h.untaken ha hn _⟩

/-- The records of a branch are sound at the end of a split, if its walk keeps them sound. -/
theorem SplitEnd.sound
    (h : SplitEnd arms name place q s input taken index traces kids merged decisive)
    {S : StepMap → Prop} {a : Arm} (ha : a ∈ arms) (hlocal : Local a.region.names S)
    (hs : S s.steps)
    (hkid : ∀ (i : Nat) (k : RunState), (Arm.taken arms taken)[i]? = some a → kids[i]? = some k →
      S (splitBase s name input taken).steps → S k.steps) (r : StepRecord) :
    S (merged.steps.insert name r) := by
  by_cases hn : a.branch.name ∈ taken
  · have hta := Arm.mem_taken ha hn
    obtain ⟨i, hi⟩ := List.getElem?_of_mem hta
    have hpart := Arm.part_at (splitBase s name input taken).steps hi
    have hbase : S (splitBase s name input taken).steps := hlocal.agree
      (fun n hn => splitBase_other s input taken (h.ne_name ((Arm.names_subset hta).2.2 hn))) hs
    refine hlocal.agree (h.agree hta r) <|
      hlocal.settled (h.combined.settled i a hi) (h.fan.kid hpart) hbase fun k hk => ?_
    exact ⟨(h.fan.lands i _ _ k hpart hk).tidy,
      hkid i k hi (by simpa [List.getElem?_map] using hk) hbase⟩
  · exact hlocal.agree (h.left ha hn r) hs

end

/-- What the branches of a split keep of the records of their steps is kept by the split. -/
theorem preserves_parts (l : Label) (settings : SplitSettings)
    (branches : List (SplitBranch × List Step))
    (harms : ∀ a ∈ arms setup branches, Follows setup a.region a.body)
    (hname : l.name ∉ Region.branchNames ((arms setup branches).map Arm.part))
    (hnd : (Region.branchNames ((arms setup branches).map Arm.part)).Nodup)
    {S : SplitBranch × List Step → StepMap → Prop}
    (hlocal : ∀ b ∈ branches, Local (chainRegion b.2).names (S b))
    (hp : ∀ b ∈ branches, Preserves (chainRegion b.2) (S b) (walk setup b.2)) :
    Preserves (.split (.split l settings branches) ((arms setup branches).map Arm.part))
      (fun m => ∀ b ∈ branches, S b m) fun place s =>
        runSplit setup place l.name settings ((arms setup branches).map (Arm.path place)) s := by
  intro place q s t s' hv ht hstage hs hy hgo
  rcases runSplit_yields hstage hy with ⟨-, -, -, hs'⟩ | ⟨-, ho⟩ | ⟨-, -, -, input, message, ho⟩ |
    ⟨started, input, taken, index, he, hy⟩
  · obtain rfl := hs' s' rfl
    exact hs
  · exact absurd rfl (ho s')
  · cases ho
    exact absurd hgo not_goesOn_failed
  obtain ⟨traces, kids, merged, halts, duration, hb, hm, rfl⟩ := (walkPaths_yields hy).2 s' rfl
  have hend := he.ends harms hv ht hname hnd hb hm
  obtain ⟨summary, hsteps, -, -, -, hverdict, -⟩ :=
    closeSplit_eq l.name input taken duration merged halts
  have hdecides : ∀ i v, halts.decisive? = some (i, v) → GoesOn v := fun i v hd => by
    rw [hverdict i v hd] at hgo
    exact hgo
  intro b hbranch
  rw [hsteps]
  refine hend.sound (List.mem_map_of_mem hbranch) (hlocal b hbranch) (hs b hbranch)
    (fun i k hi hk hbase => ?_) _
  exact hp b hbranch place _ (splitBase s l.name input taken) _ k hv (splitBase_tidy ht)
    (hend.fan.spread.stage i _ _ (Arm.part_at _ hi)) hbase (hb.ran i _ k hi hk)
    (hend.combined.decides.goesOn hdecides (by rw [List.getElem?_map, hk]; rfl))

theorem preserves_split (l : Label) (settings : SplitSettings)
    (branches : List (SplitBranch × List Step))
    (harms : ∀ a ∈ arms setup branches, Follows setup a.region a.body)
    (hname : l.name ∉ Region.branchNames ((arms setup branches).map Arm.part))
    (hnd : (Region.branchNames ((arms setup branches).map Arm.part)).Nodup)
    (hp : ∀ b ∈ branches, Preserves (chainRegion b.2) (Sound b.2) (walk setup b.2)) :
    Preserves (.split (.split l settings branches) ((arms setup branches).map Arm.part))
      (fun m => Closed (.split l settings branches) m ∧
        ClosedBranches l.name ((arms setup branches).map Arm.part) m ∧ BranchesSound branches m)
      fun place s =>
        runSplit setup place l.name settings ((arms setup branches).map (Arm.path place)) s := by
  rintro place q s t s' hv ht hstage ⟨hclosed, hinner, hsound⟩ hy hgo
  have hsound' := preserves_parts l settings branches harms hname hnd
    (fun b _ => sound_local b.2) hp place q s t s' hv ht hstage (branchesSound_iff.mp hsound) hy hgo
  rcases runSplit_yields hstage hy with ⟨-, -, -, hs'⟩ | ⟨-, ho⟩ | ⟨-, -, -, input, message, ho⟩ |
    ⟨started, input, taken, index, he, hy⟩
  · obtain rfl := hs' s' rfl
    exact ⟨hclosed, hinner, hsound⟩
  · exact absurd rfl (ho s')
  · cases ho
    exact absurd hgo not_goesOn_failed
  obtain ⟨traces, kids, merged, halts, duration, hb, hm, rfl⟩ := (walkPaths_yields hy).2 s' rfl
  have hend := he.ends harms hv ht hname hnd hb hm
  obtain ⟨summary, hsteps, -, -, hnormal, hverdict, hpaused⟩ :=
    closeSplit_eq l.name input taken duration merged halts
  -- a split that is finished has no branch that decides
  have hfinished (hfin : summary.status.isFinished = true) : halts.decisive? = none := by
    cases hd : halts.decisive? with
    | none => rfl
    | some d =>
      rw [hverdict d.1 d.2 hd] at hgo
      rcases hgo with hv | ⟨pause, hv⟩
      · exact absurd hv (hd ▸ hend.combined.decides).1
      · rw [hpaused d.1 pause (hv ▸ hd)] at hfin
        cases hfin
  refine ⟨?_, ?_, branchesSound_iff.mpr hsound'⟩ <;> rw [hsteps]
  · exact closed_insert fun hfin => (hnormal (hfinished hfin)).1
  · exact hend.closed hfinished

/-! ## Chains -/

variable (setup)

theorem preserves_hereditary : HereditaryDistinct
    (fun chain => Preserves (chainRegion chain) (Sound chain) (walk setup chain))
    fun step => Preserves (stepRegion step) (StepSound step) (walkStep setup step) where
  nil := by
    intro place q s t s' _ _ _ _ _ _
    rw [Sound]
    trivial
  cons step rest hnd hstep hrest := by
    rw [chainRegion, walk_cons, Sound]
    exact .seq (walkStep_follows setup step hnd.of_append_left)
      (walk_follows setup rest hnd.of_append_right) (List.disjoint_of_nodup_append hnd)
      (stepSound_local step) (sound_local rest) hstep hrest
  trigger l t := by
    intro place q s t s' _ _ _ _ hy _
    rw [walkStep] at hy
    obtain ⟨-, ho | ho⟩ := Job.Yields.done_iff.mp hy <;> cases ho
  action l a := by
    rw [stepRegion, walkStep_action, StepSound]
    exact preserves_action l a
  branch l c onSuccess onFailure hnd hsuccess hfailure := by
    have hsides := (List.nodup_cons.mp hnd).2
    rw [stepRegion, walkStep_branch, StepSound]
    exact preserves_branch l c onSuccess onFailure (walk_follows setup onSuccess hsides.of_append_left)
      (walk_follows setup onFailure hsides.of_append_right) hnd (sound_local onSuccess)
      (sound_local onFailure) hsuccess hfailure
  split l settings branches hnd hbranches := by
    have hfollows := arms_follow setup branches (List.nodup_cons.mp hnd).2
    rw [← arms_part setup] at hnd
    obtain ⟨hname, hinner⟩ := List.nodup_cons.mp hnd
    rw [stepRegion, walkStep_split, StepSound, ← arms_part setup]
    exact preserves_split l settings branches hfollows hname hinner hbranches
  loop l settings body hnd hbody := by
    rw [stepRegion, walkStep_loop, StepSound]
    exact preserves_loop l settings body (walk_follows setup body (List.nodup_cons.mp hnd).2)
      (sound_local body) hbody

/-- A walk of a chain that ends normally or with a pause leaves sound records. -/
theorem walk_preserves (chain : List Step) (hnd : (chainRegion chain).names.Nodup) :
    Preserves (chainRegion chain) (Sound chain) (walk setup chain) :=
  (preserves_hereditary setup).chain hnd

theorem walkStep_preserves (step : Step) (hnd : (stepRegion step).names.Nodup) :
    Preserves (stepRegion step) (StepSound step) (walkStep setup step) :=
  (preserves_hereditary setup).step hnd

end FlowEngine.Engine
