import FlowEngine.Proofs.Selection.Sound

/-!
# Complete and sound records are exact

* `Fulfils` — some steps are done, and of some names only these steps have records.
* `fulfils_of_complete` — where nothing is left to do, the selected steps are done, and no others have
  records.
* `Fulfils.exact` — so the records are exact.
* `Over.of_complete` — and none of them is open, at any depth: a record is open while it is running or
  paused.
-/

namespace FlowEngine.Engine

open FlowEngine.Run FlowEngine.Flow

/-- Steps that are done, with all iterations of loops. Of some names no others have records. -/
structure Fulfils (steps : List Step) (names : List String) (m : StepMap) : Prop where
  records : ∀ step ∈ steps, ∃ r, m.get? step.name = some r ∧ Completed step r
  only : ∀ n ∈ names, n ∈ m.names → n ∈ steps.map Step.name
  inner : ∀ l settings body summary item index its, .loop l settings body ∈ steps →
    m.get? l.name = some (.loop summary item index its) → ∀ k ∈ its, Exact [] body k

namespace Fulfils

variable {steps steps' : List Step} {names names' before : List String} {chain : List Step}
  {step : Step} {m : StepMap}

theorem append (h : Fulfils steps names m) (h' : Fulfils steps' names' m) :
    Fulfils (steps ++ steps') (names ++ names') m where
  records step hs := (List.mem_append.mp hs).elim (h.records step) (h'.records step)
  only n hn hm := by
    rw [List.map_append, List.mem_append]
    exact (List.mem_append.mp hn).imp (h.only n · hm) (h'.only n · hm)
  inner l settings body summary item index its hs :=
    (List.mem_append.mp hs).elim (h.inner l settings body summary item index its)
      (h'.inner l settings body summary item index its)

theorem of_fresh (h : Fresh names m) : Fulfils [] names m where
  records _ hs := by cases hs
  only n hn hm := absurd hm (StepMap.get?_eq_none_iff.mp (h n hn))
  inner _ _ _ _ _ _ _ hs := by cases hs

/-- A step that is done. -/
theorem one {r : StepRecord} (hr : m.get? step.name = some r) (hc : Completed step r)
    (hinner : ∀ l settings body its, step = .loop l settings body → r.iterations? = some its →
      ∀ k ∈ its, Exact [] body k) : Fulfils [step] [step.name] m where
  records step' hs := by
    obtain rfl := List.mem_singleton.mp hs
    exact ⟨r, hr, hc⟩
  only n hn _ := hn
  inner l settings body summary item index its hs hl := by
    obtain rfl := List.mem_singleton.mp hs
    obtain rfl := Option.some.inj (hr.symm.trans hl)
    exact hinner l settings body its rfl rfl

/-- Records of the selected steps, and of some steps before them, are exact. -/
theorem exact (h : Fulfils (selected m chain) (chainRegion chain).names m) (hm : m.names.Nodup)
    (hnd : (before ++ (chainRegion chain).names).Nodup) (hbefore : ∀ n ∈ before, n ∈ m.names)
    (hkeyed : ∀ n ∈ m.names, n ∈ before ++ (chainRegion chain).names) : Exact before chain m := by
  have hselected : (before ++ (selected m chain).map Step.name).Nodup :=
    hnd.sublist ((List.Sublist.refl before).append ((selected_sublist m chain).map Step.name))
  refine .intro ((List.perm_ext_iff_of_nodup hm hselected).mpr fun n => ⟨fun hn => ?_, fun hn => ?_⟩)
    h.records h.inner
  · exact List.mem_append.mpr ((List.mem_append.mp (hkeyed n hn)).imp id (h.only n · hn))
  · rcases List.mem_append.mp hn with hn | hn
    · exact hbefore n hn
    · obtain ⟨step, hs, rfl⟩ := List.mem_map.mp hn
      obtain ⟨r, hr, -⟩ := h.records step hs
      exact StepMap.mem_names_iff.mpr ⟨r, hr⟩

end Fulfils

mutual

/-- Where nothing is left to do and the records are sound, the selected steps are done, and no others
have records. -/
theorem fulfils_of_complete : ∀ (chain : List Step) {m : StepMap}, (chainRegion chain).names.Nodup →
    m.Tidy → (chainRegion chain).complete m → Sound chain m →
      Fulfils (selected m chain) (chainRegion chain).names m
  | [], _, _, _, _, _ => .of_fresh fun n hn => by cases hn
  | step :: rest, m, hnd, ht, hc, hs => by
    rw [chainRegion] at hnd hc ⊢
    rw [Region.seq_names] at hnd ⊢
    rw [Sound] at hs
    exact (stepFulfils_of_complete step hnd.of_append_left ht hc.1 hs.1).append
      (fulfils_of_complete rest hnd.of_append_right ht hc.2 hs.2)

theorem stepFulfils_of_complete : ∀ (step : Step) {m : StepMap}, (stepRegion step).names.Nodup →
    m.Tidy → (stepRegion step).complete m → StepSound step m →
      Fulfils (step :: selectedInside m step) (stepRegion step).names m
  | .trigger l t, m, _, _, hc, _ => by
    rw [stepRegion] at hc
    exact hc.elim
  | .action l a, m, _, _, hc, hs => by
    rw [stepRegion] at hc ⊢
    rw [StepSound] at hs
    obtain ⟨summary, output, hr, hf⟩ := hc
    exact .one hr (hs _ hr hf) (by rintro _ _ _ _ ⟨⟩)
  | .branch l c onSuccess onFailure, m, hnd, ht, hc, hs => by
    rw [stepRegion] at hnd hc ⊢
    rw [Region.branch_names] at hnd ⊢
    have hsides := (List.nodup_cons.mp hnd).2
    rw [StepSound] at hs
    obtain ⟨hclosed, hsA, hsB⟩ := hs
    obtain ⟨holds, ⟨summary, hr, hsummary⟩, hside, hfresh⟩ := hc
    have hr : m.get? l.name = some (.branch summary holds) := hr
    have hone : Fulfils [.branch l c onSuccess onFailure] [l.name] m :=
      .one hr hsummary (by rintro _ _ _ _ ⟨⟩)
    rw [selectedInside_branch hr]
    cases holds
    · exact hone.append ((Fulfils.of_fresh hfresh).append
        (fulfils_of_complete onFailure hsides.of_append_right ht hside hsB))
    · rw [if_pos rfl, ← List.append_nil (selected m onSuccess)]
      exact hone.append ((fulfils_of_complete onSuccess hsides.of_append_left ht hside hsA).append
        (.of_fresh hfresh))
  | .split l settings branches, m, hnd, ht, hc, hs => by
    rw [stepRegion] at hnd hc ⊢
    rw [Region.split_names] at hnd ⊢
    rw [StepSound] at hs
    obtain ⟨hclosed, hparts, hsound⟩ := hs
    obtain ⟨summary, taken, hr, hf, -⟩ := hc
    have hr : m.get? l.name = some (.split summary taken) := hr
    have hone : Fulfils [.split l settings branches] [l.name] m :=
      .one hr (hclosed _ hr hf) (by rintro _ _ _ _ ⟨⟩)
    rw [selectedInside_split hr]
    exact hone.append (branchesFulfils_of_complete taken branches (List.nodup_cons.mp hnd).2 ht
      (hparts _ hr hf taken rfl) hsound)
  | .loop l settings body, m, hnd, ht, hc, hs => by
    rw [stepRegion] at hnd hc ⊢
    rw [Region.loop_names] at hnd ⊢
    have hbody := (List.nodup_cons.mp hnd).2
    rw [StepSound] at hs
    obtain ⟨hclosed, hinner⟩ := hs
    obtain ⟨hfresh, r, hr, hf, -⟩ := hc
    have hr : m.get? l.name = some r := hr
    have hone : Fulfils [.loop l settings body] [l.name] m := by
      refine .one hr (hclosed r hr hf) ?_
      rintro _ _ _ its ⟨⟩ hits k hk
      obtain ⟨hsound, hkeyed, hcomplete⟩ := hinner r its k hr hits hk
      have htk := ht.inner hr hits hk
      exact (fulfils_of_complete body hbody htk (hcomplete hf) hsound).exact htk.nodup hbody (by simp)
        hkeyed
    exact hone.append (.of_fresh hfresh)

theorem branchesFulfils_of_complete (taken : List String) :
    ∀ (branches : List (SplitBranch × List Step)) {m : StepMap},
      (Region.branchNames (branchRegions branches)).Nodup → m.Tidy →
      (∀ x ∈ branchRegions branches,
        (x.1 ∈ taken → x.2.complete m) ∧ (x.1 ∉ taken → Fresh x.2.names m)) →
      BranchesSound branches m → Fulfils (selectedBranches m taken branches)
        (Region.branchNames (branchRegions branches)) m
  | [], _, _, _, _, _ => .of_fresh fun n hn => by cases hn
  | (b, steps) :: rest, m, hnd, ht, hparts, hs => by
    rw [branchRegions, Region.branchNames, List.flatMap_cons] at hnd ⊢
    rw [branchRegions] at hparts
    rw [BranchesSound] at hs
    obtain ⟨⟨hin, hout⟩, hrest⟩ := List.forall_mem_cons.mp hparts
    rw [selectedBranches]
    refine Fulfils.append ?_
      (branchesFulfils_of_complete taken rest hnd.of_append_right ht hrest hs.2)
    split_ifs with hb
    · exact fulfils_of_complete steps hnd.of_append_left ht (hin hb) hs.1
    · exact .of_fresh (hout hb)

end

variable {names : List String} {m m' : StepMap} {before : List String} {chain : List Step}
  {step : Step} {r : StepRecord}

/-! ## Names without open records -/

/-- Every record of some names is finished, and so are those in the iterations of loops among them. -/
def Over (names : List String) (m : StepMap) : Prop :=
  ∀ p r, p.root ∈ names → m.at? p = some r → r.status.isFinished = true

namespace Over

theorem agree (h : Over names m) (ha : Agree names m m') : Over names m' := fun p r hp hr =>
  h p r hp (by rwa [← StepMap.at?_congr (ha p.root hp)])

/-- Every record of the names is finished, and so is all that is in it. -/
theorem of_records (h : ∀ n ∈ names, ∀ r, m.get? n = some r → r.status.isFinished = true ∧
    ∀ its k, r.iterations? = some its → k ∈ its → Over k.names k) : Over names m := by
  intro p r hp hr
  rcases StepMap.root_of_at? hr with ⟨-, hr⟩ | ⟨l, i, q, rl, its, k, rfl, hl, hits, hk, hr⟩
  · exact (h _ hp r hr).1
  · exact (h l hp rl hl).2 its k hits (List.mem_of_getElem? hk) q r (StepMap.root_mem_of_at? hr) hr

theorem of_fresh (h : Fresh names m) : Over names m :=
  .of_records fun n hn r hr => by rw [h n hn] at hr; cases hr

/-- A record that has no iterations. -/
theorem of_flat {n : String} (hr : m.get? n = some r) (hf : r.status.isFinished = true)
    (hits : r.iterations? = none) : Over [n] m :=
  .of_records fun n' hn r' hr' => by
    obtain rfl := List.mem_singleton.mp hn
    obtain rfl := Option.some.inj (hr.symm.trans hr')
    exact ⟨hf, fun its k h => by rw [hits] at h; cases h⟩

end Over

/-! ## Complete parts -/

/-- The record of a step that is done is finished; it has iterations if the step is a loop. -/
theorem Completed.finished (h : Completed step r) : r.status.isFinished = true ∧
    ∀ its, r.iterations? = some its → ∃ l settings body summary item index,
      step = .loop l settings body ∧ r = .loop summary item index its := by
  cases step <;> cases r <;> simp only [Completed] at h
  case action.action summary _ =>
    have hf : summary.status.isFinished = true := by rcases h with h | ⟨h, -⟩ <;> rw [h] <;> rfl
    exact ⟨hf, by rintro _ ⟨⟩⟩
  case branch.branch summary _ | split.split summary _ =>
    have hf : summary.status.isFinished = true := by rw [h]; rfl
    exact ⟨hf, by rintro _ ⟨⟩⟩
  case loop.loop summary _ _ _ =>
    have hf : summary.status.isFinished = true := by rw [h.1]; rfl
    exact ⟨hf, by rintro _ ⟨⟩; exact ⟨_, _, _, _, _, _, rfl, rfl⟩⟩

/-- No record of the selected steps of a chain is open. -/
theorem Exact.over (h : Exact before chain m) : Over ((selected m chain).map Step.name) m := by
  induction h with
  | @intro before chain m names records inner ih =>
    refine .of_records fun n hn r hr => ?_
    obtain ⟨step, hs, rfl⟩ := List.mem_map.mp hn
    obtain ⟨r', hr', hc⟩ := records step hs
    obtain rfl := Option.some.inj (hr.symm.trans hr')
    refine ⟨hc.finished.1, fun its k hits hk => ?_⟩
    obtain ⟨l, settings, body, summary, item, index, rfl, rfl⟩ := hc.finished.2 its hits
    obtain ⟨hnames, -, -⟩ := inner l settings body summary item index its hs hr k hk
    refine fun p r hp hr => ih l settings body summary item index its hs hr' k hk p r ?_ hr
    simpa using hnames.mem_iff.mp hp

/-- Where nothing is left to do and the records are sound, no record is open. -/
theorem Over.of_complete (hnd : (chainRegion chain).names.Nodup) (ht : m.Tidy)
    (hc : (chainRegion chain).complete m) (hs : Sound chain m) : Over (chainRegion chain).names m := by
  have h := fulfils_of_complete chain hnd ht hc hs
  refine .of_records fun n hn r hr => ?_
  obtain ⟨step, hstep, rfl⟩ := List.mem_map.mp (h.only n hn (StepMap.mem_names_iff.mpr ⟨r, hr⟩))
  obtain ⟨r', hr', hdone⟩ := h.records step hstep
  obtain rfl := Option.some.inj (hr.symm.trans hr')
  refine ⟨hdone.finished.1, fun its k hits hk => ?_⟩
  obtain ⟨l, settings, body, summary, item, index, rfl, rfl⟩ := hdone.finished.2 its hits
  have hexact := h.inner l settings body summary item index its hstep hr k hk
  obtain ⟨hnames, -, -⟩ := id hexact
  exact fun p r hp hr => hexact.over p r (by simpa using hnames.mem_iff.mp hp) hr

end FlowEngine.Engine
