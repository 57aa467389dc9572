import FlowEngine.Proofs.Walk.BreaksOff

/-!
# Walks that fail or are stopped

* `EndedAt` — the verdict of a walk is that of the step at a position.
* `walk_breaksOff` — a walk that fails or is stopped breaks off at such a step.
-/

namespace FlowEngine.Engine

open FlowEngine.Run FlowEngine.Flow

/-- The step at a position gave a walk its verdict: it is the one that failed, or an answer to one of its
calls stopped the run with the response. -/
def EndedAt (around : List (String × Nat)) (t : Trace) (p : Position) : Verdict → Prop
  | .failed name _ => p.name = name
  | .succeeded response => ∃ e ∈ t, e.place = p.under around ∧ ∃ output r, response = some r ∧
    e.reply = some (.ended (.ok output) (some (.stop r)))
  | .running | .paused _ => False

variable {setup : Setup} {place : Place} {s s' : RunState} {t t' : Trace} {p : Position} {v : Verdict}
  {around : List (String × Nat)} {q : Option Position} {l : Label} {step : Step} {rest : List Step}

theorem EndedAt.mono (h : EndedAt around t p v) (ht : t ⊆ t') : EndedAt around t' p v := by
  cases v with
  | succeeded response =>
    obtain ⟨e, he, hrest⟩ := h
    exact ⟨e, ht he, hrest⟩
  | running | paused | failed => exact h

theorem EndedAt.inside {name : String} {i : Nat} (h : EndedAt (around ++ [(name, i)]) t p v) :
    EndedAt around t (p.inside name i) v := by
  cases v with
  | succeeded response =>
    obtain ⟨e, he, hplace, hrest⟩ := h
    exact ⟨e, he, by rw [hplace, Position.under_inside], hrest⟩
  | running | paused | failed => exact h

/-! ## Verdicts that are passed on -/

/-- A loop that is left because of an iteration that failed or was stopped is finished. -/
theorem closeLoop_broken {x : Looping} {items : List Json} {duration : Nat} {maps : List StepMap}
    {decisive : Option (Nat × Verdict)}
    (hv : ¬ GoesOn (closeLoop x items duration maps decisive).verdict) :
    ∃ i v summary item, decisive = some (i, v) ∧
      (closeLoop x items duration maps decisive).verdict = v ∧
      (closeLoop x items duration maps decisive).steps =
        x.state.steps.insert x.name (.loop summary item i maps) ∧
      summary.status.isFinished = true := by
  rcases decisive with _ | ⟨i, v⟩
  · exact absurd (.inl rfl) hv
  · cases v with
    | running => exact absurd (.inl rfl) hv
    | paused pause => exact absurd (.inr ⟨pause, rfl⟩) hv
    | succeeded | failed => exact ⟨i, _, _, _, rfl, rfl, rfl, rfl⟩

/-- A split that is left because of a branch that failed or was stopped is finished. -/
theorem closeSplit_broken {name : String} {input : Json} {taken : List String} {duration : Nat}
    {merged : RunState} {halts : Halts} (hm : merged.verdict = .running)
    (hv : ¬ GoesOn (closeSplit name input taken duration merged halts).verdict) :
    ∃ i v summary, halts.decisive? = some (i, v) ∧
      (closeSplit name input taken duration merged halts).verdict = v ∧
      (closeSplit name input taken duration merged halts).steps =
        merged.steps.insert name (.split summary taken) ∧ summary.status.isFinished = true := by
  unfold closeSplit at hv ⊢
  cases hd : halts.decisive? with
  | none =>
    rw [hd] at hv
    exact absurd (.inl hm) hv
  | some d =>
    obtain ⟨i, v⟩ := d
    rw [hd] at hv
    cases v with
    | running => exact absurd (.inl rfl) hv
    | paused pause => exact absurd (.inr ⟨pause, rfl⟩) hv
    | succeeded | failed => exact ⟨i, _, _, rfl, rfl, rfl, rfl⟩

/-! ## The shapes of steps -/

/-- Whenever a walk of a step fails or is stopped, it breaks off at a step that gave the verdict. -/
def StepBreaks (step : Step) (w : Body) : Prop :=
  ∀ place q s t s', s.verdict = .running → s.steps.Tidy → (stepRegion step).stage q s.steps →
    StepSound step s.steps → StepSequenced step s.steps →
    Job.Yields (w place s) t (.result (.ok s')) → ¬ GoesOn s'.verdict →
      ∃ p, EndedAt place.path t p s'.verdict ∧ BreaksOff [step] s'.steps p

/-- Whenever a walk of a chain fails or is stopped, it breaks off at a step that gave the verdict. -/
def ChainBreaks (chain : List Step) (w : Body) : Prop :=
  ∀ place q s t s', s.verdict = .running → s.steps.Tidy → (chainRegion chain).stage q s.steps →
    Sound chain s.steps → Sequenced chain s.steps →
    Job.Yields (w place s) t (.result (.ok s')) → ¬ GoesOn s'.verdict →
      ∃ p, EndedAt place.path t p s'.verdict ∧ BreaksOff chain s'.steps p

/-- A step that fails before anything in it is walked. -/
theorem BreaksOff.failed (hnd : (stepRegion step).names.Nodup)
    (hfresh : Fresh (stepRegion step).names.tail s.steps) (input : Json) (message : String) :
    ∃ p, EndedAt around t p (.failed step.name message) ∧ BreaksOff [step]
      ((s.upsert step.name (failedRecord input message)).withVerdict (.failed step.name message)).steps
      p := by
  refine ⟨⟨[], step.name⟩, rfl, .here (StepMap.get?_insert_self _ _ _) rfl rfl fun n hn => ?_⟩
  rw [Region.names, stepRegion_steps_eq, List.map_cons, List.nodup_cons] at hnd
  have hn' : n ∈ (stepRegion step).steps.tail.map Step.name := by
    rwa [Region.names, stepRegion_steps_eq, List.map_cons, List.tail_cons] at hn
  exact (StepMap.get?_insert_of_ne _ _ (by rintro rfl; exact hnd.1 hn')).trans (hfresh n hn)

/-- An action at which a walk broke off. -/
theorem BreaksOff.action {l : Label} {a : Flow.Action} {m : StepMap} {r : StepRecord}
    (record : m.get? l.name = some r) (finished : r.status.isFinished = true)
    (flat : r.iterations? = none) : BreaksOff [.action l a] m ⟨[], l.name⟩ := by
  have inner : Fresh (stepRegion (.action l a)).names.tail m := by rintro n ⟨⟩
  exact .here record finished flat inner

theorem breaks_action (l : Label) (a : Flow.Action) :
    StepBreaks (.action l a) fun place s => runAction setup place l.name a s := by
  intro place q s t s' hv ht hstage _ _ hy hgo
  have failed {input : Json} {failure : Block.Failure} {duration : Nat}
      (hgo : ¬ GoesOn (failedState s l.name a.errorHandling input failure duration).verdict) :
      ∃ p, EndedAt place.path t p (failedState s l.name a.errorHandling input failure duration).verdict ∧
        BreaksOff [.action l a]
          (failedState s l.name a.errorHandling input failure duration).steps p := by
    rcases failedState_verdict s l.name a.errorHandling input failure duration with h | h
    · exact absurd (.inl (h.trans hv)) hgo
    · refine ⟨⟨[], l.name⟩, by rw [h]; rfl, ?_⟩
      rw [failedState_steps]
      exact .action (StepMap.get?_insert_self _ _ _) rfl rfl
  by_cases hdone : Region.ActionDone l.name s.steps
  · dsimp only at hy
    rw [runAction_done hdone] at hy
    obtain ⟨-, rfl⟩ := Yields.of_ended hy
    exact absurd (.inl hv) hgo
  have hopen := unfinished_of_waits (waits_of_stage hstage hdone)
  rcases runAction_yields hopen hy with ⟨-, ho⟩ | ⟨-, now, e, duration, -, ho⟩ |
    ⟨input, started, hcalls, hends⟩
  · exact absurd rfl (ho s')
  · cases ho
    exact failed hgo
  · obtain ⟨e, hlast, hend⟩ := hends s' rfl
    have he : e ∈ t := List.mem_of_getLast? hlast
    generalize hreply : e.reply = reply at hend
    cases hend with
    | failed failure duration => exact failed hgo
    | ended output duration hook =>
      rcases hook with _ | pause | response
      · exact absurd (.inl hv) hgo
      · exact absurd (.inr ⟨pause, rfl⟩) hgo
      · refine ⟨⟨[], l.name⟩, ⟨e, he, ?_, output, response, rfl, hreply⟩, ?_⟩
        · rw [Event.place, hcalls e he]
          simp [requestOf, Position.under]
        · exact .action (StepMap.get?_insert_self _ _ _) rfl rfl

theorem breaks_branch (l : Label) (c : ConditionSet) (onSuccess onFailure : List Step)
    (hnd : (l.name :: ((chainRegion onSuccess).names ++ (chainRegion onFailure).names)).Nodup)
    (hA : ChainBreaks onSuccess (walk setup onSuccess))
    (hB : ChainBreaks onFailure (walk setup onFailure)) :
    StepBreaks (.branch l c onSuccess onFailure) (walkStep setup (.branch l c onSuccess onFailure)) := by
  rintro place q s t s' hv ht hstage hsound hseq hy hgo
  have hstep : (stepRegion (.branch l c onSuccess onFailure)).names.Nodup := by
    rwa [stepRegion, Region.branch_names]
  obtain ⟨hname, hsides⟩ := List.nodup_cons.mp hnd
  have hd := List.disjoint_of_nodup_append hsides
  have hfA := walk_follows setup onSuccess hsides.of_append_left
  have hfB := walk_follows setup onFailure hsides.of_append_right
  rw [stepRegion] at hstage
  rw [walkStep_branch] at hy
  rw [StepSound] at hsound
  rw [StepSequenced] at hseq
  rcases runBranch_yields hv ht hstage hname hy with ⟨-, ho⟩ | ⟨-, rfl, hnone, input, message, ho⟩ |
    ⟨holds, s₁, hy, hv₁, ht₁, hdecided, hside, hother, -, hframe⟩
  · exact absurd rfl (ho s')
  · cases ho
    refine BreaksOff.failed hstep (fun n hn => ?_) input message
    rcases hstage with ⟨-, hfresh⟩ | ⟨holds, ⟨summary, hr, -⟩, -⟩
    · refine hfresh n (List.mem_cons_of_mem _ ?_)
      rwa [stepRegion, Region.branch_names] at hn
    · rw [show s.steps.get? l.name = some _ from hr] at hnone
      cases hnone
  -- the record of the branch and the side that is not walked stay as they are
  have hl := (hfA.side hfB holds).lands place q s₁ t s' hv₁ ht₁ hside hy
  have hagree {names : List String} (hn : names ⊆ (chainRegion onSuccess).names ++
      (chainRegion onFailure).names) : Agree names s.steps s₁.steps := fun n hmem =>
    hframe n (by rintro rfl; exact hname (hn hmem))
  obtain ⟨summary, hr, hs⟩ := hdecided.agree <|
    hl.frame l.name fun hn => hname (Region.side_names_subset _ _ holds hn)
  have hfin : summary.status.isFinished = true := by rw [hs]; rfl
  cases holds
  · obtain ⟨p, hended, hbreaks⟩ := hB place q s₁ t s' hv₁ ht₁ hside
      ((sound_local onFailure).agree (hagree (List.subset_append_right _ _)) hsound.2.2)
      ((sequenced_local onFailure).agree (hagree (List.subset_append_right _ _)) hseq.2.2) hy hgo
    exact ⟨p, hended, .failure hr hfin hbreaks (hother.agree fun n hn => hl.frame n (hd hn))⟩
  · obtain ⟨p, hended, hbreaks⟩ := hA place q s₁ t s' hv₁ ht₁ hside
      ((sound_local onSuccess).agree (hagree (List.subset_append_left _ _)) hsound.2.1)
      ((sequenced_local onSuccess).agree (hagree (List.subset_append_left _ _)) hseq.2.1) hy hgo
    exact ⟨p, hended, .success hr hfin hbreaks
      (hother.agree fun n hn => hl.frame n fun hn' => hd hn' hn)⟩

theorem breaks_split (l : Label) (settings : SplitSettings)
    (branches : List (SplitBranch × List Step))
    (hnd : (l.name :: Region.branchNames (branchRegions branches)).Nodup)
    (hbranches : ∀ b ∈ branches, ChainBreaks b.2 (walk setup b.2)) :
    StepBreaks (.split l settings branches) (walkStep setup (.split l settings branches)) := by
  rintro place q s t s' hv ht hstage hsound hseq hy hgo
  have hstep : (stepRegion (.split l settings branches)).names.Nodup := by
    rwa [stepRegion, Region.split_names]
  have hfollows := arms_follow setup branches (List.nodup_cons.mp hnd).2
  rw [stepRegion] at hstage
  rw [← arms_part setup] at hnd hstage
  obtain ⟨hname, hinner⟩ := List.nodup_cons.mp hnd
  rw [walkStep_split] at hy
  rw [StepSound] at hsound
  rw [StepSequenced, branchesSequenced_iff] at hseq
  rcases runSplit_yields hstage hy with ⟨-, -, -, hs'⟩ | ⟨-, ho⟩ | ⟨-, rfl, hnone, input, message, ho⟩ |
    ⟨started, input, taken, index, he, hy⟩
  · obtain rfl := hs' s' rfl
    exact absurd (.inl hv) hgo
  · exact absurd rfl (ho s')
  · cases ho
    refine BreaksOff.failed hstep (fun n hn => ?_) input message
    rw [stepRegion, Region.split_names, List.tail_cons, ← arms_part setup] at hn
    have absent {r : StepRecord} (hr : s.steps.get? l.name = some r) : s.steps.get? n = none := by
      rw [hnone] at hr
      cases hr
    rcases hstage with ⟨-, hfresh | ⟨_, _, hr, -⟩⟩ | ⟨_, _, _, hr, -⟩
    · exact hfresh n (List.mem_cons_of_mem _ hn)
    · exact absent hr
    · exact absent hr
  obtain ⟨traces, kids, merged, halts, duration, hb, hm, rfl⟩ := (walkPaths_yields hy).2 s' rfl
  have hend := he.ends hfollows hv ht hname hinner hb hm
  obtain ⟨i, v, summary, hd, hverdict, hsteps, hfin⟩ :=
    closeSplit_broken (hend.combined.verdict.trans hv) hgo
  have hdecides := hend.combined.decides
  rw [hd] at hdecides
  obtain ⟨a, k, ha, hk, rfl, hran⟩ := hb.decided hdecides
  rw [hverdict] at hgo ⊢
  obtain ⟨b, hbranch, rfl⟩ := List.mem_map.mp (Arm.names_subset (List.mem_of_getElem? ha)).1
  have hbase {S : StepMap → Prop} (hS : Local (chainRegion b.2).names S) (h : S s.steps) :
      S (splitBase s l.name input taken).steps :=
    hS.agree (fun n hn => splitBase_other s input taken
      (hend.ne_name ((Arm.names_subset (List.mem_of_getElem? ha)).2.2 hn))) h
  obtain ⟨p, hended, hbreaks⟩ := hbranches b hbranch place _ (splitBase s l.name input taken) _ k hv
    (splitBase_tidy ht) (hend.fan.spread.stage i _ _ (Arm.part_at _ ha))
    (hbase (sound_local b.2) (branchesSound_iff.mp hsound.2.2 b hbranch))
    (hbase (sequenced_local b.2) (hseq b hbranch)) hran hgo
  have hagree := (hend.combined.settled i _ ha).kept k (by rw [List.getElem?_map, hk]; rfl)
    hdecides.not_repeats_self
  rw [hsteps]
  refine ⟨p, hended.mono fun e hmem => (hb.mixed.mem_iff e).mpr ⟨i, hmem⟩,
    .split (StepMap.get?_insert_self _ _ _) hfin hbranch
      ((hbreaks.agree hagree).agree (hend.agree (List.mem_of_getElem? ha) _)) fun b' hb' hn => ?_⟩
  exact hend.untaken (a := ⟨b'.1, chainRegion b'.2, walk setup b'.2⟩) (List.mem_map_of_mem hb') hn _

/-- When a loop that walks its iterations one after the other is left at one of them, then the iterations
before it are complete, and those after it have no records. -/
theorem LoopEntry.over_others {name : String} {body : List Step} {items : List Json}
    {recorded maps : List StepMap} {q' : Option Position} {index i j : Nat} {traces : Nat → Trace}
    {kids : List (Option RunState)} {k : StepMap} (hnd : (chainRegion body).names.Nodup)
    (he : LoopEntry (chainRegion body) name q s.steps items recorded q' index)
    (hit : Iterated (looping name items place s (walk setup body)).visit (items.zip recorded) t traces
      kids maps (some (i, v)))
    (hsound : ClosedIterations name (chainRegion body) (Sound body) s.steps)
    (hseq : LoopSequenced false name (chainRegion body) s.steps)
    (hsucc : Successive kids (some (i, v))) (hne : j ≠ i) (hk : maps[j]? = some k) :
    Over (chainRegion body).names k := by
  have hB := walk_follows setup body hnd
  obtain ⟨hbefore, hafter⟩ := he.sequenced hB hit hseq hsucc hk
  rcases Nat.lt_or_gt_of_ne hne with hj | hj
  · obtain ⟨m, hm, -⟩ := he.of_map hB hit hk
    obtain ⟨kid, hkid, hrun, hmap⟩ := he.walked hB hit hsucc hj hm
    obtain rfl := Option.some.inj (hk.symm.trans hmap)
    obtain ⟨item, hz⟩ := he.item hm
    obtain ⟨hpart, -, hmem⟩ := he.part hz
    refine .of_complete hnd ((he.fanOut hB hit).lands j _ _ kid hpart hkid).tidy (hbefore hj) ?_
    exact walk_preserves setup body hnd _ _ (s.nested m) _ kid rfl (he.tidy _ hmem)
      (he.spread.stage j _ _ hpart) (he.recorded_closed (sound_local body) hsound hmem)
      (hit.ran j item _ kid hz hkid) (.inl hrun)
  · rw [hafter hj]
    exact .of_fresh fun _ _ => rfl

theorem breaks_loop (l : Label) (settings : LoopSettings) (body : List Step)
    (hnd : (l.name :: (chainRegion body).names).Nodup)
    (hbody : ChainBreaks body (walk setup body)) :
    StepBreaks (.loop l settings body) (walkStep setup (.loop l settings body)) := by
  rintro place q s t s' hv ht hstage hsound hseq hy hgo
  have hstep : (stepRegion (.loop l settings body)).names.Nodup := by
    rwa [stepRegion, Region.loop_names]
  obtain ⟨hname, hinner⟩ := List.nodup_cons.mp hnd
  have hB := walk_follows setup body hinner
  rw [stepRegion] at hstage
  rw [walkStep_loop] at hy
  rw [StepSound] at hsound
  rw [StepSequenced] at hseq
  rcases runLoop_yields ht hstage hy with ⟨-, -, -, hs'⟩ | ⟨-, ho⟩ | ⟨-, -, -, input, message, ho⟩ |
    ⟨items, its, recorded, q', index, started, hfit, he, hy⟩
  · obtain rfl := hs' s' rfl
    exact absurd (.inl hv) hgo
  · exact absurd rfl (ho s')
  · cases ho
    exact BreaksOff.failed hstep hstage.1 input message
  obtain ⟨traces, kids, maps, decisive, duration, hit, hsucc, rfl⟩ := (walkItems_ends hfit hy).2 s' rfl
  obtain ⟨i, v, summary, item, rfl, hverdict, hsteps, hfin⟩ := closeLoop_broken hgo
  obtain ⟨_, m, k, hz, -, rfl, hran, hmap⟩ := hit.decided
  rw [hverdict] at hgo ⊢
  have hsteps : (closeLoop (looping l.name items place s (walk setup body)) items duration maps
      (some (i, k.verdict))).steps = s.steps.insert l.name (.loop summary item i maps) := hsteps
  -- the iteration that decides, from records that were sound
  obtain ⟨hpart, -, hmem⟩ := he.part hz
  obtain ⟨p, hended, hbreaks⟩ := hbody _ _ (s.nested m) _ k rfl
    (he.tidy _ hmem) (he.spread.stage i _ _ hpart)
    (he.recorded_closed (sound_local body) hsound.2 hmem)
    (he.recorded_closed (sequenced_local body) hseq.2.2 hmem) hran hgo
  refine ⟨p.inside l.name i, hended.inside.mono fun e hmem => (hit.mixed.mem_iff e).mpr ⟨i, hmem⟩, ?_⟩
  rw [hsteps]
  refine .loop (StepMap.get?_insert_self _ _ _) hfin hmap hbreaks (fun n hn => ?_)
    (fun k hk => (he.maps_tidy hB hit hk).2) fun hparallel j k' hne hk' => ?_
  · rw [StepMap.get?_insert_of_ne _ _ (by rintro rfl; exact hname hn)]
    exact hstage.1 n hn
  · exact he.over_others hinner hit hsound.2 (hparallel ▸ hseq.1) (hsucc hparallel) hne hk'

/-! ## Chains -/

/-- A step that is followed by others. If it ends normally, the walk breaks off later, if at all. -/
theorem breaks_cons (hnd : ((stepRegion step).names ++ (chainRegion rest).names).Nodup)
    (hstep : StepBreaks step (walkStep setup step)) (hrest : ChainBreaks rest (walk setup rest)) :
    ChainBreaks (step :: rest) (walk setup (step :: rest)) := by
  intro place q s t s' hv ht hstage hsound hseq hy hgo
  have hd := List.disjoint_of_nodup_append hnd
  have hA := walkStep_follows setup step hnd.of_append_left
  have hB := walk_follows setup rest hnd.of_append_right
  rw [chainRegion] at hstage
  rw [Sound] at hsound
  rw [Sequenced] at hseq
  rw [walk_cons] at hy
  rcases Job.Yields.of_andThen hy with ⟨s₁, t₁, t₂, rfl, hy₁, hy₂⟩ | ⟨-, ho⟩
  swap
  · exact absurd rfl (ho s')
  split_ifs at hy₂ with hrun
  · -- the first step ended normally, so that nothing in it is left to do
    have hrun := isRunning_iff.mp hrun
    obtain ⟨ht₁, hcomplete, -, hframe, q', hstage', -⟩ := hA.second hd hv ht hstage hy₁ hrun
    have hsound₁ : StepSound step s₁.steps := by
      rcases hstage with ⟨hc, -⟩ | ⟨hstage, -⟩
      · rw [hA.rests place s hv hc] at hy₁
        obtain ⟨-, rfl⟩ := Yields.of_ended hy₁
        exact hsound.1
      · exact walkStep_preserves setup step hnd.of_append_left place q s t₁ s₁ hv ht hstage hsound.1
          hy₁ (.inl hrun)
    have hover : Over (chainRegion [step]).names s₁.steps :=
      .of_complete (by rw [names_singleton]; exact hnd.of_append_left) ht₁
        (by rw [chainRegion, chainRegion]; exact ⟨hcomplete, trivial⟩)
        (by rw [Sound, Sound]; exact ⟨hsound₁, trivial⟩)
    rw [names_singleton] at hover
    have hunwalked : Agree (chainRegion rest).names s.steps s₁.steps := fun n hn =>
      hframe n fun hn' => hd hn' hn
    obtain ⟨p, hended, hbreaks⟩ := hrest place q' s₁ t₂ s' hrun ht₁ hstage'
      ((sound_local rest).agree hunwalked hsound.2) ((sequenced_local rest).agree hunwalked hseq.2)
      hy₂ hgo
    have hl := hB.lands place q' s₁ t₂ s' hrun ht₁ hstage' hy₂
    exact ⟨p, hended.mono (List.subset_append_right _ _),
      .later (hover.agree fun n hn => hl.frame n (hd hn)) hbreaks⟩
  · obtain ⟨rfl, rfl⟩ := Yields.of_ended hy₂
    rw [List.append_nil]
    rcases hstage with ⟨hc, -⟩ | ⟨hstage, hfresh⟩
    · rw [hA.rests place s hv hc] at hy₁
      obtain ⟨-, rfl⟩ := Yields.of_ended hy₁
      exact absurd (.inl hv) hgo
    · obtain ⟨p, hended, hbreaks⟩ :=
        hstep place q s t₁ s' hv ht hstage hsound.1 hseq.1 hy₁ hgo
      have hl := hA.lands place q s t₁ s' hv ht hstage hy₁
      exact ⟨p, hended, .first hbreaks (hfresh.agree fun n hn => hl.frame n fun hn' => hd hn' hn)⟩

variable (setup)

theorem breaksOff_hereditary : HereditaryDistinct (fun chain => ChainBreaks chain (walk setup chain))
    fun step => StepBreaks step (walkStep setup step) where
  nil := by
    intro place q s t s' hv _ _ _ _ hy hgo
    rw [walk_nil] at hy
    obtain ⟨-, rfl⟩ := Yields.of_ended hy
    exact absurd (.inl hv) hgo
  cons _ _ hnd hstep hrest := breaks_cons hnd hstep hrest
  trigger l t := by
    intro place q s t s' _ _ _ _ _ hy _
    rw [walkStep] at hy
    obtain ⟨-, ho | ho⟩ := Job.Yields.done_iff.mp hy <;> cases ho
  action l a := by
    rw [walkStep_action]
    exact breaks_action l a
  branch l c onSuccess onFailure hnd hsuccess hfailure :=
    breaks_branch l c onSuccess onFailure hnd hsuccess hfailure
  split l settings branches hnd hbranches := breaks_split l settings branches hnd hbranches
  loop l settings body hnd hbody := breaks_loop l settings body hnd hbody

/-- A walk of a chain that fails or is stopped breaks off at a step that gave the verdict. -/
theorem walk_breaksOff (chain : List Step) (hnd : (chainRegion chain).names.Nodup) :
    ChainBreaks chain (walk setup chain) :=
  (breaksOff_hereditary setup).chain hnd

end FlowEngine.Engine
