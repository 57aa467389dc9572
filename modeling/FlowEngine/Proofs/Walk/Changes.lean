import FlowEngine.Proofs.Walk.Chain

/-!
# What a walk changes

Whatever records a walk begins with, it changes only those of its own steps. When it ends normally,
the records that it changed are finished, and were not before.

* `Settles` — a record that is as it was, or was finished in between.
* `Changes` — the records at the end of a walk, compared to those at its beginning.
* `walk_changes` — what the walk of a chain changes.
-/

namespace FlowEngine.Engine

open FlowEngine.Run FlowEngine.Flow

/-- Whether there is a finished record. -/
def finished (r : Option StepRecord) : Bool := r.any fun r => r.status.isFinished

/-- A record is as it was, or was finished in between. -/
def Settles (r r' : Option StepRecord) : Prop := r' = r ∨ finished r = false ∧ finished r' = true

namespace Settles

variable {r r' r'' : Option StepRecord}

theorem refl (r : Option StepRecord) : Settles r r := .inl rfl

theorem trans (h : Settles r r') (h' : Settles r' r'') : Settles r r'' := by
  rcases h with rfl | ⟨hr, hr'⟩
  · exact h'
  · rcases h' with rfl | ⟨hn, -⟩
    · exact .inr ⟨hr, hr'⟩
    · rw [hr'] at hn
      cases hn

/-- A record that takes the place of one that is not finished is itself settled later. -/
theorem of_unfinished (hr : finished r = false) (h : Settles r' r'')
    (hr' : finished r' = true) : Settles r r'' := by
  rcases h with rfl | ⟨hn, -⟩
  · exact .inr ⟨hr, hr'⟩
  · rw [hr'] at hn
    cases hn

end Settles

/-- The records at the end of a walk of steps of some names. -/
structure Changes (names : List String) (s s' : RunState) : Prop where
  tidy : s'.steps.Tidy
  frame : ∀ n, n ∉ names → s'.steps.get? n = s.steps.get? n
  settles : s'.verdict = .running → ∀ n, Settles (s.steps.get? n) (s'.steps.get? n)

/-- Complete walks change the records of a region only. -/
def ChangesOwn (R : Region) (w : Body) : Prop := ∀ place s t s', s.steps.Tidy →
  Job.Yields (w place s) t (.result (.ok s')) → Changes R.names s s'

variable {setup : Setup} {s s₁ s' : RunState} {t : Trace} {names names' : List String}

namespace Changes

theorem refl (ht : s.steps.Tidy) : Changes names s s := ⟨ht, fun _ _ => rfl, fun _ _ => .refl _⟩

theorem mono (h : Changes names s s') (hn : names ⊆ names') : Changes names' s s' :=
  ⟨h.tidy, fun n hn' => h.frame n fun hm => hn' (hn hm), h.settles⟩

theorem trans (h : Changes names s s₁) (hv : s₁.verdict = .running) (h' : Changes names s₁ s') :
    Changes names s s' :=
  ⟨h'.tidy, fun n hn => (h'.frame n hn).trans (h.frame n hn),
    fun hv' n => (h.settles hv n).trans (h'.settles hv' n)⟩

/-- A record that takes the place of one that is not finished. -/
theorem insert {name : String} {r : StepRecord} (ht : s.steps.Tidy)
    (hs' : s'.steps = s.steps.insert name r) (hname : name ∈ names)
    (hr : ∀ its k, r.iterations? = some its → k ∈ its → k.Tidy)
    (hopen : finished (s.steps.get? name) = false)
    (hfin : s'.verdict = .running → r.status.isFinished = true) : Changes names s s' := by
  refine ⟨hs' ▸ ht.insert name hr, fun n hn => ?_, fun hv n => ?_⟩ <;> rw [hs', StepMap.get?_insert]
  · exact if_neg (by rintro rfl; exact hn hname)
  · split_ifs with h
    · exact .inr ⟨h ▸ hopen, hfin hv⟩
    · exact .refl _

end Changes

/-! ## Steps -/

theorem finished_eq_false {r : Option StepRecord}
    (h : ¬ (r.any fun r => r.status.isFinished) = true) : finished r = false :=
  Bool.eq_false_iff.mpr h

/-- A step that failed before it did anything. -/
theorem Changes.failed {name message : String} {input : Json} (ht : s.steps.Tidy)
    (hname : name ∈ names) (hopen : finished (s.steps.get? name) = false) :
    Changes names s
      ((s.upsert name (failedRecord input message)).withVerdict (.failed name message)) :=
  .insert ht rfl hname (by rintro its k ⟨⟩) hopen fun h => by cases h

/-- The ways in which an action goes that ends: it was finished, it failed, or it was called and did
not fail. -/
theorem runAction_ends {place : Place} {name : String} {a : Flow.Action}
    (hy : Job.Yields (runAction setup place name a s) t (.result (.ok s'))) :
    (finished (s.steps.get? name) = true ∧ s' = s) ∨
      finished (s.steps.get? name) = false ∧
        ((∃ input failure duration, s' = failedState s name a.errorHandling input failure duration) ∨
        ∃ i output duration hook, i.name = name ∧ s' = endedState s i output duration hook) := by
  by_cases hf : (s.steps.get? name).any fun r => r.status.isFinished
  · dsimp only [runAction] at hy
    rw [if_pos hf] at hy
    exact .inl ⟨hf, (Yields.of_ended hy).2⟩
  have hopen (r : StepRecord) (hr : s.steps.get? name = some r) : r.status.isFinished = false := by
    rw [hr] at hf
    exact finished_eq_false hf
  refine .inr ⟨finished_eq_false hf, ?_⟩
  rcases runAction_yields hopen hy with ⟨-, ho⟩ | ⟨-, now, e, duration, -, ho⟩ |
    ⟨input, started, -, hends⟩
  · exact absurd rfl (ho s')
  · cases ho
    exact .inl ⟨_, _, _, rfl⟩
  · obtain ⟨e, -, hend⟩ := hends s' rfl
    generalize e.reply = reply at hend
    cases hend with
    | failed failure duration => exact .inl ⟨_, _, _, rfl⟩
    | ended output duration hook => exact .inr ⟨_, output, duration, hook, rfl, rfl⟩

theorem changesOwn_action (l : Label) (a : Flow.Action) :
    ChangesOwn (.action (.action l a)) fun place s => runAction setup place l.name a s := by
  intro place s t s' ht hy
  have hname : l.name ∈ (Region.action (.action l a)).names := List.mem_cons_self
  rcases runAction_ends hy with ⟨-, rfl⟩ | ⟨hopen, ⟨input, failure, duration, rfl⟩ |
    ⟨i, output, duration, hook, hi, rfl⟩⟩
  · exact .refl ht
  · exact .insert ht (failedState_steps ..) hname (by rintro its k ⟨⟩) hopen fun _ => rfl
  · rw [← hi] at hname hopen
    rcases hook with _ | pause | response
    · exact .insert ht rfl hname (by rintro its k ⟨⟩) hopen fun _ => rfl
    · exact .insert ht rfl hname (by rintro its k ⟨⟩) hopen fun hv => by cases hv
    · exact .insert ht rfl hname (by rintro its k ⟨⟩) hopen fun hv => by cases hv

/-- The side that the record of a branch chooses, if its condition was evaluated. -/
def chosen? (r : Option StepRecord) : Option Bool :=
  r.bind fun r => if r.status = .succeeded then r.holds? else none

/-- A record that chooses a side is finished. -/
theorem finished_of_chosen {r : Option StepRecord} {holds : Bool} (h : chosen? r = some holds) :
    finished r = true := by
  obtain ⟨r, rfl, hr⟩ := Option.bind_eq_some_iff.mp h
  split_ifs at hr with hs
  change r.status.isFinished = true
  rw [hs]
  rfl

/-- A branch with a finished record is passed over, or the side is walked that its record chooses. -/
theorem runBranch_of_finished {place : Place} {name : String} {c : ConditionSet}
    {walkSide : Bool → RunState → Walk} (h : finished (s.steps.get? name) = true) :
    runBranch place name c walkSide s = match chosen? (s.steps.get? name) with
      | some holds => walkSide holds s
      | none => Walk.ended s := by
  unfold runBranch
  cases hr : s.steps.get? name with
  | none =>
    rw [hr] at h
    cases h
  | some r =>
    have hf : r.status.isFinished = true := by rwa [hr] at h
    dsimp only [chosen?, Option.bind_some]
    cases hs : r.status with
    | running | paused => rw [hs] at hf; cases hf
    | failed => rfl
    | succeeded => rfl

theorem runBranch_of_open {place : Place} {name : String} {c : ConditionSet}
    {walkSide : Bool → RunState → Walk} (h : finished (s.steps.get? name) = false) :
    runBranch place name c walkSide s = decideBranch place name c walkSide s := by
  unfold runBranch
  cases hr : s.steps.get? name with
  | none => rfl
  | some r =>
    have hf : r.status.isFinished = false := by rwa [hr] at h
    dsimp only
    cases hs : r.status with
    | running | paused => rfl
    | failed | succeeded => rw [hs] at hf; cases hf

/-- The ways in which the walk of a branch goes, whatever records it begins with: it was finished and
no side is walked, its condition fails, or one side is walked, which is chosen by a new record or by
the one that there is. -/
theorem runBranch_ends {place : Place} {name : String} {c : ConditionSet}
    {walkSide : Bool → RunState → Walk} {o : Outcome Result}
    (h : Job.Yields (runBranch place name c walkSide s) t o) :
    (t = [] ∧ ∀ s', o = .result (.ok s') →
      (finished (s.steps.get? name) = true ∧ chosen? (s.steps.get? name) = none ∧ s' = s) ∨
      finished (s.steps.get? name) = false ∧ ∃ input message,
        s' = (s.upsert name (failedRecord input message)).withVerdict (.failed name message)) ∨
      ∃ holds s₁, (s₁ = s ∨ finished (s.steps.get? name) = false ∧
          ∃ summary, s₁ = s.upsert name (.branch summary holds)) ∧
        chosen? (s₁.steps.get? name) = some holds ∧ Job.Yields (walkSide holds s₁) t o := by
  cases hf : finished (s.steps.get? name) with
  | true =>
    rw [runBranch_of_finished hf] at h
    cases hc : chosen? (s.steps.get? name) with
    | none =>
      rw [hc] at h
      exact .inl ⟨Yields.ended_nil h, fun s' ho => .inl ⟨rfl, rfl, (Yields.of_ended (ho ▸ h)).2⟩⟩
    | some holds =>
      rw [hc] at h
      exact .inr ⟨holds, s, .inl rfl, hc, h⟩
  | false =>
    rw [runBranch_of_open hf] at h
    rcases decideBranch_yields h with ⟨rfl, ho⟩ | ⟨rfl, input, message, rfl⟩ |
      ⟨holds, summary, hs, h⟩
    · exact .inl ⟨rfl, fun s' hs' => absurd hs' (ho s')⟩
    · refine .inl ⟨rfl, fun s' hs' => .inr ⟨rfl, input, message, ?_⟩⟩
      cases hs'
      rfl
    · refine .inr ⟨holds, _, .inr ⟨rfl, summary, rfl⟩, ?_, h⟩
      change chosen? ((s.steps.insert _ _).get? name) = some holds
      rw [StepMap.get?_insert_self]
      exact if_pos hs

/-- A side is walked with the same verdict, and with tidy records if they were. -/
theorem side_entered {name : String} {holds : Bool} {s₁ : RunState}
    (h : s₁ = s ∨ finished (s.steps.get? name) = false ∧
      ∃ summary, s₁ = s.upsert name (.branch summary holds)) :
    s₁.verdict = s.verdict ∧ (s.steps.Tidy → s₁.steps.Tidy) := by
  rcases h with rfl | ⟨-, summary, rfl⟩
  · exact ⟨rfl, id⟩
  · exact ⟨rfl, fun ht => ht.insert _ (by rintro its k ⟨⟩)⟩

theorem changesOwn_branch {A B : Region} {wA wB : Body} (hA : ChangesOwn A wA)
    (hB : ChangesOwn B wB) (l : Label) (c : ConditionSet) (onSuccess onFailure : List Step) :
    ChangesOwn (.branch (.branch l c onSuccess onFailure) A B) fun place s =>
      runBranch place l.name c (fun holds => if holds then wA place else wB place) s := by
  intro place s t s' ht hy
  rw [Region.branch_names]
  rcases runBranch_ends hy with ⟨-, hends⟩ | ⟨holds, s₁, hs₁, hchosen, hy⟩
  · rcases hends s' rfl with ⟨-, -, rfl⟩ | ⟨hopen, input, message, rfl⟩
    · exact .refl ht
    · exact .failed ht List.mem_cons_self hopen
  have side (ht₁ : s₁.steps.Tidy) : Changes (l.name :: (A.names ++ B.names)) s₁ s' := by
    cases holds
    · exact (hB place s₁ t s' ht₁ hy).mono fun n hn =>
        List.mem_cons_of_mem _ (List.mem_append_right _ hn)
    · exact (hA place s₁ t s' ht₁ hy).mono fun n hn =>
        List.mem_cons_of_mem _ (List.mem_append_left _ hn)
  rcases hs₁ with rfl | ⟨hopen, summary, rfl⟩
  · exact side ht
  have h := side (ht.insert _ (by rintro its k ⟨⟩))
  refine ⟨h.tidy, fun n hn => (h.frame n hn).trans ?_, fun hv n => ?_⟩
  · exact StepMap.get?_insert_of_ne _ _ fun heq => hn (heq ▸ List.mem_cons_self)
  · by_cases hn : l.name = n
    · subst hn
      exact .of_unfinished hopen (h.settles hv _) (finished_of_chosen hchosen)
    · have hother := StepMap.get?_insert_of_ne s.steps (.branch summary holds) hn
      exact hother ▸ h.settles hv n

/-! ## Loops -/

/-- The ways in which the walk of a loop goes: it was finished, it makes no calls and has no items at
the end, or its iterations are walked, those that have records from these. -/
theorem runLoop_ends {place : Place} {name : String} {settings : LoopSettings} {wB : Body}
    {o : Outcome Result} (hy : Job.Yields (runLoop setup place name settings wB s) t o) :
    (t = [] ∧ ∀ s', o = .result (.ok s') → finished (s.steps.get? name) = true ∧ s' = s) ∨
      finished (s.steps.get? name) = false ∧
        ((t = [] ∧ ∀ s', o = .result (.ok s') → ∃ input message, s' =
          (s.upsert name (failedRecord input message)).withVerdict (.failed name message)) ∨
        ∃ items started its, (its = [] ∨
            ∃ r, s.steps.get? name = some r ∧ r.iterations? = some its) ∧
          Job.Yields (walkItems setup place name settings wB started items its s) t o) := by
  dsimp only [runLoop] at hy
  split_ifs at hy with hf
  · exact .inl ⟨Yields.ended_nil hy, fun s' ho => ⟨hf, (Yields.of_ended (ho ▸ hy)).2⟩⟩
  refine .inr ⟨finished_eq_false hf, ?_⟩
  rcases Job.Yields.of_clock hy with ⟨rfl, rfl⟩ | ⟨started, hy⟩
  · exact .inl ⟨rfl, by simp⟩
  split at hy
  next items its hrec =>
    exact .inr ⟨items, started, its, .inr (recordedLoop?_eq_some hrec), hy⟩
  next =>
    rcases Yields.of_onTemplate hy with ⟨rfl, ho⟩ | ⟨r, -, hy⟩
    · exact .inl ⟨rfl, fun s' ho' => absurd ho' (ho s')⟩
    split at hy
    · exact .inr ⟨_, started, [], .inl rfl, hy⟩
    · exact .inl ⟨Yields.ended_nil hy, fun s' ho => ⟨_, _, (Yields.of_ended (ho ▸ hy)).2⟩⟩

/-- The maps that iterations are entered with are tidy. -/
theorem tidy_entered {its : List StepMap} {name : String} (ht : s.steps.Tidy)
    (hits : its = [] ∨ ∃ r, s.steps.get? name = some r ∧ r.iterations? = some its) (count : Nat) :
    ∀ m ∈ fit count its, m.Tidy := by
  refine tidy_fit (fun m hm => ?_) count
  rcases hits with rfl | ⟨r, hr, hits⟩
  · cases hm
  · exact ht.inner hr hits hm

theorem changesOwn_loop {B : Region} {wB : Body} (hB : ChangesOwn B wB) (l : Label)
    (settings : LoopSettings) (body : List Step) :
    ChangesOwn (.loop (.loop l settings body) B) fun place s =>
      runLoop setup place l.name settings wB s := by
  intro place s t s' ht hy
  have hname : l.name ∈ (Region.loop (.loop l settings body) B).names := List.mem_cons_self
  rcases runLoop_ends hy with ⟨-, hdone⟩ | ⟨hopen, ⟨-, hfails⟩ | ⟨items, started, its, hits, hy⟩⟩
  · obtain ⟨-, rfl⟩ := hdone s' rfl
    exact .refl ht
  · obtain ⟨input, message, rfl⟩ := hfails s' rfl
    exact .failed ht hname hopen
  have htidy := tidy_entered ht hits items.length
  obtain ⟨traces, kids, maps, decisive, duration, hit, rfl⟩ := (walkItems_yields rfl hy).2 s' rfl
  obtain ⟨summary, item, index, hsteps, -, hnone, hsome, -⟩ :=
    closeLoop_eq (looping l.name items place s wB) items duration maps decisive
  have hmaps (m' : StepMap) (hm' : m' ∈ maps) : m'.Tidy := by
    obtain ⟨i, hi⟩ := List.getElem?_of_mem hm'
    obtain ⟨item, m, hx, hafter⟩ := hit.of_map hi
    have hm : m.Tidy := htidy m (List.of_mem_zip (List.mem_of_getElem? hx)).2
    rcases hit.kid hx with hk | ⟨k, hk⟩
    · rw [hafter.skipped hk]
      exact hm
    · have hkid := (hB _ (s.nested _) _ k hm (hit.ran i _ _ k hx hk)).tidy
      by_cases hr : Repeats kids i
      · rw [hafter.repeated k hk hr]
        exact hkid.withdrawPauses
      · rw [hafter.kept k hk hr]
        exact hkid
  refine .insert ht hsteps hname ?_ hopen fun hv => ?_
  · rintro _ k ⟨⟩ hk
    exact hmaps k hk
  · rw [StepRecord.status, StepRecord.summary, hnone (closeLoop_running hit.decides hv)]
    rfl

/-! ## Splits -/

theorem tidy_mergeSteps {base merged m : StepMap} (hm : merged.Tidy) (hk : m.Tidy) :
    (mergeSteps base merged m).Tidy := by
  refine .intro (nodup_mergeSteps hm.nodup) fun n r its k hr hits hmem => ?_
  rw [get?_mergeSteps base merged hk.nodup] at hr
  split_ifs at hr
  · exact hm.inner hr hits hmem
  · rcases Option.or_eq_some_iff.mp hr with hr | ⟨-, hr⟩
    · exact hk.inner hr hits hmem
    · exact hm.inner hr hits hmem

theorem tidy_mergeOne {base : StepMap} {halts : Halts} {merged s : RunState}
    (hm : merged.steps.Tidy) (hs : s.steps.Tidy) :
    (mergeOne base halts merged names s).steps.Tidy := by
  have h : (mergeSteps base merged.steps s.steps).Tidy := tidy_mergeSteps hm hs
  unfold mergeOne
  dsimp only
  split_ifs
  · refine h.withdrawn (StepMap.nodup_foldl_withdrawPause h.nodup names) fun n => ?_
    change (names.foldl StepMap.withdrawPause _).get? n = _ ∨
      (names.foldl StepMap.withdrawPause _).get? n = _
    rw [StepMap.get?_foldl_withdrawPause h.nodup]
    split_ifs
    · exact .inr rfl
    · exact .inl rfl
  · exact h

/-- A record that no branch changed stays, and one that branches finished is finished. -/
theorem mergeBranches_changes {base : RunState} {index : Nat} {halts halts' : Halts}
    {merged merged' : RunState} {paths : List Path} {kids : List RunState} (hm : merged.steps.Tidy)
    (hkids : ∀ x ∈ paths.zip kids, Changes x.1.stepNames base x.2)
    (length : kids.length = paths.length)
    (h : mergeBranches base.steps index halts merged
      (paths.zip (kids.map fun s => some (.ok s))) = .ok (merged', halts')) :
    merged'.steps.Tidy ∧
      (∀ n, (∀ path ∈ paths, n ∉ path.stepNames) → merged'.steps.get? n = merged.steps.get? n) ∧
      ((∀ k ∈ kids, k.verdict = .running) → ∀ n,
        Settles (base.steps.get? n) (merged.steps.get? n) →
          Settles (base.steps.get? n) (merged'.steps.get? n)) := by
  induction paths generalizing index halts merged kids with
  | nil =>
    obtain rfl := List.length_eq_zero_iff.mp length
    cases h
    exact ⟨hm, fun _ _ => rfl, fun _ _ h => h⟩
  | cons path paths ih =>
    cases kids with
    | nil => cases length
    | cons s kids =>
      rw [List.map_cons, List.zip_cons_cons, mergeBranches_cons] at h
      have hown : Changes path.stepNames base s := hkids (path, s) List.mem_cons_self
      obtain ⟨htidy, hother, hsettles⟩ := ih (tidy_mergeOne hm hown.tidy)
        (fun x hx => hkids x (List.mem_cons_of_mem _ hx)) (by simpa using length) h
      refine ⟨htidy, fun n hn => ?_,
        fun hv n hset => hsettles (fun k hk => hv k (List.mem_cons_of_mem _ hk)) n ?_⟩
      · have hne := hn path List.mem_cons_self
        rw [hother n fun p hp => hn p (List.mem_cons_of_mem _ hp),
          mergeOne_unchanged hm.nodup hown.tidy.nodup hne (hown.frame n hne)]
      · have hrun := hv s List.mem_cons_self
        rw [mergeOne_of_running hrun, get?_mergeSteps _ _ hown.tidy.nodup]
        split_ifs with heq
        · exact hset
        · obtain ⟨hopen, hfin⟩ := (hown.settles hrun n).resolve_left heq
          cases hr : s.steps.get? n with
          | none => rw [hr] at hfin; cases hfin
          | some r => exact .inr ⟨hopen, by rw [hr] at hfin; exact hfin⟩

/-- The input and the branches that a split is walked with: those that its record shows while it is
running, or else those that are chosen at some time. -/
def SplitOpens (place : Place) (name : String) (settings : SplitSettings)
    (branches : List SplitBranch) (s : RunState) (input : Json) (taken : List String) : Prop :=
  recordedSplit? (s.steps.get? name) = some (input, taken) ∨
    recordedSplit? (s.steps.get? name) = none ∧
      input = .obj [("executionType", .str settings.execution.name)] ∧
      ∃ now, chooseBranches (place.names s now) settings.execution branches = .ok taken

/-- The ways in which the walk of a split goes: it was finished, it makes no calls and its branches
cannot be chosen, or some of them are walked. -/
theorem runSplit_opens {place : Place} {name : String} {settings : SplitSettings} {paths : List Path}
    {o : Outcome Result} (hy : Job.Yields (runSplit setup place name settings paths s) t o) :
    (t = [] ∧ ∀ s', o = .result (.ok s') → finished (s.steps.get? name) = true ∧ s' = s) ∨
      finished (s.steps.get? name) = false ∧
        ((t = [] ∧ ∀ s', o = .result (.ok s') → ∃ input message, s' =
          (s.upsert name (failedRecord input message)).withVerdict (.failed name message)) ∨
        ∃ started input taken,
          SplitOpens place name settings (paths.map Path.branch) s input taken ∧ Job.Yields
            (walkPaths setup name settings.concurrency paths started input taken s) t o) := by
  dsimp only [runSplit] at hy
  split_ifs at hy with hf
  · exact .inl ⟨Yields.ended_nil hy, fun s' ho => ⟨hf, (Yields.of_ended (ho ▸ hy)).2⟩⟩
  refine .inr ⟨finished_eq_false hf, ?_⟩
  rcases Job.Yields.of_clock hy with ⟨rfl, rfl⟩ | ⟨started, hy⟩
  · exact .inl ⟨rfl, by simp⟩
  split at hy
  next input taken hrec => exact .inr ⟨started, input, taken, .inl hrec, hy⟩
  next hrec =>
    split at hy
    · obtain ⟨rfl, ho⟩ := Yields.of_crash hy
      exact .inl ⟨rfl, fun s' ho' => absurd ho' (ho s')⟩
    · exact .inl ⟨Yields.ended_nil hy, fun s' ho => ⟨_, _, (Yields.of_ended (ho ▸ hy)).2⟩⟩
    next taken hchosen =>
      exact .inr ⟨started, _, taken, .inr ⟨hrec, rfl, started.now, hchosen⟩, hy⟩

/-- The same without what the branches are walked with. -/
theorem runSplit_ends {place : Place} {name : String} {settings : SplitSettings} {paths : List Path}
    {o : Outcome Result} (hy : Job.Yields (runSplit setup place name settings paths s) t o) :
    (t = [] ∧ ∀ s', o = .result (.ok s') → finished (s.steps.get? name) = true ∧ s' = s) ∨
      finished (s.steps.get? name) = false ∧
        ((t = [] ∧ ∀ s', o = .result (.ok s') → ∃ input message, s' =
          (s.upsert name (failedRecord input message)).withVerdict (.failed name message)) ∨
        ∃ started input taken, Job.Yields
          (walkPaths setup name settings.concurrency paths started input taken s) t o) :=
  (runSplit_opens hy).imp id fun ⟨hopen, h⟩ => ⟨hopen, h.imp id
    fun ⟨started, input, taken, _, hy⟩ => ⟨started, input, taken, hy⟩⟩

/-- If the walk goes on after a split, then no branch decided: all of them ended normally. -/
theorem closeSplit_running {name : String} {input : Json} {taken : List String} {duration : Nat}
    {merged : RunState} {halts : Halts} {kids : List RunState} (hs : halts.Sees (kids.map some))
    (hv : (closeSplit name input taken duration merged halts).verdict = .running) :
    halts.decisive? = none ∧ ∀ k ∈ kids, k.verdict = .running := by
  obtain ⟨-, -, -, -, -, hsome, -⟩ := closeSplit_eq name input taken duration merged halts
  have hdecides := hs.decides
  cases hd : halts.decisive? with
  | none =>
    rw [hd] at hdecides
    refine ⟨rfl, fun k hk => ?_⟩
    obtain ⟨i, hi⟩ := List.getElem?_of_mem hk
    exact hdecides i k (by rw [List.getElem?_map, hi]; rfl)
  | some d =>
    rw [hd] at hdecides
    exact absurd ((hsome d.1 d.2 hd).symm.trans hv) hdecides.1

/-- Every branch changes records of its own steps only. -/
theorem Branched.changes {arms : List Arm} {taken : List String} {place : Place} {base : RunState}
    {traces : Nat → Trace} {kids : List RunState}
    (hb : Branched place base (Arm.taken arms taken) t traces kids)
    (harms : ∀ a ∈ arms, ChangesOwn a.region a.body) (ht : base.steps.Tidy) :
    ∀ x ∈ ((Arm.taken arms taken).map (Arm.path place)).zip kids,
      Changes x.1.stepNames base x.2 := by
  intro x hx
  obtain ⟨i, hi⟩ := List.getElem?_of_mem hx
  obtain ⟨hp, hk⟩ := List.getElem?_zip_eq_some.mp hi
  rw [List.getElem?_map, Option.map_eq_some_iff] at hp
  obtain ⟨a, ha, hp⟩ := hp
  rw [← hp]
  exact harms a (Arm.names_subset (List.mem_of_getElem? ha)).1 place _ _ _ ht
    (hb.ran i a x.2 ha hk)

theorem changesOwn_split {arms : List Arm} (harms : ∀ a ∈ arms, ChangesOwn a.region a.body)
    (l : Label) (settings : SplitSettings) (branches : List (SplitBranch × List Step)) :
    ChangesOwn (.split (.split l settings branches) (arms.map Arm.part)) fun place s =>
      runSplit setup place l.name settings (arms.map (Arm.path place)) s := by
  intro place s t s' ht hy
  rw [Region.split_names]
  rcases runSplit_ends hy with ⟨-, hdone⟩ | ⟨hopen, ⟨-, hfails⟩ | ⟨started, input, taken, hy⟩⟩
  · obtain ⟨-, rfl⟩ := hdone s' rfl
    exact .refl ht
  · obtain ⟨input, message, rfl⟩ := hfails s' rfl
    exact .failed ht List.mem_cons_self hopen
  obtain ⟨traces, kids, merged, halts, duration, hb, hmerge, rfl⟩ := (walkPaths_yields hy).2 s' rfl
  have hbase : (splitBase s l.name input taken).steps.Tidy := splitBase_tidy ht
  have hkids := hb.changes harms hbase
  obtain ⟨htidy, hother, hsettles⟩ := mergeBranches_changes hbase hkids
    (by simpa using hb.length) hmerge
  obtain ⟨hsees, -⟩ := mergeBranches_sees .nil (by simpa using hb.length) hmerge
  obtain ⟨summary, hsteps, -, -, hnone, -, -⟩ :=
    closeSplit_eq l.name input taken duration merged halts
  have hframe (n : String) (hn : n ∉ l.name :: Region.branchNames (arms.map Arm.part)) :
      merged.steps.get? n = s.steps.get? n := by
    obtain ⟨hne, hbranch⟩ := not_or.mp (List.mem_cons.not.mp hn)
    rw [hother n fun path hp hmem => ?_]
    · exact splitBase_other s input taken hne
    · obtain ⟨a, ha, rfl⟩ := List.mem_map.mp hp
      exact hbranch ((Arm.names_subset ha).2.2 hmem)
  refine ⟨?_, fun n hn => ?_, fun hv n => ?_⟩ <;> rw [hsteps]
  · exact htidy.insert _ (by rintro its k ⟨⟩)
  · rw [StepMap.get?_insert_of_ne _ _ (by rintro rfl; exact hn List.mem_cons_self), hframe n hn]
  · obtain ⟨hquiet, hall⟩ := closeSplit_running hsees hv
    rw [StepMap.get?_insert]
    split_ifs with hn
    · refine .inr ⟨hn ▸ hopen, ?_⟩
      change summary.status.isFinished = true
      rw [(hnone hquiet).1]
      rfl
    · have h := hsettles hall n (.refl _)
      rwa [splitBase_other s input taken (Ne.symm hn)] at h

/-! ## Chains -/

theorem changesOwn_inductive (setup : Setup) : Inductive setup ChangesOwn where
  nil := by
    intro place s t s' ht hy
    obtain ⟨-, rfl⟩ := Yields.of_ended hy
    exact .refl ht
  seq A B wA wB hA hB := by
    intro place s t s' ht hy
    rw [Region.seq_names]
    rcases Job.Yields.of_andThen hy with ⟨s₁, t₁, t₂, rfl, hy₁, hy₂⟩ | ⟨-, ho⟩
    · have h₁ := (hA place s t₁ s₁ ht hy₁).mono (List.subset_append_left A.names B.names)
      split_ifs at hy₂ with hv
      · exact h₁.trans (isRunning_iff.mp hv) <|
          (hB place s₁ t₂ s' h₁.tidy hy₂).mono (List.subset_append_right A.names B.names)
      · obtain ⟨-, rfl⟩ := Yields.of_ended hy₂
        exact h₁
    · exact absurd rfl (ho s')
  trigger l t := by
    intro place s t s' ht hy
    obtain ⟨-, ho | ho⟩ := Job.Yields.done_iff.mp hy <;> cases ho
  action := changesOwn_action
  branch l c onSuccess onFailure A B wA wB hA hB := changesOwn_branch hA hB l c onSuccess onFailure
  split l settings branches arms _ _ harms := changesOwn_split harms l settings branches
  loop l settings body B wB hB := changesOwn_loop hB l settings body

/-- The walk of a chain changes the records of its own steps, and settles them. -/
theorem walk_changes (setup : Setup) (chain : List Step) :
    ChangesOwn (chainRegion chain) (walk setup chain) :=
  (changesOwn_inductive setup).chain chain

theorem walkStep_changes (setup : Setup) (step : Step) :
    ChangesOwn (stepRegion step) (walkStep setup step) :=
  (changesOwn_inductive setup).step step

end FlowEngine.Engine
