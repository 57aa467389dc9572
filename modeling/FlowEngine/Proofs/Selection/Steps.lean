import FlowEngine.Proofs.Selection.Sound
import FlowEngine.Proofs.Walk.Changes

/-!
# Walks keep records sound

A walk that ends normally or with a pause leaves sound records, if it began with such. One that fails
or is stopped need not, since the run is not walked again.

* `Preserves` — walks of a part of a flow that keep a property of its records.
* `Preserves.seq`, `preserves_action`, `preserves_branch`, `preserves_loop` — walks of the shapes of
  steps, given those of the chains in them.
-/

namespace FlowEngine.Engine

open FlowEngine.Run FlowEngine.Flow

/-! ## Verdicts -/

/-- The walk ended normally or with a pause. -/
def GoesOn (v : Verdict) : Prop := v = .running ∨ ∃ pause, v = .paused pause

theorem not_goesOn_failed {name message : String} : ¬ GoesOn (.failed name message) := by
  rintro (h | ⟨_, h⟩) <;> cases h

theorem not_goesOn_succeeded {response : Option Json} : ¬ GoesOn (.succeeded response) := by
  rintro (h | ⟨_, h⟩) <;> cases h

/-- If the part that decides ended with a pause, or none decides, then all parts ended normally or with
a pause. -/
theorem Decides.goesOn {kids : List (Option RunState)} {d : Option (Nat × Verdict)}
    (h : Decides kids d) (hd : ∀ i v, d = some (i, v) → GoesOn v) {i : Nat} {s : RunState}
    (hs : kids[i]? = some (some s)) : GoesOn s.verdict := by
  rcases d with _ | ⟨j, v⟩
  · exact .inl (h i s hs)
  · rcases hd j v rfl with hv | ⟨pause, hv⟩
    · exact absurd hv h.1
    · refine (h.2.2 pause hv i s hs).imp id fun hp => ?_
      have hp := hp.1
      cases hk : s.verdict with
      | paused pause' => exact ⟨pause', rfl⟩
      | _ => rw [hk] at hp; cases hp

/-! ## Walks one after the other -/

/-- Walks of a region keep a property of its records. -/
def Preserves (R : Region) (S : StepMap → Prop) (w : Body) : Prop :=
  ∀ place q s t s', s.verdict = .running → s.steps.Tidy → R.stage q s.steps → S s.steps →
    Job.Yields (w place s) t (.result (.ok s')) → GoesOn s'.verdict → S s'.steps

variable {setup : Setup} {A B : Region} {wA wB : Body} {SA SB : StepMap → Prop}

theorem Preserves.seq (hA : Follows setup A wA) (hB : Follows setup B wB)
    (hd : A.names.Disjoint B.names) (hSA : Local A.names SA) (hSB : Local B.names SB)
    (hpA : Preserves A SA wA) (hpB : Preserves B SB wB) :
    Preserves (A.seq B) (fun m => SA m ∧ SB m) (afterwards wA wB) := by
  intro place q s t s' hv ht hstage ⟨hsA, hsB⟩ hy hgo
  -- the first walk ended normally or with a pause
  have first {s₁ : RunState} {t₁ : Trace} (hy₁ : Job.Yields (wA place s) t₁ (.result (.ok s₁)))
      (hgo₁ : GoesOn s₁.verdict) : SA s₁.steps ∧ SB s₁.steps := by
    rcases hstage with ⟨hc, -⟩ | ⟨hstage, -⟩
    · rw [hA.rests place s hv hc] at hy₁
      obtain ⟨-, rfl⟩ := Yields.of_ended hy₁
      exact ⟨hsA, hsB⟩
    · have hl := hA.lands place q s t₁ s₁ hv ht hstage hy₁
      exact ⟨hpA place q s t₁ s₁ hv ht hstage hsA hy₁ hgo₁,
        hSB.agree (fun n hn => hl.frame n fun hn' => hd hn' hn) hsB⟩
  rcases Job.Yields.of_andThen hy with ⟨s₁, t₁, t₂, rfl, hy₁, hy₂⟩ | ⟨-, ho⟩
  · split_ifs at hy₂ with hr
    · have hr := isRunning_iff.mp hr
      obtain ⟨hsA₁, hsB₁⟩ := first hy₁ (.inl hr)
      obtain ⟨ht₁, -, -, -, q', hB', -, -⟩ := hA.second hd hv ht hstage hy₁ hr
      have hl := hB.lands place q' s₁ t₂ s' hr ht₁ hB' hy₂
      exact ⟨hSA.agree (fun n hn => hl.frame n (hd hn)) hsA₁,
        hpB place q' s₁ t₂ s' hr ht₁ hB' hsB₁ hy₂ hgo⟩
    · obtain ⟨-, rfl⟩ := Yields.of_ended hy₂
      exact first hy₁ hgo
  · exact absurd rfl (ho s')

/-! ## Actions -/

/-- A step whose record was replaced closes if the new record is not finished before the step is done. -/
theorem closed_insert {step : Step} {m : StepMap} {r : StepRecord}
    (h : r.status.isFinished = true → Completed step r) : Closed step (m.insert step.name r) := by
  intro r' hr hf
  rw [StepMap.get?_insert_self] at hr
  cases hr
  exact h hf

theorem preserves_action (l : Label) (a : Flow.Action) :
    Preserves (.action (.action l a)) (Closed (.action l a))
      fun place s => runAction setup place l.name a s := by
  intro place q s t s' hv ht hstage hs hy hgo
  have failed {input : Json} {failure : Block.Failure} {duration : Nat}
      (hgo : GoesOn (failedState s l.name a.errorHandling input failure duration).verdict) :
      Closed (.action l a) (failedState s l.name a.errorHandling input failure duration).steps := by
    unfold failedState at hgo ⊢
    dsimp only at hgo ⊢
    split_ifs at hgo ⊢ with hcontinues
    · exact closed_insert fun _ => .inr ⟨rfl, hcontinues⟩
    · exact absurd hgo not_goesOn_failed
  by_cases hdone : Region.ActionDone l.name s.steps
  · dsimp only at hy
    rw [runAction_done hdone] at hy
    obtain ⟨-, rfl⟩ := Yields.of_ended hy
    exact hs
  have hopen := unfinished_of_waits (waits_of_stage hstage hdone)
  rcases runAction_yields hopen hy with ⟨-, ho⟩ | ⟨-, now, e, duration, -, ho⟩ |
    ⟨input, started, -, hends⟩
  · exact absurd rfl (ho s')
  · cases ho
    exact failed hgo
  · obtain ⟨e, -, hend⟩ := hends s' rfl
    generalize e.reply = reply at hend
    cases hend with
    | failed failure duration => exact failed hgo
    | ended output duration hook =>
      rcases hook with _ | pause | response
      · exact closed_insert fun _ => .inl rfl
      · exact closed_insert fun h => by cases h
      · exact absurd hgo not_goesOn_succeeded

/-! ## Branches -/

theorem preserves_branch (l : Label) (c : ConditionSet) (onSuccess onFailure : List Step)
    (hA : Follows setup A wA) (hB : Follows setup B wB)
    (hnd : (l.name :: (A.names ++ B.names)).Nodup) (hSA : Local A.names SA) (hSB : Local B.names SB)
    (hpA : Preserves A SA wA) (hpB : Preserves B SB wB) :
    Preserves (.branch (.branch l c onSuccess onFailure) A B)
      (fun m => Closed (.branch l c onSuccess onFailure) m ∧ SA m ∧ SB m) fun place s =>
        runBranch place l.name c (fun holds => if holds then wA place else wB place) s := by
  rintro place q s t s' hv ht hstage ⟨-, hsA, hsB⟩ hy hgo
  obtain ⟨hname, hsides⟩ := List.nodup_cons.mp hnd
  have hd := List.disjoint_of_nodup_append hsides
  have other {names : List String} (hn : names ⊆ A.names ++ B.names) {m m' : StepMap}
      (hframe : ∀ n, n ≠ l.name → m'.get? n = m.get? n) : Agree names m m' := fun n hmem =>
    hframe n (by rintro rfl; exact hname (hn hmem))
  rcases runBranch_yields hv ht hstage hname hy with ⟨-, ho⟩ | ⟨-, -, -, input, message, ho⟩ |
    ⟨holds, s₁, hy, hv₁, ht₁, hdecided, hside, -, -, hframe⟩
  · exact absurd rfl (ho s')
  · cases ho
    exact absurd hgo not_goesOn_failed
  have hsA₁ := hSA.agree (other (List.subset_append_left _ _) hframe) hsA
  have hsB₁ := hSB.agree (other (List.subset_append_right _ _) hframe) hsB
  have hl := (hA.side hB holds).lands place q s₁ t s' hv₁ ht₁ hside hy
  refine ⟨fun r hr _ => ?_, ?_⟩
  · obtain ⟨summary, hr', hs⟩ := hdecided.agree <|
      hl.frame l.name fun hn => hname (Region.side_names_subset A B holds hn)
    rw [show s'.steps.get? l.name = some r from hr] at hr'
    cases hr'
    exact hs
  · cases holds
    · exact ⟨hSA.agree (fun n hn => hl.frame n (hd hn)) hsA₁,
        hpB place q s₁ t s' hv₁ ht₁ hside hsB₁ hy hgo⟩
    · exact ⟨hpA place q s₁ t s' hv₁ ht₁ hside hsA₁ hy hgo,
        hSB.agree (fun n hn => hl.frame n fun hn' => hd hn' hn) hsB₁⟩

/-! ## Loops -/

/-- The maps that a loop is entered with have the property that its iterations have. -/
theorem LoopEntry.recorded_closed {name : String} {q q' : Option Position} {m : StepMap}
    {items : List Json} {recorded : List StepMap} {index : Nat} {S : StepMap → Prop}
    (he : LoopEntry B name q m items recorded q' index) (hS : Local B.names S)
    (h : ClosedIterations name B S m) {k : StepMap} (hk : k ∈ recorded) : S k := by
  rcases he.prior with ⟨-, hempty⟩ | ⟨summary, item, i, hr, -⟩
  · rw [hempty k hk]
    exact hS.fresh fun _ _ => rfl
  · exact (h _ _ k hr rfl hk).1

theorem preserves_loop (l : Label) (settings : LoopSettings) (body : List Step)
    (hB : Follows setup B wB) (hSB : Local B.names SB) (hpB : Preserves B SB wB) :
    Preserves (.loop (.loop l settings body) B)
      (fun m => Closed (.loop l settings body) m ∧ ClosedIterations l.name B SB m) fun place s =>
        runLoop setup place l.name settings wB s := by
  intro place q s t s' hv ht hstage ⟨hclosed, hinner⟩ hy hgo
  rcases runLoop_yields ht hstage hy with ⟨-, -, -, hs'⟩ | ⟨-, ho⟩ | ⟨-, -, -, input, message, ho⟩ |
    ⟨items, its, recorded, q', index, started, hfit, he, hy⟩
  · obtain rfl := hs' s' rfl
    exact ⟨hclosed, hinner⟩
  · exact absurd rfl (ho s')
  · cases ho
    exact absurd hgo not_goesOn_failed
  obtain ⟨traces, kids, maps, decisive, duration, hit, rfl⟩ := (walkItems_yields hfit hy).2 s' rfl
  obtain ⟨summary, item, j, hsteps, hinput, hnone, hsome, hpaused⟩ :=
    closeLoop_eq (looping l.name items place s wB) items duration maps decisive
  have hsteps : (closeLoop (looping l.name items place s wB) items duration maps decisive).steps =
      s.steps.insert l.name (.loop summary item j maps) := hsteps
  have hdecides : ∀ i v, decisive = some (i, v) → GoesOn v := fun i v hd => by
    rw [(hsome i v hd).1] at hgo
    exact hgo
  have hlen := he.maps_length hit
  -- a loop that is finished has no iteration that decides
  have hfinished (hf : summary.status.isFinished = true) : decisive = none := by
    rcases decisive with _ | ⟨i, v⟩
    · rfl
    · rcases hdecides i v rfl with hv | ⟨pause, hv⟩
      · exact absurd hv hit.decides.1
      · rw [hpaused i pause (hv ▸ rfl)] at hf
        cases hf
  have hf := he.fanOut hB hit
  rw [hsteps]
  refine ⟨closed_insert fun hfin => ⟨hnone (hfinished hfin), items, hinput, hlen.trans he.length⟩,
    fun r its' k hr hits hk => ?_⟩
  rw [StepMap.get?_insert_self] at hr
  cases hr
  cases hits
  obtain ⟨i, hi⟩ := List.getElem?_of_mem hk
  obtain ⟨m, hm, -, hsettled, -, -, hkeyed⟩ := he.of_map hB hit hi
  obtain ⟨itemAt, hz⟩ := he.item hm
  obtain ⟨hpart, -, hmem⟩ := he.part hz
  -- the records of the iteration that the walk began with were sound
  have hbefore : SB m := he.recorded_closed hSB hinner hmem
  refine ⟨hSB.settled hsettled (hf.kid hpart) hbefore fun kid hkid => ?_,
    hkeyed, fun hfin => hf.completes (hfinished hfin ▸ hit.decides) hpart hsettled⟩
  refine ⟨(hf.lands i B _ kid hpart hkid).tidy, ?_⟩
  exact hpB _ _ (s.nested m) _ kid rfl (he.tidy _ hmem) (he.spread.stage i B _ hpart)
    hbefore (hit.ran i _ _ kid hz hkid) (hit.decides.goesOn hdecides hkid)

end FlowEngine.Engine
