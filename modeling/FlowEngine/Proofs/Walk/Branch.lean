import FlowEngine.Proofs.Walk.Follows

/-!
# Walking a branch

* `decideBranch_yields` — the condition is evaluated, and one side is walked with the record of it.
* `Follows.branch` — the walk of a branch, given those of its sides.
-/

namespace FlowEngine.Engine

open FlowEngine.Run FlowEngine.Flow

variable {setup : Setup} {A B : Region} {wA wB : Body} {s s' : RunState} {t : Trace}

/-- The ways in which a branch that has no decision goes: there is no state at the end, its
condition fails, or one side is walked. -/
theorem decideBranch_yields {place : Place} {name : String} {c : ConditionSet}
    {walkSide : Bool → RunState → Walk} {o : Outcome Result}
    (h : Job.Yields (decideBranch place name c walkSide s) t o) :
    (t = [] ∧ ∀ s', o ≠ .result (.ok s')) ∨
      (t = [] ∧ ∃ input message, o = .result (.ok
        ((s.upsert name (failedRecord input message)).withVerdict (.failed name message)))) ∨
      ∃ holds summary, summary.status = .succeeded ∧
        Job.Yields (walkSide holds (s.upsert name (.branch summary holds))) t o := by
  rcases Job.Yields.of_clock h with ⟨rfl, rfl⟩ | ⟨started, h⟩
  · exact .inl ⟨rfl, by simp⟩
  rcases Yields.of_onTemplate h with h | ⟨shown, -, h⟩
  · exact .inl h
  rcases Yields.of_onTemplate h with h | ⟨r, -, h⟩
  · exact .inl h
  rcases r with e | holds
  · obtain ⟨rfl, rfl | rfl⟩ := Job.Yields.done_iff.mp h
    · exact .inl ⟨rfl, by simp⟩
    · exact .inr (.inl ⟨rfl, _, _, rfl⟩)
  · rcases Job.Yields.of_clock h with ⟨rfl, rfl⟩ | ⟨stopped, h⟩
    · exact .inl ⟨rfl, by simp⟩
    · exact .inr (.inr ⟨holds, _, rfl, h⟩)

/-- The end of a branch, when that of the side that was walked is known. -/
theorem Lands.of_side {step : Step} {holds : Bool} {around : List (String × Nat)}
    {q : Option Position} {m m' : StepMap} (hnd : (step.name :: (A.names ++ B.names)).Nodup)
    (h : Lands (Region.side A B holds) around q m' t s) (hd : Region.Decided step.name holds m')
    (hf : Fresh (Region.side A B !holds).names m') (hk : Keeps m m')
    (frame : ∀ n, n ≠ step.name → m'.get? n = m.get? n) :
    Lands (Region.branch step A B) around q m t s := by
  obtain ⟨hname, hsides⟩ := List.nodup_cons.mp hnd
  have hdecided : Region.Decided step.name holds s.steps := hd.agree <| h.frame _ fun hn =>
    hname (Region.side_names_subset A B holds hn)
  have hfresh : Fresh (Region.side A B !holds).names s.steps := by
    refine hf.agree fun n hn => h.frame n fun hn' => ?_
    have hdisjoint := List.disjoint_of_nodup_append hsides
    cases holds
    · exact hdisjoint hn hn'
    · exact hdisjoint hn' hn
  have hsub : (Region.side A B holds).steps ⊆ (Region.branch step A B).steps := by
    cases holds
    · exact fun x hx => List.mem_cons_of_mem _ (List.mem_append_right _ hx)
    · exact fun x hx => List.mem_cons_of_mem _ (List.mem_append_left _ hx)
  refine h.of_part (t := []) hsub hk (fun n hn => frame n ?_)
    (fun hc => ⟨holds, hdecided, hc, hfresh⟩)
    (fun p hp => .inr ⟨holds, hdecided, hp, hfresh⟩) fun p hp => .inr (.inr hp)
  rintro rfl
  exact hn List.mem_cons_self

/-- The walk of the side of a branch. -/
theorem Follows.side (hA : Follows setup A wA) (hB : Follows setup B wB) (holds : Bool) :
    Follows setup (Region.side A B holds) fun place => if holds then wA place else wB place := by
  cases holds
  · exact hB
  · exact hA

/-- A walk that enters a branch makes no calls and has no state at the end, or it fails, or it goes
on with one side, whose decision is recorded. -/
theorem runBranch_yields {label : Label} {c : ConditionSet} {onSuccess onFailure : List Step}
    {place : Place} {q : Option Position} {o : Outcome Result} (hv : s.verdict = .running)
    (ht : s.steps.Tidy)
    (hstage : (Region.branch (.branch label c onSuccess onFailure) A B).stage q s.steps)
    (hname : label.name ∉ A.names ++ B.names)
    (h : Job.Yields (runBranch place label.name c
      (fun holds => if holds then wA place else wB place) s) t o) :
    (t = [] ∧ ∀ s', o ≠ .result (.ok s')) ∨
      (t = [] ∧ q = none ∧ s.steps.get? label.name = none ∧ ∃ input message, o = .result (.ok
        ((s.upsert label.name (failedRecord input message)).withVerdict
          (.failed label.name message)))) ∨
      ∃ holds s₁, Job.Yields ((if holds then wA place else wB place) s₁) t o ∧
        s₁.verdict = .running ∧ s₁.steps.Tidy ∧ Region.Decided label.name holds s₁.steps ∧
        (Region.side A B holds).stage q s₁.steps ∧ Fresh (Region.side A B !holds).names s₁.steps ∧
        Keeps s.steps s₁.steps ∧ ∀ n, n ≠ label.name → s₁.steps.get? n = s.steps.get? n := by
  rcases hstage with ⟨rfl, hfresh⟩ | ⟨holds, hd, hside, hfresh⟩
  · have hnone : s.steps.get? label.name = none := hfresh _ List.mem_cons_self
    unfold runBranch at h
    rw [hnone] at h
    rcases decideBranch_yields h with h | ⟨rfl, hfail⟩ | ⟨holds, summary, hs, h⟩
    · exact .inl h
    · exact .inr (.inl ⟨rfl, rfl, hnone, hfail⟩)
    · have hother (n : String) (hn : n ≠ label.name) :
          (s.upsert label.name (.branch summary holds)).steps.get? n = s.steps.get? n :=
        StepMap.get?_insert_of_ne _ _ (Ne.symm hn)
      have hsides (b : Bool) : Fresh (Region.side A B b).names
          (s.upsert label.name (.branch summary holds)).steps := fun n hn => by
        have hn := Region.side_names_subset A B b hn
        rw [hother n (by rintro rfl; exact hname hn)]
        exact hfresh n (List.mem_cons_of_mem _ hn)
      refine .inr (.inr ⟨holds, _, h, hv, ht.insert _ (by rintro its k ⟨⟩),
        ⟨summary, StepMap.get?_insert_self _ _ _, hs⟩,
        (Region.side A B holds).stage_fresh (hsides holds), hsides !holds, ?_, hother⟩)
      exact .insert _ _ fun r hr => by rw [hnone] at hr; cases hr
  · obtain ⟨summary, hr, hs⟩ := id hd
    have hr : s.steps.get? label.name = some (.branch summary holds) := hr
    unfold runBranch at h
    simp only [hr, StepRecord.status, StepRecord.summary, hs, StepRecord.holds?] at h
    exact .inr (.inr ⟨holds, s, h, hv, ht, hd, hside, hfresh, .refl _, fun _ _ => rfl⟩)

/-- A branch is walked as a region when its sides are. -/
theorem Follows.branch (label : Label) (c : ConditionSet) (onSuccess onFailure : List Step)
    (hA : Follows setup A wA) (hB : Follows setup B wB)
    (hnd : (label.name :: (A.names ++ B.names)).Nodup) :
    Follows setup (Region.branch (.branch label c onSuccess onFailure) A B) fun place s =>
      runBranch place label.name c (fun holds => if holds then wA place else wB place) s where
  rests place s hv hc := by
    obtain ⟨holds, ⟨summary, hr, hs⟩, hc, -⟩ := hc
    have hr : s.steps.get? label.name = some (.branch summary holds) := hr
    unfold runBranch
    simp only [hr, StepRecord.status, StepRecord.summary, hs, StepRecord.holds?]
    exact (hA.side hB holds).rests place s hv hc
  calls place q s t o hv ht hstage h e he := by
    rcases runBranch_yields hv ht hstage (List.nodup_cons.mp hnd).1 h with
      ⟨rfl, -⟩ | ⟨rfl, -⟩ | ⟨holds, s₁, h, hv₁, ht₁, -, hside, -, hkeeps, -⟩
    · cases he
    · cases he
    · obtain ⟨p, hp⟩ := (hA.side hB holds).calls place q s₁ t o hv₁ ht₁ hside h e he
      refine ⟨p, (hp.earlier hkeeps Iff.rfl).widen ?_⟩
      cases holds
      · exact fun x hx => List.mem_cons_of_mem _ (List.mem_append_right _ hx)
      · exact fun x hx => List.mem_cons_of_mem _ (List.mem_append_left _ hx)
  lands place q s t s' hv ht hstage h := by
    rcases runBranch_yields hv ht hstage (List.nodup_cons.mp hnd).1 h with
      ⟨-, ho⟩ | ⟨rfl, rfl, hnone, input, message, ho⟩ |
      ⟨holds, s₁, h, hv₁, ht₁, hd, hside, hfresh, hkeeps, hframe⟩
    · exact absurd rfl (ho s')
    · obtain rfl : s' = _ := by simpa using ho
      exact .failed List.mem_cons_self hnone ht input message
    · exact ((hA.side hB holds).lands place q s₁ t s' hv₁ ht₁ hside h).of_side hnd hd hfresh hkeeps
        hframe

end FlowEngine.Engine
