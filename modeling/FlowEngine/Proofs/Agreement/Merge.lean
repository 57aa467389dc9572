import FlowEngine.Proofs.Agreement.Agrees
import FlowEngine.Proofs.Walk.Merge

/-!
# Merging apart from durations

When branches are put together, their records are compared with those of the split they began with,
durations included. What comes of it depends on durations only if a branch rewrote a record alike that
another branch changed too.

* `Rewrites`, `Leaves` — records that a branch rewrote alike, and those that it did not touch.
* `mergeSteps_timeless`, `mergeBranches_timeless` — merging can be done without durations.
-/

namespace FlowEngine.Engine

open FlowEngine.Run

/-- A branch put a record in the place of one that is alike. -/
def Rewrites (base : StepMap) (x : Path × Option Result) (n : String) : Prop :=
  ∃ s r, x.2 = some (.ok s) ∧ s.steps.get? n = some r ∧ base.timeless.get? n = some r.timeless ∧
    base.get? n ≠ some r

/-- A branch neither has a step of some name nor changed its record. -/
def Leaves (base : StepMap) (x : Path × Option Result) (n : String) : Prop :=
  n ∉ x.1.stepNames ∧ ∀ s, x.2 = some (.ok s) → s.steps.get? n = base.get? n

section

variable {base merged m : StepMap}

/-- Records are merged as they are without durations, if those that were rewritten alike are merged
where an alike record stands. -/
theorem mergeSteps_timeless (hm : m.names.Nodup)
    (h : ∀ n r, m.get? n = some r → base.timeless.get? n = some r.timeless → base.get? n ≠ some r →
      merged.timeless.get? n = some r.timeless) :
    (mergeSteps base merged m).timeless =
      mergeSteps base.timeless merged.timeless m.timeless := by
  unfold mergeSteps
  rw [List.foldl_filter, List.foldl_filter]
  have h' : ∀ x ∈ m, base.timeless.get? x.1 = some x.2.timeless → base.get? x.1 ≠ some x.2 →
      merged.timeless.get? x.1 = some x.2.timeless :=
    fun x hx => h x.1 x.2 (StepMap.get?_of_mem hm hx)
  clear h
  induction m generalizing merged with
  | nil => rfl
  | cons x m ih =>
    obtain ⟨n, r⟩ := x
    obtain ⟨hn, hm⟩ := List.nodup_cons.mp hm
    obtain ⟨hfirst, hrest⟩ := List.forall_mem_cons.mp h'
    rw [StepMap.timeless_cons, List.foldl_cons, List.foldl_cons]
    dsimp only at hfirst ⊢
    -- the records after the first one are merged as before
    have later (y : String × StepRecord) (hy : y ∈ m) :
        (merged.insert n r).timeless.get? y.1 = merged.timeless.get? y.1 := by
      rw [StepMap.timeless_insert, StepMap.get?_insert_of_ne]
      rintro rfl
      exact hn (List.mem_map.mpr ⟨y, hy, rfl⟩)
    by_cases hsame : base.get? n = some r
    · have halike : base.timeless.get? n = some r.timeless := by
        rw [StepMap.get?_timeless, hsame]
        rfl
      simp only [hsame, halike, ne_eq, not_true_eq_false, decide_false, Bool.false_eq_true, if_false]
      exact ih hm hrest
    · by_cases halike : base.timeless.get? n = some r.timeless
      · have hstands := hfirst halike hsame
        have hinsert := StepMap.insert_of_alike hstands
        simp only [hsame, halike, ne_eq, not_true_eq_false, not_false_eq_true, decide_true,
          decide_false, Bool.false_eq_true, if_true, if_false]
        rw [ih hm fun y hy hby hbn => by rw [later y hy]; exact hrest y hy hby hbn, hinsert]
      · simp only [hsame, halike, ne_eq, not_false_eq_true, decide_true, if_true]
        rw [ih hm fun y hy hby hbn => by rw [later y hy]; exact hrest y hy hby hbn,
          StepMap.timeless_insert]

end

section

variable {base : StepMap} {halts : Halts} {merged s : RunState} {path : Path}

theorem mergeOne_timeless (names : List String) (h : (mergeSteps base merged.steps s.steps).timeless =
    mergeSteps base.timeless merged.steps.timeless s.steps.timeless) :
    (mergeOne base halts merged names s).timeless =
      mergeOne base.timeless halts merged.timeless names s.timeless := by
  have hstate : ({ merged with steps := mergeSteps base merged.steps s.steps } :
      RunState).timeless = { merged.timeless with
        steps := mergeSteps base.timeless merged.steps.timeless s.steps.timeless } :=
    congrArg (fun m => ({ merged with steps := m } : RunState)) h
  change (if halts.repeatsPause s.verdict then _ else _ : RunState).timeless =
    if halts.repeatsPause s.verdict then _ else _
  split_ifs
  · rw [RunState.timeless_withoutPauses, hstate]
    rfl
  · exact hstate

theorem mergeOne_left (hm : merged.steps.names.Nodup) (hs : s.steps.names.Nodup) {n : String}
    (h : Leaves base (path, some (.ok s)) n) :
    (mergeOne base halts merged path.stepNames s).steps.get? n = merged.steps.get? n :=
  mergeOne_unchanged hm hs h.1 (h.2 s rfl)

end

/-- What is put together depends on the names of the steps of branches only. -/
theorem mergeBranches_congr {base : StepMap} {results results' : List (Path × Option Result)}
    (h : results.map (fun x => (x.1.stepNames, x.2)) = results'.map fun x => (x.1.stepNames, x.2))
    (index : Nat) (halts : Halts) (merged : RunState) :
    mergeBranches base index halts merged results = mergeBranches base index halts merged results' := by
  induction results generalizing results' index halts merged with
  | nil =>
    rw [List.map_eq_nil_iff.mp h.symm]
  | cons x results ih =>
    cases results' with
    | nil => cases h
    | cons x' results' =>
      obtain ⟨p, o⟩ := x
      obtain ⟨p', o'⟩ := x'
      obtain ⟨hx, hrest⟩ := List.cons_eq_cons.mp h
      obtain ⟨hp, rfl⟩ : p.stepNames = p'.stepNames ∧ o = o' := Prod.mk.inj hx
      rcases o with _ | e | s
      · rw [mergeBranches, mergeBranches, ih hrest]
      · rw [mergeBranches, mergeBranches]
      · rw [mergeBranches_cons, mergeBranches_cons, ih hrest, hp]

/-- Branches are put together as they are without durations, if no branch rewrote a record alike that
another one changed. -/
theorem mergeBranches_timeless {base : StepMap} {results : List (Path × Option Result)}
    (hnodup : ∀ x ∈ results, ∀ s, x.2 = some (.ok s) → s.steps.names.Nodup)
    (hpair : results.Pairwise fun x y => ∀ n, Rewrites base y n → Leaves base x n) (index : Nat)
    (halts : Halts) {merged : RunState} (hm : merged.steps.names.Nodup)
    (hself : ∀ x ∈ results, ∀ n, Rewrites base x n →
      merged.steps.timeless.get? n = base.timeless.get? n) :
    (mergeBranches base index halts merged results).map (fun x => (x.1.timeless, x.2)) =
      mergeBranches base.timeless index halts merged.timeless
        (results.map fun x => (x.1, x.2.map Result.timeless)) := by
  induction results generalizing index halts merged with
  | nil => rfl
  | cons x results ih =>
    obtain ⟨p, o⟩ := x
    obtain ⟨hfirst, hpairs⟩ := List.pairwise_cons.mp hpair
    obtain ⟨hown, hselves⟩ := List.forall_mem_cons.mp hself
    obtain ⟨hnd, hnodups⟩ := List.forall_mem_cons.mp hnodup
    rw [List.map_cons]
    rcases o with _ | e | s
    · rw [mergeBranches]
      exact ih hnodups hpairs _ _ hm hselves
    · rw [mergeBranches]
      rfl
    have hs : s.steps.names.Nodup := hnd s rfl
    have hsteps := mergeSteps_timeless hs fun n r hr halike hne => by
      rw [hown n ⟨s, r, rfl, hr, halike, hne⟩, halike]
    have hlater (y : Path × Option Result) (hy : y ∈ results) (n : String)
        (hn : Rewrites base y n) :
        (mergeOne base halts merged p.stepNames s).steps.timeless.get? n = base.timeless.get? n := by
      rw [StepMap.get?_timeless, mergeOne_left hm hs (hfirst y hy n hn), ← StepMap.get?_timeless]
      exact hselves y hy n hn
    rw [mergeBranches_cons, ih hnodups hpairs _ _ (mergeOne_nodup hm) hlater,
      mergeOne_timeless p.stepNames hsteps]
    exact (mergeBranches_cons base.timeless index halts merged.timeless p s.timeless
      (results.map fun x => (x.1, x.2.map Result.timeless))).symm

end FlowEngine.Engine
