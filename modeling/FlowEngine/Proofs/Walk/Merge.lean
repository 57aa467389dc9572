import FlowEngine.Proofs.Records.Position
import FlowEngine.Proofs.Walk.Verdicts

/-!
# Putting branches together

Branches of a split have steps of different names. So what a branch changed is what is put together
under these names, whatever the others did; of the pauses only the first one is left.

* `Returned` — the records at the end of a branch, compared to those at its beginning.
* `mergeBranches_ok` — the records after all branches, name by name.
* `mergeBranches_names` — their order.
-/

namespace FlowEngine.Engine

open FlowEngine.Run

/-- A branch changed records of some names only, and removed none. -/
structure Returned (base : StepMap) (names : List String) (m : StepMap) : Prop where
  nodup : m.names.Nodup
  frame : ∀ n, n ∉ names → m.get? n = base.get? n
  present : ∀ n r, base.get? n = some r → ∃ r', m.get? n = some r'

/-- The records under the names of a branch are its own. -/
theorem Returned.get?_mergeSteps {base merged m : StepMap} {names : List String}
    (h : Returned base names m) {n : String} (hn : merged.get? n = base.get? n) :
    (mergeSteps base merged m).get? n = m.get? n := by
  rw [Engine.get?_mergeSteps base merged h.nodup]
  split_ifs with heq
  · rw [hn, heq]
  · cases hm : m.get? n with
    | some r => rfl
    | none =>
      cases hb : base.get? n with
      | none => rw [hm, hb] at heq; exact absurd rfl heq
      | some r =>
        obtain ⟨r', hr'⟩ := h.present n r hb
        rw [hm] at hr'
        cases hr'

/-- A branch puts the records of new names after what was put together before, in their order. -/
theorem Returned.names_mergeSteps {base merged m : StepMap} {names : List String}
    (h : Returned base names m) (hn : ∀ n ∈ names, merged.get? n = base.get? n) :
    (mergeSteps base merged m).names = merged.names ++ m.names.filter fun n => n ∉ base.names := by
  change (merged.insertAll (m.filter fun r => base.get? r.1 ≠ some r.2)).names = _
  rw [StepMap.names_insertAll _ (StepMap.nodup_filter h.nodup _)]
  refine congrArg (merged.names ++ ·) ?_
  change ((m.filter _).map Prod.fst).filter _ = (m.map Prod.fst).filter _
  rw [List.filter_map, List.filter_map, List.filter_filter]
  refine congrArg (List.map Prod.fst) (List.filter_congr fun x hx => ?_)
  have hx : m.get? x.1 = some x.2 := StepMap.get?_of_mem h.nodup hx
  simp only [Function.comp_apply, Bool.and_eq_decide, decide_eq_decide, decide_eq_true_eq,
    ← StepMap.get?_eq_none_iff]
  -- what the branch changed it has under its own names, and there nothing was put together yet
  refine ⟨fun ⟨hnone, hne⟩ => ?_, fun hnone => ?_⟩
  · have hmem : x.1 ∈ names := by
      by_contra hmem
      exact hne ((h.frame x.1 hmem).symm.trans hx)
    exact (hn x.1 hmem).symm.trans hnone
  · have hmem : x.1 ∈ names := by
      by_contra hmem
      rw [h.frame x.1 hmem, hnone] at hx
      cases hx
    exact ⟨(hn x.1 hmem).trans hnone, by simp [hnone]⟩

/-- The state after one more branch. -/
def mergeOne (base : StepMap) (halts : Halts) (merged : RunState) (names : List String)
    (s : RunState) : RunState :=
  let merged := { merged with steps := mergeSteps base merged.steps s.steps }
  if halts.repeatsPause s.verdict then merged.withoutPauses names else merged

section

variable {base : StepMap} {halts : Halts} {merged s : RunState} {names : List String}

theorem mergeOne_nodup (h : merged.steps.names.Nodup) :
    (mergeOne base halts merged names s).steps.names.Nodup := by
  unfold mergeOne
  dsimp only
  split_ifs
  · exact StepMap.nodup_foldl_withdrawPause (nodup_mergeSteps h) names
  · exact nodup_mergeSteps h

theorem mergeOne_verdict : (mergeOne base halts merged names s).verdict = merged.verdict := by
  unfold mergeOne
  dsimp only
  split_ifs <;> rfl

/-- A branch that did not pause leaves nothing to withdraw. -/
theorem mergeOne_of_unpaused (hv : s.verdict.status ≠ .paused) :
    (mergeOne base halts merged names s).steps = mergeSteps base merged.steps s.steps := by
  unfold mergeOne
  dsimp only
  rw [if_neg (by simp [Halts.repeatsPause, hv])]

theorem mergeOne_of_running (hv : s.verdict = .running) :
    (mergeOne base halts merged names s).steps = mergeSteps base merged.steps s.steps :=
  mergeOne_of_unpaused (by simp [hv, Verdict.status])

/-- Records that are not those of a branch, and that it did not change, stay. -/
theorem mergeOne_unchanged (hm : merged.steps.names.Nodup) (hs : s.steps.names.Nodup) {n : String}
    (hn : n ∉ names) (hb : s.steps.get? n = base.get? n) :
    (mergeOne base halts merged names s).steps.get? n = merged.steps.get? n := by
  have hmerge : (mergeSteps base merged.steps s.steps).get? n = merged.steps.get? n := by
    rw [get?_mergeSteps _ _ hs, if_pos hb]
  unfold mergeOne
  dsimp only
  split_ifs
  · change (names.foldl StepMap.withdrawPause _).get? n = _
    rw [StepMap.get?_foldl_withdrawPause (nodup_mergeSteps hm), if_neg hn]
    exact hmerge
  · exact hmerge

theorem mergeOne_other (hm : merged.steps.names.Nodup) (h : Returned base names s.steps)
    {n : String} (hn : n ∉ names) :
    (mergeOne base halts merged names s).steps.get? n = merged.steps.get? n :=
  mergeOne_unchanged hm h.nodup hn (h.frame n hn)

theorem mergeOne_own (hm : merged.steps.names.Nodup) (h : Returned base names s.steps) {n : String}
    (hn : n ∈ names) (hb : merged.steps.get? n = base.get? n) :
    (mergeOne base halts merged names s).steps.get? n =
      if halts.repeatsPause s.verdict then (s.steps.get? n).bind StepRecord.withoutPause
      else s.steps.get? n := by
  unfold mergeOne
  dsimp only
  split_ifs
  · change (names.foldl StepMap.withdrawPause _).get? n = _
    rw [StepMap.get?_foldl_withdrawPause (nodup_mergeSteps hm), if_pos hn, h.get?_mergeSteps hb]
  · exact h.get?_mergeSteps hb

end

theorem mergeBranches_cons (base : StepMap) (index : Nat) (halts : Halts) (merged : RunState)
    (path : Path) (s : RunState) (rest : List (Path × Option Result)) :
    mergeBranches base index halts merged ((path, some (.ok s)) :: rest) =
      mergeBranches base (index + 1) (halts.note index s.verdict)
        (mergeOne base halts merged path.stepNames s) rest := by
  rw [mergeBranches]
  rfl

/-- An error after branches were put together is one of a branch. -/
theorem mergeBranches_error_mem {base : StepMap} {index : Nat} {halts : Halts} {merged : RunState}
    {paths : List Path} {results : List (Option Result)} {e : Fault}
    (h : mergeBranches base index halts merged (paths.zip results) = .error e) :
    some (.error e) ∈ results := by
  induction paths generalizing index halts merged results with
  | nil => cases h
  | cons path paths ih =>
    rcases results with _ | ⟨_ | _ | s, results⟩
    · cases h
    · rw [List.zip_cons_cons, mergeBranches] at h
      exact List.mem_cons_of_mem _ (ih h)
    · rw [List.zip_cons_cons, mergeBranches] at h
      cases h
      exact List.mem_cons_self
    · rw [List.zip_cons_cons, mergeBranches_cons] at h
      exact List.mem_cons_of_mem _ (ih h)

/-- If there is a state after all branches, each of them ended with one. -/
theorem mergeBranches_results {base : StepMap} {index : Nat} {halts : Halts} {merged : RunState}
    {paths : List Path} {results : List (Option Result)} {x : RunState × Halts}
    (length : results.length = paths.length) (ran : ∀ r ∈ results, r ≠ none)
    (h : mergeBranches base index halts merged (paths.zip results) = .ok x) :
    ∃ kids : List RunState, results = kids.map fun s => some (.ok s) := by
  induction paths generalizing index halts merged results with
  | nil =>
    obtain rfl := List.length_eq_zero_iff.mp length
    exact ⟨[], rfl⟩
  | cons path paths ih =>
    rcases results with _ | ⟨_ | _ | s, results⟩
    · cases length
    · exact absurd rfl (ran none List.mem_cons_self)
    · rw [List.zip_cons_cons, mergeBranches] at h
      cases h
    · rw [List.zip_cons_cons, mergeBranches_cons] at h
      obtain ⟨kids, rfl⟩ := ih (by simpa using length)
        (fun r hr => ran r (List.mem_cons_of_mem _ hr)) h
      exact ⟨s :: kids, rfl⟩

/-- What is noted after all branches that ended with states. -/
theorem mergeBranches_sees {base : StepMap} {seen : List (Option RunState)} {halts halts' : Halts}
    {merged merged' : RunState} {paths : List Path} {kids : List RunState} (hs : halts.Sees seen)
    (length : kids.length = paths.length)
    (h : mergeBranches base seen.length halts merged
      (paths.zip (kids.map fun s => some (.ok s))) = .ok (merged', halts')) :
    halts'.Sees (seen ++ kids.map some) ∧ merged'.verdict = merged.verdict := by
  induction paths generalizing seen halts merged kids with
  | nil =>
    obtain rfl := List.length_eq_zero_iff.mp length
    cases h
    exact ⟨by simpa using hs, rfl⟩
  | cons path paths ih =>
    cases kids with
    | nil => cases length
    | cons s kids =>
      rw [List.map_cons, List.zip_cons_cons, mergeBranches_cons] at h
      have happ : seen ++ (s :: kids).map some = (seen ++ [some s]) ++ kids.map some := by simp
      obtain ⟨hsees, hverdict⟩ := ih (hs.note s) (by simpa using length) (by simpa using h)
      exact ⟨by rw [happ]; exact hsees, hverdict.trans mergeOne_verdict⟩

/-- The state after all branches that ended with states: of each branch it shows the records, those
of a pause that is not the first one without it. -/
theorem mergeBranches_ok {base : StepMap} {seen : List (Option RunState)} {halts halts' : Halts}
    {merged merged' : RunState} {paths : List Path} {kids : List RunState} (hs : halts.Sees seen)
    (hm : merged.steps.names.Nodup) (length : kids.length = paths.length)
    (returned : ∀ (i : Nat) (path : Path) (s : RunState), paths[i]? = some path →
      kids[i]? = some s → Returned base path.stepNames s.steps)
    (disjoint : (paths.map Path.stepNames).Pairwise List.Disjoint)
    (h : mergeBranches base seen.length halts merged
      (paths.zip (kids.map fun s => some (.ok s))) = .ok (merged', halts')) :
    merged'.steps.names.Nodup ∧
      (∀ n, (∀ path ∈ paths, n ∉ path.stepNames) → merged'.steps.get? n = merged.steps.get? n) ∧
      ∀ (i : Nat) (path : Path) (s : RunState) (n : String), paths[i]? = some path →
        kids[i]? = some s → n ∈ path.stepNames → merged.steps.get? n = base.get? n →
        (Repeats (seen ++ kids.map some) (seen.length + i) →
          merged'.steps.get? n = (s.steps.get? n).bind StepRecord.withoutPause) ∧
        (¬ Repeats (seen ++ kids.map some) (seen.length + i) →
          merged'.steps.get? n = s.steps.get? n) := by
  induction paths generalizing seen halts merged kids with
  | nil =>
    obtain rfl := List.length_eq_zero_iff.mp length
    cases h
    exact ⟨hm, fun _ _ => rfl, by simp⟩
  | cons path paths ih =>
    cases kids with
    | nil => cases length
    | cons s kids =>
      rw [List.map_cons, List.zip_cons_cons, mergeBranches_cons] at h
      obtain ⟨hfirst, hrest⟩ := List.pairwise_cons.mp disjoint
      have hret := returned 0 path s rfl rfl
      have happ : seen ++ (s :: kids).map some = (seen ++ [some s]) ++ kids.map some := by simp
      obtain ⟨hnodup, hother, hown⟩ := ih (hs.note s)
        (mergeOne_nodup hm)
        (by simpa using length) (fun i p k hp hk => returned (i + 1) p k hp hk) hrest
        (by simpa using h)
      refine ⟨hnodup, fun n hn => ?_, ?_⟩
      · rw [hother n fun p hp => hn p (List.mem_cons_of_mem _ hp),
          mergeOne_other hm hret (hn path List.mem_cons_self)]
      · intro i p k n hp hk hmem hb
        cases i with
        | zero =>
          obtain rfl : path = p := by simpa using hp
          obtain rfl : s = k := by simpa using hk
          have hlast := hother n fun p hp hmem' =>
            hfirst p.stepNames (List.mem_map.mpr ⟨p, hp, rfl⟩) hmem hmem'
          rw [mergeOne_own hm hret hmem hb] at hlast
          have hiff := hs.repeats_iff s (kids.map some)
          rw [List.map_cons, Nat.add_zero]
          exact ⟨fun hr => by rw [hlast, if_pos (hiff.mpr hr)],
            fun hr => by rw [hlast, if_neg fun h => hr (hiff.mp h)]⟩
        | succ i =>
          have hp : paths[i]? = some p := by simpa using hp
          have hne : n ∉ path.stepNames := fun hmem' =>
            hfirst p.stepNames (List.mem_map.mpr ⟨p, List.mem_of_getElem? hp, rfl⟩) hmem' hmem
          have := hown i p k n hp (by simpa using hk) hmem
            ((mergeOne_other hm hret hne).trans hb)
          rw [happ, show seen.length + (i + 1) = (seen ++ [some s]).length + i by simp; omega]
          exact this

/-! ## The order of the records -/

/-- A part of a list without repetition is what is left of it. -/
theorem eq_filter_of_sublist {l l' : List String} (h : l.Sublist l') (hnd : l'.Nodup) :
    l = l'.filter (· ∈ l) := by
  induction h with
  | slnil => rfl
  | @cons l l' a h ih =>
    obtain ⟨ha, hnd⟩ := List.nodup_cons.mp hnd
    have hn : a ∉ l := fun hmem => ha (h.subset hmem)
    rw [List.filter_cons_of_neg (by simpa using hn)]
    exact ih hnd
  | @cons_cons l l' a h ih =>
    obtain ⟨ha, hnd⟩ := List.nodup_cons.mp hnd
    have hrest : l'.filter (· ∈ a :: l) = l'.filter (· ∈ l) := by
      refine List.filter_congr fun x hx => ?_
      have hne : x ≠ a := by rintro rfl; exact ha hx
      simp [hne]
    rw [List.filter_cons_of_pos (by simp), hrest]
    exact congrArg (a :: ·) (ih hnd)

theorem mergeOne_sublist (base : StepMap) (halts : Halts) (merged s : RunState)
    (names : List String) : (mergeOne base halts merged names s).steps.names.Sublist
      (mergeSteps base merged.steps s.steps).names := by
  unfold mergeOne
  dsimp only
  split_ifs
  · exact StepMap.names_foldl_withdrawPause_sublist _ _
  · exact .refl _

/-- The names of the records that a walk put after those of a map. -/
def newNames (base : StepMap) (s : RunState) : List String :=
  s.steps.names.filter fun n => n ∉ base.names

section

variable {base : StepMap} {index : Nat} {halts halts' : Halts} {merged merged' : RunState}
  {paths : List Path} {kids : List RunState}

/-- After the records that were put together before stand those of new names, branch by branch, unless
they were withdrawn. -/
theorem mergeBranches_sublist (hm : merged.steps.names.Nodup) (length : kids.length = paths.length)
    (returned : ∀ (i : Nat) (path : Path) (s : RunState), paths[i]? = some path →
      kids[i]? = some s → Returned base path.stepNames s.steps)
    (disjoint : (paths.map Path.stepNames).Pairwise List.Disjoint)
    (open' : ∀ path ∈ paths, ∀ n ∈ path.stepNames, merged.steps.get? n = base.get? n)
    (h : mergeBranches base index halts merged
      (paths.zip (kids.map fun s => some (.ok s))) = .ok (merged', halts')) :
    merged'.steps.names.Sublist (merged.steps.names ++ kids.flatMap (newNames base)) := by
  induction paths generalizing index halts merged kids with
  | nil =>
    obtain rfl := List.length_eq_zero_iff.mp length
    cases h
    exact List.sublist_append_left _ _
  | cons path paths ih =>
    cases kids with
    | nil => cases length
    | cons s kids =>
      rw [List.map_cons, List.zip_cons_cons, mergeBranches_cons] at h
      obtain ⟨hfirst, hrest⟩ := List.pairwise_cons.mp disjoint
      have hret := returned 0 path s rfl rfl
      have hone : (mergeOne base halts merged path.stepNames s).steps.names.Sublist
          (merged.steps.names ++ newNames base s) := by
        rw [newNames, ← hret.names_mergeSteps (open' path List.mem_cons_self)]
        exact mergeOne_sublist _ _ _ _ _
      have hopen : ∀ p ∈ paths, ∀ n ∈ p.stepNames,
          (mergeOne base halts merged path.stepNames s).steps.get? n = base.get? n := by
        intro p hp n hn
        have hne : n ∉ path.stepNames := fun hmem =>
          hfirst p.stepNames (List.mem_map_of_mem hp) hmem hn
        exact (mergeOne_other hm hret hne).trans (open' p (List.mem_cons_of_mem _ hp) n hn)
      rw [List.flatMap_cons, ← List.append_assoc]
      exact (ih (mergeOne_nodup hm) (by simpa using length)
        (fun i p k hp hk => returned (i + 1) p k hp hk) hrest hopen h).trans
          (hone.append (.refl _))

/-- Names of branches that are new stand in different branches. -/
theorem newNames_nodup (hbase : base.names.Nodup) (length : kids.length = paths.length)
    (returned : ∀ (i : Nat) (path : Path) (s : RunState), paths[i]? = some path →
      kids[i]? = some s → Returned base path.stepNames s.steps)
    (disjoint : (paths.map Path.stepNames).Pairwise List.Disjoint) :
    (base.names ++ kids.flatMap (newNames base)).Nodup := by
  have hown {i : Nat} {path : Path} {s : RunState} (hp : paths[i]? = some path)
      (hk : kids[i]? = some s) : newNames base s ⊆ path.stepNames := by
    intro n hn
    obtain ⟨hmem, hnew⟩ := List.mem_filter.mp hn
    obtain ⟨r, hr⟩ := StepMap.mem_names_iff.mp hmem
    by_contra hne
    rw [(returned i path s hp hk).frame n hne] at hr
    exact absurd (StepMap.mem_names_iff.mpr ⟨r, hr⟩) (by simpa using hnew)
  have path? {i : Nat} (hi : i < kids.length) : ∃ path, paths[i]? = some path :=
    ⟨paths.get ⟨i, length ▸ hi⟩, List.getElem?_eq_getElem (length ▸ hi)⟩
  refine List.nodup_append'.mpr ⟨hbase, List.nodup_flatMap.mpr ⟨fun s hs => ?_, ?_⟩, ?_⟩
  · obtain ⟨i, hi⟩ := List.getElem?_of_mem hs
    obtain ⟨path, hp⟩ := path? (List.getElem?_eq_some_iff.mp hi).1
    exact (returned i path s hp hi).nodup.sublist List.filter_sublist
  · refine List.pairwise_iff_getElem.mpr fun i j hi hj hlt n hn hn' => ?_
    obtain ⟨path, hp⟩ := path? hi
    obtain ⟨path', hp'⟩ := path? hj
    have hd := List.pairwise_iff_getElem.mp disjoint i j (by simpa [← length] using hi)
      (by simpa [← length] using hj) hlt
    have hn := hown hp (List.getElem?_eq_getElem hi) hn
    have hn' := hown hp' (List.getElem?_eq_getElem hj) hn'
    rw [List.getElem_map, List.getElem_map] at hd
    obtain ⟨hi', rfl⟩ := List.getElem?_eq_some_iff.mp hp
    obtain ⟨hj', rfl⟩ := List.getElem?_eq_some_iff.mp hp'
    exact hd hn hn'
  · intro n hn hnew
    obtain ⟨s, -, hs⟩ := List.mem_flatMap.mp hnew
    exact absurd hn (by simpa using (List.mem_filter.mp hs).2)

/-- If all records that there were are still there, they come first, and those of new names follow
branch by branch. -/
theorem mergeBranches_names {base merged : RunState} (hbase : base.steps.names.Nodup)
    (length : kids.length = paths.length)
    (returned : ∀ (i : Nat) (path : Path) (s : RunState), paths[i]? = some path →
      kids[i]? = some s → Returned base.steps path.stepNames s.steps)
    (disjoint : (paths.map Path.stepNames).Pairwise List.Disjoint)
    (h : mergeBranches base.steps index halts base
      (paths.zip (kids.map fun s => some (.ok s))) = .ok (merged, halts'))
    (present : ∀ n ∈ base.steps.names, n ∈ merged.steps.names) :
    merged.steps.names = base.steps.names ++
      (kids.flatMap (newNames base.steps)).filter (· ∈ merged.steps.names) := by
  have hsub := mergeBranches_sublist hbase length returned disjoint (fun _ _ _ _ => rfl) h
  have heq := eq_filter_of_sublist hsub (newNames_nodup hbase length returned disjoint)
  rwa [List.filter_append, List.filter_eq_self.mpr fun n hn => by simpa using present n hn] at heq

end

end FlowEngine.Engine
