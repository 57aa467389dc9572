import FlowEngine.Proofs.Walk.FanOut

/-!
# Walking the iterations of a loop

Both ways to walk the iterations of a loop, one after the other and side by side, are described
alike: some iterations ran, the others were skipped after one that did not end normally, and the
loop goes on with the maps after that and with the iteration that decides.

* `Iterated` — iterations that were walked; `Successive` — those that were walked one after the other.
* `inSequence_yields`, `sideBySide_yields` — the two ways.
* `inSequence_fails`, `sideBySide_fails` — iterations end without a state only if one of them does.
-/

namespace FlowEngine.Engine

open FlowEngine.Run FlowEngine.Flow

/-- Iterations that were walked, with the recorded maps, the states at their ends, and the maps and
the iteration that decides afterwards. -/
structure Iterated (visit : Nat → Json → StepMap → Walk) (all : List (Json × StepMap)) (t : Trace)
    (traces : Nat → Trace) (kids : List (Option RunState)) (maps : List StepMap)
    (decisive : Option (Nat × Verdict)) : Prop where
  length : kids.length = all.length
  ran : ∀ (i : Nat) (item : Json) (m : StepMap) (s : RunState), all[i]? = some (item, m) →
    kids[i]? = some (some s) → Job.Yields (visit i item m) (traces i) (.result (.ok s))
  skipped : ∀ i, kids[i]? = some none → ∃ (k : Nat) (s : RunState), k < i ∧
    kids[k]? = some (some s) ∧ s.verdict ≠ .running
  idle : ∀ i, (∀ s, kids[i]? ≠ some (some s)) → traces i = []
  mixed : Interleaves traces t
  mapsLength : maps.length = all.length
  maps : ∀ (i : Nat) (item : Json) (m : StepMap), all[i]? = some (item, m) →
    ∃ m', maps[i]? = some m' ∧ MapAfter kids i m m'
  decides : Decides kids decisive

namespace Iterated

variable {visit : Nat → Json → StepMap → Walk} {all : List (Json × StepMap)} {t : Trace}
  {traces : Nat → Trace} {kids : List (Option RunState)} {maps : List StepMap}
  {decisive : Option (Nat × Verdict)} {i : Nat}

/-- An iteration was skipped or has a state at its end. -/
theorem kid (h : Iterated visit all t traces kids maps decisive) {x : Json × StepMap}
    (hx : all[i]? = some x) : kids[i]? = some none ∨ ∃ s, kids[i]? = some (some s) := by
  obtain ⟨k, hk⟩ := exists_getElem? h.length.symm hx
  rw [hk]
  cases k with
  | none => exact .inl rfl
  | some s => exact .inr ⟨s, rfl⟩

/-- If no iteration decides, none was skipped. -/
theorem ran_of_decides (h : Iterated visit all t traces kids maps none) {x : Json × StepMap}
    (hx : all[i]? = some x) : ∃ s, kids[i]? = some (some s) := by
  refine (h.kid hx).resolve_left fun hs => ?_
  obtain ⟨k, s, -, hs, hv⟩ := h.skipped i hs
  exact hv (h.decides k s hs)

/-- An iteration that has a state at its end was walked from some map. -/
theorem entered (h : Iterated visit all t traces kids maps decisive) {k : RunState}
    (hk : kids[i]? = some (some k)) : ∃ item m, all[i]? = some (item, m) ∧
      Job.Yields (visit i item m) (traces i) (.result (.ok k)) := by
  obtain ⟨⟨item, m⟩, hx⟩ := exists_getElem? h.length hk
  exact ⟨item, m, hx, h.ran i item m k hx hk⟩

/-- The iteration that decides, the map that it was walked from and the map after it. -/
theorem decided {v : Verdict} (h : Iterated visit all t traces kids maps (some (i, v))) :
    ∃ item m k, all[i]? = some (item, m) ∧ kids[i]? = some (some k) ∧ k.verdict = v ∧
      Job.Yields (visit i item m) (traces i) (.result (.ok k)) ∧ maps[i]? = some k.steps := by
  obtain ⟨-, ⟨k, hk, hv⟩, -⟩ := h.decides
  obtain ⟨item, m, hx, hy⟩ := h.entered hk
  obtain ⟨m', hm', hafter⟩ := h.maps i item m hx
  obtain rfl := hafter.kept k hk h.decides.not_repeats_self
  exact ⟨item, m, k, hx, hk, hv, hy, hm'⟩

/-- The map that an iteration was entered with, of which there is one after it. -/
theorem of_map (h : Iterated visit all t traces kids maps decisive) {m' : StepMap}
    (hm' : maps[i]? = some m') : ∃ item m, all[i]? = some (item, m) ∧ MapAfter kids i m m' := by
  obtain ⟨⟨item, m⟩, hx⟩ := exists_getElem? h.mapsLength hm'
  obtain ⟨m'', hm'', hafter⟩ := h.maps i item m hx
  obtain rfl := Option.some.inj (hm'.symm.trans hm'')
  exact ⟨item, m, hx, hafter⟩

end Iterated

/-- The calls of iterations, each on the way of one of them. -/
def CallsOf (visit : Nat → Json → StepMap → Walk) (all : List (Json × StepMap)) (t : Trace) : Prop :=
  ∀ e ∈ t, ∃ i item m t' o, all[i]? = some (item, m) ∧ Job.Yields (visit i item m) t' o ∧ e ∈ t'

/-- Iterations that were walked one after the other: before the one that decides, if there is one, all
ended normally, and after it none was walked. -/
def Successive (kids : List (Option RunState)) (decisive : Option (Nat × Verdict)) : Prop :=
  ∀ i v, decisive = some (i, v) → ∀ (k : Nat) (s : RunState), kids[k]? = some (some s) →
    k = i ∨ k < i ∧ s.verdict = .running

/-! ## Side by side -/

/-- The maps after the iterations from one on: the one after it, and those after the later ones. -/
theorem mapsAfter_cons {seen kids : List (Option RunState)} {kid : Option RunState}
    {m₀ m₀' : StepMap} {recorded maps : List StepMap}
    (own : MapAfter (seen ++ kid :: kids) seen.length m₀ m₀')
    (later : ∀ (i : Nat) (m : StepMap), recorded[i]? = some m →
      ∃ m', maps[i]? = some m' ∧ MapAfter (seen ++ kid :: kids) ((seen ++ [kid]).length + i) m m')
    (i : Nat) (m : StepMap) (hm : (m₀ :: recorded)[i]? = some m) :
    ∃ m', (m₀' :: maps)[i]? = some m' ∧ MapAfter (seen ++ kid :: kids) (seen.length + i) m m' := by
  cases i with
  | zero =>
    obtain rfl : m₀ = m := by simpa using hm
    exact ⟨m₀', rfl, own⟩
  | succ i =>
    obtain ⟨m', hm', ha⟩ := later i m (by simpa using hm)
    have index : (seen ++ [kid]).length + i = seen.length + (i + 1) := by simp; omega
    exact ⟨m', by simpa using hm', index ▸ ha⟩

theorem gatherIterations_ok {seen : List (Option RunState)} {halts halts' : Halts}
    {recorded maps : List StepMap} {results : List (Option Result)} (hs : halts.Sees seen)
    (hlen : results.length = recorded.length)
    (h : gatherIterations seen.length halts recorded results = .ok (maps, halts')) :
    ∃ kids : List (Option RunState), results = kids.map (Option.map .ok) ∧
      halts'.Sees (seen ++ kids) ∧ maps.length = recorded.length ∧
      ∀ (i : Nat) (m : StepMap), recorded[i]? = some m →
        ∃ m', maps[i]? = some m' ∧ MapAfter (seen ++ kids) (seen.length + i) m m' := by
  induction recorded generalizing seen halts results maps with
  | nil =>
    obtain rfl : results = [] := List.length_eq_zero_iff.mp hlen
    rw [gatherIterations] at h
    · cases h
      exact ⟨[], rfl, by simpa using hs, rfl, by simp⟩
    all_goals simp
  | cons m₀ recorded ih =>
    cases results with
    | nil => cases hlen
    | cons r results =>
      have hrest : results.length = recorded.length := by simpa using hlen
      rcases r with _ | _ | s
      · rw [gatherIterations] at h
        rcases hg : gatherIterations (seen.length + 1) halts recorded results with _ | ⟨maps', h'⟩ <;>
          rw [hg] at h <;> cases h
        have hg : gatherIterations (seen ++ [none]).length halts recorded results =
          .ok (maps', halts') := by simpa using hg
        obtain ⟨kids, rfl, hsees, hml, hmaps⟩ := ih hs.skip hrest hg
        rw [List.append_assoc] at hsees hmaps
        exact ⟨none :: kids, rfl, hsees, by simp [hml],
          mapsAfter_cons ⟨fun _ => rfl, by simp, by simp⟩ hmaps⟩
      · rw [gatherIterations] at h
        cases h
      · rw [gatherIterations] at h
        dsimp only at h
        rcases hg : gatherIterations (seen.length + 1) (halts.note seen.length s.verdict) recorded
          results with _ | ⟨maps', h'⟩ <;> rw [hg] at h <;> cases h
        have hg : gatherIterations (seen ++ [some s]).length (halts.note seen.length s.verdict)
          recorded results = .ok (maps', h') := by simpa using hg
        obtain ⟨kids, rfl, hsees, hml, hmaps⟩ := ih (hs.note s) hrest hg
        rw [List.append_assoc] at hsees hmaps
        have hiff := hs.repeats_iff s kids
        refine ⟨some s :: kids, rfl, hsees, by simp [hml],
          mapsAfter_cons ⟨by simp, fun s' hs' hr => ?_, fun s' hs' hr => ?_⟩ hmaps⟩
        · obtain rfl : s = s' := by simpa using hs'
          exact if_pos (hiff.mpr hr)
        · obtain rfl : s = s' := by simpa using hs'
          exact if_neg fun h => hr (hiff.mp h)

/-- An iteration keeps others from being claimed if it did not end normally. -/
theorem haltsLoop_iff {r : Result} : haltsLoop r = true ↔ ∃ s, r = .ok s ∧ s.verdict ≠ .running := by
  cases r with
  | error e => simp [haltsLoop]
  | ok s => simp [haltsLoop, ← isRunning_iff]

/-- Iterations whose results were gathered, in whatever order they were walked. -/
theorem iterated_of_gathered {visit : Nat → Json → StepMap → Walk} {all : List (Json × StepMap)}
    {t : Trace} {traces : Nat → Trace} {results : List (Option Result)} {maps : List StepMap}
    {halts : Halts} (length : results.length = all.length)
    (ran : ∀ (i : Nat) (item : Json) (m : StepMap) (r : Result), all[i]? = some (item, m) →
      results[i]? = some (some r) → Job.Yields (visit i item m) (traces i) (.result r))
    (skipped : ∀ i, results[i]? = some none → ∃ (k : Nat) (r : Result), k < i ∧
      results[k]? = some (some r) ∧ haltsLoop r = true)
    (idle : ∀ i, (∀ r, results[i]? ≠ some (some r)) → traces i = []) (mixed : Interleaves traces t)
    (h : gatherIterations 0 Halts.none (all.map Prod.snd) results = .ok (maps, halts)) :
    ∃ kids, Iterated visit all t traces kids maps halts.decisive? := by
  obtain ⟨kids, rfl, hsees, hml, hmaps⟩ :=
    gatherIterations_ok .nil (by rw [length, List.length_map]) h
  have result {i : Nat} {s : RunState} :
      (kids.map (Option.map Except.ok) : List (Option Result))[i]? = some (some (.ok s)) ↔
        kids[i]? = some (some s) := by simp [Option.map_eq_some_iff]
  have noResult {i : Nat} :
      (kids.map (Option.map Except.ok) : List (Option Result))[i]? = some none ↔
        kids[i]? = some none := by simp [Option.map_eq_some_iff]
  refine ⟨kids, by simpa using length, fun i item m s hi hs => ran i item m _ hi (result.mpr hs),
    fun i hi => ?_, fun i hi => ?_, mixed, by simpa using hml, fun i item m hi => ?_,
    by simpa using hsees.decides⟩
  · obtain ⟨k, r, hk, hr, hstop⟩ := skipped i (noResult.mpr hi)
    obtain ⟨s, rfl, hv⟩ := haltsLoop_iff.mp hstop
    exact ⟨k, s, hk, result.mp hr, hv⟩
  · refine idle i fun r hr => ?_
    rw [List.getElem?_map, Option.map_eq_some_iff] at hr
    obtain ⟨kid, hkid, hr⟩ := hr
    obtain ⟨s, rfl, -⟩ := Option.map_eq_some_iff.mp hr
    exact hi s hkid
  · simpa using hmaps i m (by rw [List.getElem?_map, hi]; rfl)

/-- The task at an index walks the item there, if there is one. -/
theorem itemAt_yields {l : Looping} {all : List (Json × StepMap)} {i : Nat} {t : Trace}
    {o : Outcome Result} (h : Job.Yields (match all[i]? with
      | some (item, recorded) => l.visit i item recorded
      | none => Walk.ended l.state) t o) :
    (∃ item m, all[i]? = some (item, m) ∧ Job.Yields (l.visit i item m) t o) ∨
      Job.Yields (Walk.ended l.state) t o := by
  split at h
  next item m hm => exact .inl ⟨item, m, hm, h⟩
  next => exact .inr h

/-- Gathering the iterations makes no calls. -/
theorem gathered_silent {next : AfterLoop} {recorded : List StepMap} {results : List (Option Result)}
    {t : Trace} {o : Outcome Result}
    (silent : ∀ maps decisive t o, Job.Yields (next maps decisive) t o → t = [])
    (h : Job.Yields (match gatherIterations 0 Halts.none recorded results with
      | .error e => .done (.error e)
      | .ok (maps, halts) => next maps halts.decisive?) t o) : t = [] := by
  split at h
  · exact (Job.Yields.done_iff.mp h).1
  · exact silent _ _ _ _ h

/-- What a loop yields that walks its iterations side by side. -/
theorem sideBySide_yields {l : Looping} {workers : Nat} {next : AfterLoop}
    {all : List (Json × StepMap)} {t : Trace} {o : Outcome Result}
    (silent : ∀ maps decisive t o, Job.Yields (next maps decisive) t o → t = [])
    (h : Job.Yields (sideBySide l workers next all) t o) :
    CallsOf l.visit all t ∧ ∀ s', o = .result (.ok s') → ∃ traces kids maps decisive,
      Iterated l.visit all t traces kids maps decisive ∧
        Job.Yields (next maps decisive) [] (.result (.ok s')) := by
  have task {i : Nat} {t : Trace} {o : Outcome Result}
      (h : (∃ item m, all[i]? = some (item, m) ∧ Job.Yields (l.visit i item m) t o) ∨
        Job.Yields (Walk.ended l.state) t o) {e : Event Block.Call Block.Reply} (he : e ∈ t) :
      ∃ i item m t' o, all[i]? = some (item, m) ∧ Job.Yields (l.visit i item m) t' o ∧ e ∈ t' := by
    obtain ⟨item, m, hm, h⟩ | h := h
    · exact ⟨i, item, m, t, o, hm, h, he⟩
    · rw [Yields.ended_nil h] at he
      cases he
  cases h with
  | pending => exact ⟨by rintro e ⟨⟩, by simp⟩
  | fanOpen parts ends ran mixed stuck =>
    refine ⟨fun e he => ?_, fun s' hs' => by subst hs'; simp at stuck⟩
    obtain ⟨i, hi⟩ := (mixed.mem_iff e).mp he
    exact task (itemAt_yields (ran i)) hi
  | @fan _ _ _ _ _ t t' _ results parts length ran skipped idle mixed rest =>
    obtain rfl := gathered_silent silent rest
    rw [List.append_nil]
    refine ⟨fun e he => ?_, ?_⟩
    · obtain ⟨i, hi⟩ := (mixed.mem_iff e).mp he
      by_cases hr : ∃ r, results[i]? = some (some r)
      · obtain ⟨r, hr⟩ := hr
        exact task (itemAt_yields (ran i r hr)) hi
      · rw [idle i (by simpa using hr)] at hi
        cases hi
    · rintro s' rfl
      dsimp only at rest
      split at rest
      · cases rest
      · rename_i maps halts hg
        obtain ⟨kids, hit⟩ := iterated_of_gathered length
          (fun i item m r hi hr => by
            have := ran i r hr
            dsimp only at this
            rwa [hi] at this) skipped idle mixed hg
        exact ⟨parts, kids, maps, _, hit, rest⟩

/-! ## One after the other -/

section

variable {visit : Nat → Json → StepMap → Walk} {all : List (Json × StepMap)} {t t' : Trace}
  {traces : Nat → Trace} {kids : List (Option RunState)} {maps : List StepMap}
  {decisive : Option (Nat × Verdict)} {item : Json} {m : StepMap} {s : RunState}

theorem repeats_cons_iff (hv : s.verdict = .running) (i : Nat) :
    Repeats (some s :: kids) (i + 1) ↔ Repeats kids i := by
  unfold Repeats
  rw [List.getElem?_cons_succ]
  refine and_congr_right fun _ => ⟨?_, ?_⟩
  · rintro ⟨k, s', hk, hs', hv'⟩
    cases k with
    | zero =>
      obtain rfl : s = s' := by simpa using hs'
      rw [hv] at hv'
      cases hv'
    | succ k => exact ⟨k, s', by omega, by simpa using hs', hv'⟩
  · rintro ⟨k, s', hk, hs', hv'⟩
    exact ⟨k + 1, s', by omega, by simpa using hs', hv'⟩

theorem MapAfter.cons {i : Nat} {m' : StepMap} (hv : s.verdict = .running)
    (h : MapAfter kids i m m') : MapAfter (some s :: kids) (i + 1) m m' where
  skipped hs := h.skipped (by simpa using hs)
  repeated s' hs' hr := h.repeated s' (by simpa using hs') ((repeats_cons_iff hv i).mp hr)
  kept s' hs' hr := h.kept s' (by simpa using hs') fun hr' => hr ((repeats_cons_iff hv i).mpr hr')

theorem not_repeats_zero (kids : List (Option RunState)) : ¬ Repeats kids 0 :=
  fun ⟨_, _, _, hk, _⟩ => Nat.not_lt_zero _ hk

theorem Decides.cons (hv : s.verdict = .running) (h : Decides kids decisive) :
    Decides (some s :: kids) (decisive.map fun d => (d.1 + 1, d.2)) := by
  cases decisive with
  | none =>
    intro i s' hs'
    cases i with
    | zero =>
      obtain rfl : s = s' := by simpa using hs'
      exact hv
    | succ i => exact h i s' (by simpa using hs')
  | some d =>
    obtain ⟨i, v⟩ := d
    obtain ⟨hne, ⟨s₀, hs₀, hv₀⟩, hfirst⟩ := h
    refine ⟨hne, ⟨s₀, by simpa using hs₀, hv₀⟩, fun p hp k s' hs' => ?_⟩
    cases k with
    | zero =>
      obtain rfl : s = s' := by simpa using hs'
      exact .inl hv
    | succ k =>
      refine (hfirst p hp k s' (by simpa using hs')).imp id fun h => ⟨h.1, ?_⟩
      exact Nat.succ_le_succ h.2

theorem Successive.cons (hv : s.verdict = .running) (h : Successive kids decisive) :
    Successive (some s :: kids) (decisive.map fun d => (d.1 + 1, d.2)) := by
  intro i v hd k s' hs'
  obtain ⟨⟨j, v'⟩, rfl, heq⟩ := Option.map_eq_some_iff.mp hd
  obtain ⟨rfl, rfl⟩ : j + 1 = i ∧ v' = v := by simpa using heq
  cases k with
  | zero =>
    obtain rfl : s = s' := by simpa using hs'
    exact .inr ⟨by omega, hv⟩
  | succ k => exact (h j v' rfl k s' (by simpa using hs')).imp (by omega) fun h => ⟨by omega, h.2⟩

/-- The first iteration is the only one. -/
theorem Successive.stop (s : RunState) (count : Nat) (v : Verdict) :
    Successive (some s :: List.replicate count none) (some (0, v)) := by
  rintro i v' ⟨⟩ k s' hs'
  cases k with
  | zero => exact .inl rfl
  | succ k => simp [List.getElem?_replicate] at hs'

/-- An iteration that ended normally stands before the others. -/
theorem Iterated.cons (h : Iterated (fun i => visit (i + 1)) all t' traces kids maps decisive)
    (hs : Job.Yields (visit 0 item m) t (.result (.ok s))) (hv : s.verdict = .running) :
    Iterated visit ((item, m) :: all) (t ++ t') (fun | 0 => t | i + 1 => traces i)
      (some s :: kids) (s.steps :: maps) (decisive.map fun d => (d.1 + 1, d.2)) where
  length := by simp [h.length]
  ran i item' m' s' hi hs' := by
    cases i with
    | zero =>
      obtain ⟨rfl, rfl⟩ : item = item' ∧ m = m' := by simpa using hi
      obtain rfl : s = s' := by simpa using hs'
      exact hs
    | succ i => exact h.ran i item' m' s' (by simpa using hi) (by simpa using hs')
  skipped i hi := by
    cases i with
    | zero => simp at hi
    | succ i =>
      obtain ⟨k, s', hk, hs', hv'⟩ := h.skipped i (by simpa using hi)
      exact ⟨k + 1, s', by omega, by simpa using hs', hv'⟩
  idle i hi := by
    cases i with
    | zero => exact absurd rfl (hi s)
    | succ i => exact h.idle i fun s' hs' => hi s' (by simpa using hs')
  mixed := h.mixed.cons t
  mapsLength := by simp [h.mapsLength]
  maps i item' m' hi := by
    cases i with
    | zero =>
      refine ⟨s.steps, rfl, by simp, fun s' _ hr => absurd hr (not_repeats_zero _), ?_⟩
      rintro s' hs' -
      obtain rfl : s = s' := by simpa using hs'
      rfl
    | succ i =>
      obtain ⟨m'', hm'', ha⟩ := h.maps i item' m' (by simpa using hi)
      exact ⟨m'', by simpa using hm'', ha.cons hv⟩
  decides := h.decides.cons hv

/-- An iteration that did not end normally is the last one. -/
theorem Iterated.stop (all : List (Json × StepMap))
    (hs : Job.Yields (visit 0 item m) t (.result (.ok s))) (hv : s.verdict ≠ .running) :
    Iterated visit ((item, m) :: all) t (fun | 0 => t | _ + 1 => [])
      (some s :: List.replicate all.length none) (s.steps :: all.map Prod.snd)
      (some (0, s.verdict)) := by
  have only {i : Nat} {s' : RunState}
      (h : (some s :: List.replicate all.length none)[i]? = some (some s')) : i = 0 ∧ s = s' := by
    cases i with
    | zero => simpa using h
    | succ i => simp [List.getElem?_replicate] at h
  refine ⟨by simp, ?_, ?_, ?_, ?_, by simp, ?_, hv, ⟨s, rfl, rfl⟩, ?_⟩
  · intro i item' m' s' hi hs'
    obtain ⟨rfl, rfl⟩ := only hs'
    obtain ⟨rfl, rfl⟩ : item = item' ∧ m = m' := by simpa using hi
    exact hs
  · intro i hi
    cases i with
    | zero => simp at hi
    | succ i => exact ⟨0, s, by omega, rfl, hv⟩
  · intro i hi
    cases i with
    | zero => exact absurd rfl (hi s)
    | succ i => rfl
  · have := Interleaves.nil.cons t
    rwa [List.append_nil] at this
  · intro i item' m' hi
    cases i with
    | zero =>
      refine ⟨s.steps, rfl, by simp, fun s' _ hr => absurd hr (not_repeats_zero _), ?_⟩
      rintro s' hs' -
      rw [(only hs').2]
    | succ i =>
      have hi : all[i]? = some (item', m') := by simpa using hi
      refine ⟨m', by simp [hi], fun _ => rfl, fun s' hs' => ?_, fun s' hs' => ?_⟩ <;>
        exact absurd (only hs').1 (Nat.succ_ne_zero i)
  · intro p hp k s' hs'
    obtain ⟨rfl, rfl⟩ := only hs'
    exact .inr ⟨by rw [hp]; rfl, Nat.le_refl _⟩

theorem Iterated.nil : Iterated visit [] [] (fun _ => []) [] [] none where
  length := rfl
  ran := by simp
  skipped := by simp
  idle _ _ := rfl
  mixed := .nil
  mapsLength := rfl
  maps := by simp
  decides := by rintro i s hs; simp at hs

end

/-- What a loop yields that walks its iterations one after the other, from some iteration on. -/
theorem inSequence_yields {l : Looping} {next : AfterLoop} {index : Nat} {before : List StepMap}
    {all : List (Json × StepMap)} {t : Trace} {o : Outcome Result}
    (silent : ∀ maps decisive t o, Job.Yields (next maps decisive) t o → t = [])
    (h : Job.Yields (inSequence l next index before all) t o) :
    CallsOf (fun i => l.visit (index + i)) all t ∧ ∀ s', o = .result (.ok s') →
      ∃ traces kids maps decisive,
        Iterated (fun i => l.visit (index + i)) all t traces kids maps decisive ∧
          Successive kids decisive ∧
          Job.Yields (next (before.reverse ++ maps) (decisive.map fun d => (index + d.1, d.2))) []
            (.result (.ok s')) := by
  induction all generalizing index before t o with
  | nil =>
    rw [inSequence] at h
    obtain rfl := silent _ _ _ _ h
    refine ⟨by rintro e ⟨⟩, ?_⟩
    rintro s' rfl
    exact ⟨_, _, _, _, .nil, by rintro i v ⟨⟩, by simpa using h⟩
  | cons x all ih =>
    obtain ⟨item, m⟩ := x
    rw [inSequence] at h
    have here {t₁ : Trace} {o : Outcome Result} (h₁ : Job.Yields (l.visit index item m) t₁ o) :
        CallsOf (fun i => l.visit (index + i)) ((item, m) :: all) t₁ :=
      fun e he => ⟨0, item, m, t₁, o, rfl, h₁, he⟩
    rcases Job.Yields.of_andThen h with ⟨s, t₁, t₂, rfl, h₁, h₂⟩ | ⟨⟨o', h₁⟩, ho⟩
    · dsimp only at h₂
      split_ifs at h₂ with hv
      · obtain ⟨hcalls, hends⟩ := ih h₂
        refine ⟨fun e he => ?_, fun s' hs' => ?_⟩
        · rcases List.mem_append.mp he with he | he
          · exact here h₁ e he
          · obtain ⟨i, item', m', t', o', hi, hy, he⟩ := hcalls e he
            refine ⟨i + 1, item', m', t', o', by simpa using hi, ?_, he⟩
            simpa [Nat.add_assoc, Nat.add_comm, Nat.add_left_comm] using hy
        · obtain ⟨traces, kids, maps, decisive, hit, hone, hnext⟩ := hends s' hs'
          have hit : Iterated (fun i => l.visit (index + (i + 1))) all t₂ traces kids maps decisive := by
            simpa [Nat.add_assoc, Nat.add_comm, Nat.add_left_comm] using hit
          have hv := isRunning_iff.mp hv
          refine ⟨_, _, _, _, hit.cons h₁ hv, hone.cons hv, ?_⟩
          simpa [Function.comp_def, Nat.add_assoc, Nat.add_comm, Nat.add_left_comm] using hnext
      · obtain rfl := silent _ _ _ _ h₂
        rw [List.append_nil]
        refine ⟨here h₁, ?_⟩
        rintro s' rfl
        refine ⟨_, _, _, _, .stop all h₁ fun hv' => hv (isRunning_iff.mpr hv'), .stop s _ _, ?_⟩
        simpa using h₂
    · exact ⟨here h₁, fun s' hs' => absurd hs' (ho s')⟩

/-! ## Iterations without a state at the end -/

/-- One of some iterations came to an outcome. -/
def FailsIn (visit : Nat → Json → StepMap → Walk) (all : List (Json × StepMap)) (t : Trace)
    (o : Outcome Result) : Prop :=
  ∃ i item m t', all[i]? = some (item, m) ∧ Job.Yields (visit i item m) t' o ∧ ∀ e ∈ t', e ∈ t

section

variable {l : Looping} {next : AfterLoop} {all : List (Json × StepMap)} {t : Trace}
  {o : Outcome Result}

/-- Iterations one after the other end without a state only if one of them does, and as it does. -/
theorem inSequence_fails {index : Nat} {before : List StepMap}
    (hnext : ∀ maps d t o, Job.Yields (next maps d) t o → o = .pending ∨ ∃ s, o = .result (.ok s))
    (h : Job.Yields (inSequence l next index before all) t o) (ho : o ≠ .pending)
    (hnone : ∀ s, o ≠ .result (.ok s)) : FailsIn (fun i => l.visit (index + i)) all t o := by
  have stuck {maps : List StepMap} {d : Option (Nat × Verdict)} {t : Trace}
      (h : Job.Yields (next maps d) t o) {P : Prop} : P := by
    rcases hnext maps d t o h with hp | ⟨s, hs⟩
    · exact absurd hp ho
    · exact absurd hs (hnone s)
  induction all generalizing index before t with
  | nil =>
    rw [inSequence] at h
    exact stuck h
  | cons x all ih =>
    obtain ⟨item, m⟩ := x
    rw [inSequence] at h
    rcases Yields.andThen_ends h with ⟨s, t₁, t₂, rfl, h₁, h₂⟩ | hp | ⟨h₁, -⟩
    · dsimp only at h₂
      split_ifs at h₂
      · obtain ⟨i, item', m', t', hi, hy, hsub⟩ := ih h₂
        refine ⟨i + 1, item', m', t', by simpa using hi, ?_, fun e he =>
          List.mem_append_right _ (hsub e he)⟩
        simpa [Nat.add_assoc, Nat.add_comm, Nat.add_left_comm] using hy
      · exact stuck h₂
    · exact absurd hp ho
    · exact ⟨0, item, m, t, rfl, h₁, fun _ he => he⟩

/-- An error among the maps after iterations is one of an iteration. -/
theorem gatherIterations_error {index : Nat} {halts : Halts} {recorded : List StepMap}
    {results : List (Option Result)} {e : Fault}
    (h : gatherIterations index halts recorded results = .error e) :
    ∃ i : Nat, results[i]? = some (some (.error e)) := by
  induction recorded generalizing index halts results with
  | nil =>
    rw [gatherIterations] at h
    · cases h
    all_goals simp
  | cons m recorded ih =>
    rcases results with _ | ⟨_ | e' | kid, results⟩
    · rw [gatherIterations] at h
      · cases h
      all_goals simp
    · rw [gatherIterations] at h
      cases hrest : gatherIterations (index + 1) halts recorded results with
      | error e' =>
        rw [hrest] at h
        cases h
        obtain ⟨i, hi⟩ := ih hrest
        exact ⟨i + 1, hi⟩
      | ok rest => rw [hrest] at h; cases h
    · rw [gatherIterations] at h
      cases h
      exact ⟨0, rfl⟩
    · rw [gatherIterations] at h
      cases hrest : gatherIterations (index + 1) (halts.note index kid.verdict) recorded results with
      | error e' =>
        dsimp only at h
        rw [hrest] at h
        cases h
        obtain ⟨i, hi⟩ := ih hrest
        exact ⟨i + 1, hi⟩
      | ok rest => dsimp only at h; rw [hrest] at h; cases h

/-- Iterations side by side end without a state only if one of them does, and as it does. -/
theorem sideBySide_fails {workers : Nat}
    (hnext : ∀ maps d t o, Job.Yields (next maps d) t o → o = .pending ∨ ∃ s, o = .result (.ok s))
    (h : Job.Yields (sideBySide l workers next all) t o) (ho : o ≠ .pending)
    (hnone : ∀ s, o ≠ .result (.ok s)) : FailsIn l.visit all t o := by
  have task {i : Nat} {t' : Trace} {o : Outcome Result}
      (h : (∃ item m, all[i]? = some (item, m) ∧ Job.Yields (l.visit i item m) t' o) ∨
        Job.Yields (Walk.ended l.state) t' o) (ho : o ≠ .pending) (hnone : ∀ s, o ≠ .result (.ok s))
      (hsub : ∀ e ∈ t', e ∈ t) : FailsIn l.visit all t o := by
    obtain ⟨item, m, hi, h⟩ | h := h
    · exact ⟨i, item, m, t', hi, h, hsub⟩
    · rcases (Job.Yields.done_iff.mp h).2 with hp | hs
      · exact absurd hp ho
      · exact absurd hs (hnone _)
  cases h with
  | pending => exact absurd rfl ho
  | fanOpen parts ends ran mixed stuck =>
    obtain rfl | ⟨rfl, i, hi⟩ := stuck
    · exact absurd rfl ho
    · exact task (itemAt_yields (hi ▸ ran i)) (by simp) (by simp) fun e he => (mixed.mem_iff e).mpr ⟨i, he⟩
  | @fan _ _ _ _ _ t₁ t₂ _ results parts length ran skipped idle mixed rest =>
    dsimp only at rest
    split at rest
    next e hgather =>
      obtain ⟨i, hi⟩ := gatherIterations_error hgather
      obtain ⟨-, rfl⟩ : t₂ = [] ∧ o = .result (.error e) :=
        (Job.Yields.done_iff.mp rest).imp id (·.resolve_left ho)
      exact task (itemAt_yields (ran i _ hi)) (by simp) (by simp) fun e he =>
        List.mem_append_left _ ((mixed.mem_iff e).mpr ⟨i, he⟩)
    next maps halts hgather =>
      rcases hnext _ _ _ _ rest with hp | ⟨s, hs⟩
      · exact absurd hp ho
      · exact absurd hs (hnone s)

end

end FlowEngine.Engine
