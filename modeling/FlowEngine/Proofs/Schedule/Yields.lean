import FlowEngine.Proofs.Schedule.Process
import Mathlib.Data.List.Nodup
import Mathlib.Data.List.GetD

/-!
# What jobs yield

The steps of all workers of a fan-out taken together are described task by task: each task has a
trace of its own, and the trace of the fan-out is an interleaving of these.

* `Job.Yields` — a job and its trace, by recursion on the job.
* `Job.Runs.yields` — every run of a job, with any schedule, is described so.
* `Job.Yields.of_bind`, `Job.Yields.of_andThen` — what a job yields that goes on with the result of
  another.
-/

namespace FlowEngine.Engine

variable {τ κ ρ ω : Type}

namespace Job

/-- What a job yields: the calls that it makes and how far it comes.

* `fan` — all tasks of a fan-out have ended. A task without a result was skipped, because an
  earlier one had a result that stops.
* `fanOpen` — some task has not ended, or has crashed. -/
inductive Yields : Job τ κ ρ ω → List (Event κ ρ) → Outcome ω → Prop
  | pending (j) : Yields j [] .pending
  | done (result) : Yields (.done result) [] (.result result)
  | crash : Yields .crash [] .crash
  | clock {next t o} (reading : Reading τ) (rest : Yields (next reading) t o) :
    Yields (.clock next) t o
  | call {call limit next t o} (reply : Option ρ) (late : reply = none → limit.isSome)
    (rest : Yields (next reply) t o) : Yields (.call call limit next) (⟨call, reply⟩ :: t) o
  | sleep {nanos jitter next t o} (rest : Yields next t o) : Yields (.sleep nanos jitter next) t o
  | fan {workers stops count task next t t' o} (results : List (Option ω))
    (parts : Nat → List (Event κ ρ)) (length : results.length = count)
    (ran : ∀ i r, results[i]? = some (some r) → Yields (task i) (parts i) (.result r))
    (skipped : ∀ i, results[i]? = some none →
      ∃ (j : Nat) (r : ω), j < i ∧ results[j]? = some (some r) ∧ stops r = true)
    (idle : ∀ i, (∀ r, results[i]? ≠ some (some r)) → parts i = [])
    (mixed : Interleaves parts t) (rest : Yields (next results) t' o) :
    Yields (.fan workers stops count task next) (t ++ t') o
  | fanOpen {workers stops count task next t o} (parts : Nat → List (Event κ ρ))
    (ends : Nat → Outcome ω) (ran : ∀ i, Yields (task i) (parts i) (ends i))
    (mixed : Interleaves parts t) (stuck : o = .pending ∨ o = .crash ∧ ∃ i, ends i = .crash) :
    Yields (.fan workers stops count task next) t o

/-! ## Processes task by task -/

/-- Where the tasks of a fan-out stand, apart from what each has done. -/
structure Tallied (stops : ω → Bool) (count : Nat) (indices : List Nat) (tally : Tally ω)
    (parts : Nat → List (Event κ ρ)) : Prop where
  length : tally.results.length = count
  distinct : indices.Nodup
  claimed : ∀ i ∈ indices, i < tally.claimed ∧ tally.results[i]? = some none
  ended : ∀ i r, tally.results[i]? = some (some r) → i < tally.claimed
  skipped : ∀ i, i < tally.claimed → tally.results[i]? = some none → i ∉ indices →
    ∃ (j : Nat) (r : ω), j < i ∧ tally.results[j]? = some (some r) ∧ stops r = true
  idle : ∀ i, i ∉ indices → (∀ r, tally.results[i]? ≠ some (some r)) → parts i = []
  halted : tally.halted = true →
    ∃ (j : Nat) (r : ω), j < tally.claimed ∧ tally.results[j]? = some (some r) ∧ stops r = true

/-- A process that a job reaches, with the calls on the way. -/
inductive Reaches : Job τ κ ρ ω → List (Event κ ρ) → Process τ κ ρ ω → Prop
  | start (j) : Reaches j [] (.ready j)
  | done (result) : Reaches (.done result) [] (.ended result)
  | crash : Reaches .crash [] .crashed
  | clock {next t p} (reading : Reading τ) (rest : Reaches (next reading) t p) :
    Reaches (.clock next) t p
  | call {call limit next t p} (reply : Option ρ) (late : reply = none → limit.isSome)
    (rest : Reaches (next reply) t p) : Reaches (.call call limit next) (⟨call, reply⟩ :: t) p
  | sleep {nanos jitter next t p} (rest : Reaches next t p) :
    Reaches (.sleep nanos jitter next) t p
  | fanned {workers limit active tally stops count task next t}
    (parts : Nat → List (Event κ ρ)) (tallied : Tallied stops count (active.map Prod.fst) tally parts)
    (under : ∀ i p, (i, p) ∈ active → Reaches (task i) (parts i) p)
    (ran : ∀ i r, tally.results[i]? = some (some r) → Reaches (task i) (parts i) (.ended r))
    (mixed : Interleaves parts t) :
    Reaches (.fan workers stops count task next) t
      (.fanned limit active tally stops count task next)
  | failed {workers stops count task next t} (parts : Nat → List (Event κ ρ))
    (ends : Nat → Process τ κ ρ ω) (ran : ∀ i, Reaches (task i) (parts i) (ends i))
    (mixed : Interleaves parts t) (crashed : ∃ i, ends i = .crashed) :
    Reaches (.fan workers stops count task next) t .crashed
  | joined {workers stops count task next t t' p} (results : List (Option ω))
    (parts : Nat → List (Event κ ρ)) (length : results.length = count)
    (ran : ∀ i r, results[i]? = some (some r) → Reaches (task i) (parts i) (.ended r))
    (skipped : ∀ i, results[i]? = some none →
      ∃ (j : Nat) (r : ω), j < i ∧ results[j]? = some (some r) ∧ stops r = true)
    (idle : ∀ i, (∀ r, results[i]? ≠ some (some r)) → parts i = [])
    (mixed : Interleaves parts t) (rest : Reaches (next results) t' p) :
    Reaches (.fan workers stops count task next) (t ++ t') p

theorem Reaches.yields {j : Job τ κ ρ ω} {t : List (Event κ ρ)} {p : Process τ κ ρ ω}
    (h : Reaches j t p) : Yields j t p.outcome := by
  induction h with
  | start j => exact .pending j
  | done r => exact .done r
  | crash => exact .crash
  | clock reading _ ih => exact .clock reading ih
  | call reply late _ ih => exact .call reply late ih
  | sleep _ ih => exact .sleep ih
  | failed parts ends _ mixed crashed ih =>
    obtain ⟨i, hi⟩ := crashed
    exact .fanOpen parts (fun i => (ends i).outcome) ih mixed (.inr ⟨rfl, i, by simp [hi]; rfl⟩)
  | joined results parts length _ skipped idle mixed _ ih ih' =>
    exact .fan results parts length ih skipped idle mixed ih'
  | @fanned _ limit active tally _ _ task _ _ parts tallied _ _ mixed ih ih' =>
    -- a task is active, has a result, or has not done anything
    have key : ∀ i, ∃ o, Yields (task i) (parts i) o := by
      intro i
      by_cases hi : i ∈ active.map Prod.fst
      · obtain ⟨⟨_, p⟩, hp, rfl⟩ := List.mem_map.mp hi
        exact ⟨_, ih _ p hp⟩
      · by_cases hr : ∃ r, tally.results[i]? = some (some r)
        · obtain ⟨r, hr⟩ := hr
          exact ⟨_, ih' i r hr⟩
        · rw [tallied.idle i hi (by simpa using hr)]
          exact ⟨_, .pending _⟩
    choose ends hends using key
    exact .fanOpen parts ends hends mixed (.inl rfl)

/-! ## Every step is accounted for -/

namespace Tallied

variable {stops : ω → Bool} {count : Nat} {indices : List Nat} {tally : Tally ω}
  {parts : Nat → List (Event κ ρ)}

theorem fresh : Tallied stops count [] (Tally.fresh count) (fun _ => ([] : List (Event κ ρ))) where
  length := by simp [Tally.fresh]
  distinct := List.nodup_nil
  claimed := by simp
  ended i r h := by simp [Tally.fresh, List.getElem?_replicate] at h
  skipped i h := by simp [Tally.fresh] at h
  idle _ _ _ := rfl
  halted h := by simp [Tally.fresh] at h

/-- The next task has no result yet. -/
theorem next (h : Tallied stops count indices tally parts) (left : tally.claimed < count) :
    tally.results[tally.claimed]? = some none := by
  have hlt : tally.claimed < tally.results.length := by rw [h.length]; exact left
  rw [List.getElem?_eq_getElem hlt]
  cases hr : tally.results[tally.claimed] with
  | none => rfl
  | some r =>
    have := h.ended _ r (by rw [List.getElem?_eq_getElem hlt, hr])
    omega

theorem claim (h : Tallied stops count indices tally parts) (left : tally.claimed < count) :
    Tallied stops count (indices ++ [tally.claimed]) tally.claim parts where
  length := h.length
  distinct := by
    refine List.nodup_append.mpr ⟨h.distinct, List.nodup_singleton _, ?_⟩
    intro i hi j hj
    have := (h.claimed i hi).1
    simp only [List.mem_singleton] at hj
    omega
  claimed i hi := by
    rcases List.mem_append.mp hi with hi | hi
    · exact ⟨Nat.lt_succ_of_lt (h.claimed i hi).1, (h.claimed i hi).2⟩
    · rw [List.mem_singleton.mp hi]
      exact ⟨Nat.lt_succ_self _, h.next left⟩
  ended i r hr := Nat.lt_succ_of_lt (h.ended i r hr)
  skipped i hi hr hn := by
    simp only [List.mem_append, List.mem_singleton, not_or] at hn
    have hlt : i < tally.claimed + 1 := hi
    exact h.skipped i (by omega) hr hn.1
  idle i hi hr := h.idle i (fun hm => hi (List.mem_append_left _ hm)) hr
  halted hh := by
    obtain ⟨j, r, hj, hr⟩ := h.halted hh
    exact ⟨j, r, Nat.lt_succ_of_lt hj, hr⟩

theorem skip (h : Tallied stops count indices tally parts) (halted : tally.halted = true) :
    Tallied stops count indices tally.claim parts where
  length := h.length
  distinct := h.distinct
  claimed i hi := ⟨Nat.lt_succ_of_lt (h.claimed i hi).1, (h.claimed i hi).2⟩
  ended i r hr := Nat.lt_succ_of_lt (h.ended i r hr)
  skipped i hi hr hn := by
    rcases Nat.lt_succ_iff_lt_or_eq.mp hi with hlt | rfl
    · exact h.skipped i hlt hr hn
    · exact h.halted halted
  idle := h.idle
  halted hh := by
    obtain ⟨j, r, hj, hr⟩ := h.halted hh
    exact ⟨j, r, Nat.lt_succ_of_lt hj, hr⟩

/-- An active task goes on. -/
theorem work {parts' : Nat → List (Event κ ρ)} (h : Tallied stops count indices tally parts)
    (same : ∀ i, i ∉ indices → parts' i = parts i) :
    Tallied stops count indices tally parts' where
  length := h.length
  distinct := h.distinct
  claimed := h.claimed
  ended := h.ended
  skipped := h.skipped
  idle i hi hr := by rw [same i hi]; exact h.idle i hi hr
  halted := h.halted

theorem settle {before after : List Nat} {i : Nat} (r : ω)
    (h : Tallied stops count (before ++ i :: after) tally parts) :
    Tallied stops count (before ++ after) (tally.record stops i r) parts := by
  obtain ⟨hi, hnone⟩ := h.claimed i (by simp)
  have hlt : i < tally.results.length := (List.getElem?_eq_some_iff.mp hnone).1
  have hset (j : Nat) : (tally.results.set i (some r))[j]? =
      if i = j then some (some r) else tally.results[j]? := by
    rw [List.getElem?_set]
    by_cases hj : i = j
    · subst hj; simp [hlt]
    · simp [hj]
  -- a task that had a result before still has it
  have keep (j : Nat) (r' : ω) (hr : tally.results[j]? = some (some r')) :
      (tally.results.set i (some r))[j]? = some (some r') := by
    rw [hset, if_neg (by rintro rfl; rw [hnone] at hr; cases hr), hr]
  have hd := List.nodup_middle.mp h.distinct
  refine ⟨?_, hd.of_cons, ?_, ?_, ?_, ?_, ?_⟩
  · simp [Tally.record, h.length]
  · intro j hj
    have hne : i ≠ j := by rintro rfl; exact hd.notMem hj
    obtain ⟨h1, h2⟩ := h.claimed j (List.perm_middle.mem_iff.mpr (List.mem_cons_of_mem _ hj))
    exact ⟨h1, by simp only [Tally.record, hset, if_neg hne, h2]⟩
  · intro j r' hr
    simp only [Tally.record, hset] at hr
    split_ifs at hr with hij
    · exact hij ▸ hi
    · exact h.ended j r' hr
  · intro j hj hr hn
    simp only [Tally.record, hset] at hr
    split_ifs at hr with hij
    · simp at hr
    · have hj' : j ∉ before ++ i :: after := by
        rw [List.perm_middle.mem_iff, List.mem_cons]
        rintro (rfl | hm)
        · exact hij rfl
        · exact hn hm
      obtain ⟨k, r', hk, hr', hs⟩ := h.skipped j hj hr hj'
      exact ⟨k, r', hk, keep k r' hr', hs⟩
  · intro j hj hr
    simp only [Tally.record, hset] at hr
    have hij : i ≠ j := by rintro rfl; exact hr r (by simp)
    simp only [if_neg hij] at hr
    refine h.idle j ?_ hr
    rw [List.perm_middle.mem_iff, List.mem_cons]
    rintro (rfl | hm)
    · exact hij rfl
    · exact hj hm
  · intro hh
    simp only [Tally.record, Bool.or_eq_true] at hh
    rcases hh with hh | hh
    · obtain ⟨j, r', hj, hr, hs⟩ := h.halted hh
      exact ⟨j, r', hj, keep j r' hr, hs⟩
    · exact ⟨i, r, hi, by simp [Tally.record, hset], hh⟩

end Tallied

section

variable {workers limit count : Nat} {active before after : List (Nat × Process τ κ ρ ω)}
  {tally : Tally ω} {stops : ω → Bool} {task : Nat → Job τ κ ρ ω}
  {next : List (Option ω) → Job τ κ ρ ω} {parts : Nat → List (Event κ ρ)} {t es : List (Event κ ρ)}
  {i : Nat}

/-- A worker begins the next task. -/
theorem Reaches.claimed (tallied : Tallied stops count (active.map Prod.fst) tally parts)
    (under : ∀ i p, (i, p) ∈ active → Reaches (task i) (parts i) p)
    (ran : ∀ i r, tally.results[i]? = some (some r) → Reaches (task i) (parts i) (.ended r))
    (mixed : Interleaves parts t) (left : tally.claimed < count) :
    Reaches (.fan workers stops count task next) t (.fanned limit
      (active ++ [(tally.claimed, .ready (task tally.claimed))]) tally.claim stops count task next) := by
  refine .fanned parts (by simpa using tallied.claim left) (fun i p hp => ?_) ran mixed
  rcases List.mem_append.mp hp with hp | hp
  · exact under i p hp
  · obtain ⟨rfl, rfl⟩ := Prod.mk.inj (List.mem_singleton.mp hp)
    have hn : tally.claimed ∉ active.map Prod.fst := fun hm =>
      absurd (tallied.claimed _ hm).1 (Nat.lt_irrefl _)
    rw [tallied.idle _ hn (by simp [tallied.next left])]
    exact .start _

/-- A worker goes on with its task. -/
theorem Reaches.worked {p p' : Process τ κ ρ ω}
    (tallied : Tallied stops count ((before ++ (i, p) :: after).map Prod.fst) tally parts)
    (under : ∀ j q, (j, q) ∈ before ++ (i, p) :: after → Reaches (task j) (parts j) q)
    (ran : ∀ i r, tally.results[i]? = some (some r) → Reaches (task i) (parts i) (.ended r))
    (mixed : Interleaves parts t) (goesOn : Reaches (task i) (parts i ++ es) p') :
    Reaches (.fan workers stops count task next) (t ++ es)
      (.fanned limit (before ++ (i, p') :: after) tally stops count task next) := by
  have hi : i ∈ (before ++ (i, p) :: after).map Prod.fst := by simp
  have hd : (before.map Prod.fst ++ i :: after.map Prod.fst).Nodup := by
    simpa using tallied.distinct
  have other (j : Nat) (hj : j ≠ i) : (parts j ++ if j = i then es else []) = parts j := by
    simp [hj]
  refine .fanned (fun j => parts j ++ if j = i then es else []) ?_ ?_ ?_ (mixed.extend i es)
  · have : Tallied stops count ((before ++ (i, p) :: after).map Prod.fst) tally
        fun j => parts j ++ if j = i then es else [] :=
      tallied.work fun j hj => other j (by rintro rfl; exact hj hi)
    simpa using this
  · intro j q hq
    rcases mem_middle.mp hq with heq | hother
    · obtain ⟨rfl, rfl⟩ := Prod.mk.inj heq
      simpa using goesOn
    · have hj : j ≠ i := by
        rintro rfl
        refine (List.nodup_middle.mp hd).notMem ?_
        rw [← List.map_append]
        exact List.mem_map.mpr ⟨_, hother, rfl⟩
      rw [other j hj]
      exact under j q (mem_middle.mpr (.inr hother))
  · intro j r hr
    have hj : j ≠ i := by
      rintro rfl
      rw [(tallied.claimed j hi).2] at hr
      cases hr
    rw [other j hj]
    exact ran j r hr

/-- The result of a task is taken over. -/
theorem Reaches.settled {r : ω}
    (tallied : Tallied stops count ((before ++ (i, .ended r) :: after).map Prod.fst) tally parts)
    (under : ∀ j q, (j, q) ∈ before ++ (i, .ended r) :: after → Reaches (task j) (parts j) q)
    (ran : ∀ i r, tally.results[i]? = some (some r) → Reaches (task i) (parts i) (.ended r))
    (mixed : Interleaves parts t) :
    Reaches (.fan workers stops count task next) t
      (.fanned limit (before ++ after) (tally.record stops i r) stops count task next) := by
  have hi := (tallied.claimed i (by simp)).2
  have hlt : i < tally.results.length := (List.getElem?_eq_some_iff.mp hi).1
  refine .fanned parts ?_ (fun j q hq => under j q (mem_middle.mpr (.inr hq)))
    (fun j r' hr => ?_) mixed
  · have : Tallied stops count (before.map Prod.fst ++ i :: after.map Prod.fst) tally parts := by
      simpa using tallied
    simpa using this.settle r
  · simp only [Tally.record, List.getElem?_set] at hr
    by_cases hj : i = j
    · subst hj
      simp only [hlt, Option.some.injEq, if_true] at hr
      subst hr
      exact under i (.ended r) (by simp)
    · rw [if_neg hj] at hr
      exact ran j r' hr

/-- A task has crashed, and the fan-out with it. -/
theorem Reaches.broken
    (tallied : Tallied stops count ((before ++ (i, .crashed) :: after).map Prod.fst) tally parts)
    (under : ∀ j q, (j, q) ∈ before ++ (i, .crashed) :: after → Reaches (task j) (parts j) q)
    (ran : ∀ i r, tally.results[i]? = some (some r) → Reaches (task i) (parts i) (.ended r))
    (mixed : Interleaves parts t) :
    Reaches (.fan workers stops count task next) t .crashed := by
  have key : ∀ j, ∃ q, Reaches (task j) (parts j) q ∧ (j = i → q = .crashed) := by
    intro j
    by_cases hj : j = i
    · subst hj
      exact ⟨_, under j .crashed (by simp), fun _ => rfl⟩
    by_cases hm : j ∈ (before ++ (i, .crashed) :: after).map Prod.fst
    · obtain ⟨⟨_, q⟩, hq, rfl⟩ := List.mem_map.mp hm
      exact ⟨q, under _ q hq, fun h => absurd h hj⟩
    by_cases hr : ∃ r, tally.results[j]? = some (some r)
    · obtain ⟨r, hr⟩ := hr
      exact ⟨_, ran j r hr, fun h => absurd h hj⟩
    · rw [tallied.idle j hm (by simpa using hr)]
      exact ⟨_, .start _, fun h => absurd h hj⟩
  choose ends hends using key
  exact .failed parts ends (fun j => (hends j).1) mixed ⟨i, (hends i).2 rfl⟩

/-- What the tasks of a fan-out reach when one of its workers makes a step. -/
theorem Reaches.fanned_step {p' : Process τ κ ρ ω}
    (tallied : Tallied stops count (active.map Prod.fst) tally parts)
    (under : ∀ i p, (i, p) ∈ active → Reaches (task i) (parts i) p)
    (ran : ∀ i r, tally.results[i]? = some (some r) → Reaches (task i) (parts i) (.ended r))
    (mixed : Interleaves parts t)
    (goesOn : ∀ i p, (i, p) ∈ active → ∀ {es p'}, Process.Step p es p' →
      Reaches (task i) (parts i ++ es) p')
    (step : Process.Step (.fanned limit active tally stops count task next) es p') :
    Reaches (.fan workers stops count task next) (t ++ es) p' := by
  cases step with
  | claim room left going =>
    rw [List.append_nil]
    exact .claimed tallied under ran mixed left
  | skip room left halted =>
    rw [List.append_nil]
    exact .fanned parts (tallied.skip halted) under ran mixed
  | work step => exact .worked tallied under ran mixed (goesOn _ _ (by simp) step)
  | settle =>
    rw [List.append_nil]
    exact .settled tallied under ran mixed
  | fail =>
    rw [List.append_nil]
    exact .broken tallied under ran mixed
  | join all =>
    refine .joined tally.results parts tallied.length ran ?_ ?_ mixed (.start _)
    · intro i hi
      have hlt : i < tally.results.length := (List.getElem?_eq_some_iff.mp hi).1
      exact tallied.skipped i (by have := tallied.length; omega) hi (by simp)
    · exact fun i hi => tallied.idle i (by simp) hi

end

theorem Reaches.step {j : Job τ κ ρ ω} {t es : List (Event κ ρ)} {p p' : Process τ κ ρ ω}
    (h : Reaches j t p) (step : Process.Step p es p') : Reaches j (t ++ es) p' := by
  induction h generalizing es p' with
  | start j =>
    cases step with
    | done r => exact .done r
    | crash => exact .crash
    | clock next reading => exact .clock reading (.start _)
    | call c limit next reply late => exact .call reply late (.start _)
    | sleep nanos jitter next => exact .sleep (.start _)
    | fan workers stops count task next =>
      exact .fanned (fun _ => []) .fresh (by simp) (by simp [Tally.fresh, List.getElem?_replicate])
        .nil
  | done => cases step
  | crash => cases step
  | clock reading _ ih => exact .clock reading (ih step)
  | call reply late _ ih => exact .call reply late (ih step)
  | sleep _ ih => exact .sleep (ih step)
  | failed => cases step
  | joined results parts length ran skipped idle mixed _ _ ih =>
    rw [List.append_assoc]
    exact .joined results parts length ran skipped idle mixed (ih step)
  | fanned parts tallied under ran mixed ih _ =>
    exact .fanned_step tallied under ran mixed (fun i p hp _ _ step => ih i p hp step) step

theorem Reaches.of_steps {j : Job τ κ ρ ω} {t : List (Event κ ρ)} {p : Process τ κ ρ ω}
    (h : Process.Steps (.ready j) t p) : Reaches j t p := by
  induction h with
  | refl => exact .start j
  | tail _ step ih => exact ih.step step

/-- Whatever the schedule, a run of a job is described task by task. -/
theorem Runs.yields {j : Job τ κ ρ ω} {t : List (Event κ ρ)} {o : Outcome ω} (h : j.Runs t o) :
    Yields j t o := by
  obtain ⟨p, hs, rfl⟩ := h
  exact (Reaches.of_steps hs).yields

/-! ## Jobs one after the other -/

/-- A job that goes on with the result of another one yields what both yield, or only the first one
if it has no result. -/
theorem Yields.of_bind {f : ω → Job τ κ ρ ω} {j : Job τ κ ρ ω} {t : List (Event κ ρ)}
    {o : Outcome ω} (h : Yields (j.bind f) t o) :
    (∃ r t₁ t₂, t = t₁ ++ t₂ ∧ Yields j t₁ (.result r) ∧ Yields (f r) t₂ o) ∨
      (Yields j t o ∧ ∀ r, o ≠ .result r) := by
  induction j generalizing t o with
  | done r => exact .inl ⟨r, [], t, rfl, .done r, h⟩
  | crash => cases h <;> exact .inr ⟨by constructor, by simp⟩
  | clock next ih =>
    cases h with
    | pending => exact .inr ⟨.pending _, by simp⟩
    | clock reading rest =>
      rcases ih reading rest with ⟨r, t₁, t₂, rfl, h₁, h₂⟩ | ⟨h₁, ho⟩
      · exact .inl ⟨r, t₁, t₂, rfl, .clock reading h₁, h₂⟩
      · exact .inr ⟨.clock reading h₁, ho⟩
  | call c limit next ih =>
    cases h with
    | pending => exact .inr ⟨.pending _, by simp⟩
    | call reply late rest =>
      rcases ih reply rest with ⟨r, t₁, t₂, rfl, h₁, h₂⟩ | ⟨h₁, ho⟩
      · exact .inl ⟨r, _ :: t₁, t₂, rfl, .call reply late h₁, h₂⟩
      · exact .inr ⟨.call reply late h₁, ho⟩
  | sleep nanos jitter next ih =>
    cases h with
    | pending => exact .inr ⟨.pending _, by simp⟩
    | sleep rest =>
      rcases ih rest with ⟨r, t₁, t₂, rfl, h₁, h₂⟩ | ⟨h₁, ho⟩
      · exact .inl ⟨r, t₁, t₂, rfl, .sleep h₁, h₂⟩
      · exact .inr ⟨.sleep h₁, ho⟩
  | fan workers stops count task next _ ih =>
    cases h with
    | pending => exact .inr ⟨.pending _, by simp⟩
    | fan results parts length ran skipped idle mixed rest =>
      rcases ih results rest with ⟨r, t₁, t₂, rfl, h₁, h₂⟩ | ⟨h₁, ho⟩
      · exact .inl ⟨r, _ ++ t₁, t₂, by simp,
          .fan results parts length ran skipped idle mixed h₁, h₂⟩
      · exact .inr ⟨.fan results parts length ran skipped idle mixed h₁, ho⟩
    | fanOpen parts ends ran mixed stuck =>
      refine .inr ⟨.fanOpen parts ends ran mixed stuck, ?_⟩
      rintro r rfl
      simp at stuck

/-- A job that goes on unless there is an error: the second one is reached, or nothing results. -/
theorem Yields.of_andThen {ε α : Type} {j : Job τ κ ρ (Except ε α)}
    {f : α → Job τ κ ρ (Except ε α)} {t : List (Event κ ρ)} {o : Outcome (Except ε α)}
    (h : Yields (j.andThen f) t o) :
    (∃ a t₁ t₂, t = t₁ ++ t₂ ∧ Yields j t₁ (.result (.ok a)) ∧ Yields (f a) t₂ o) ∨
      ((∃ o', Yields j t o') ∧ ∀ a, o ≠ .result (.ok a)) := by
  rcases of_bind h with ⟨_ | a, t₁, t₂, rfl, h₁, h₂⟩ | ⟨h, ho⟩
  · cases h₂ <;> exact .inr ⟨⟨_, by rwa [List.append_nil]⟩, by simp⟩
  · exact .inl ⟨a, t₁, t₂, rfl, h₁, h₂⟩
  · exact .inr ⟨⟨o, h⟩, fun a => ho (.ok a)⟩

/-- A job that has a result makes no calls. -/
theorem Yields.done_iff {r : ω} {t : List (Event κ ρ)} {o : Outcome ω} :
    Yields (.done r : Job τ κ ρ ω) t o ↔ t = [] ∧ (o = .pending ∨ o = .result r) := by
  constructor
  · rintro (_ | _)
    · exact ⟨rfl, .inl rfl⟩
    · exact ⟨rfl, .inr rfl⟩
  · rintro ⟨rfl, rfl | rfl⟩
    · exact .pending _
    · exact .done r

theorem Yields.crash_iff {t : List (Event κ ρ)} {o : Outcome ω} :
    Yields (.crash : Job τ κ ρ ω) t o ↔ t = [] ∧ (o = .pending ∨ o = .crash) := by
  constructor
  · rintro (_ | _)
    · exact ⟨rfl, .inl rfl⟩
    · exact ⟨rfl, .inr rfl⟩
  · rintro ⟨rfl, rfl | rfl⟩
    · exact .pending _
    · exact .crash

/-- A job that reads the clock goes on with what the clock shows. -/
theorem Yields.of_clock {next : Reading τ → Job τ κ ρ ω} {t : List (Event κ ρ)} {o : Outcome ω}
    (h : Yields (.clock next) t o) :
    (t = [] ∧ o = .pending) ∨ ∃ reading, Yields (next reading) t o := by
  cases h with
  | pending => exact .inl ⟨rfl, rfl⟩
  | clock reading rest => exact .inr ⟨reading, rest⟩

end Job

end FlowEngine.Engine
