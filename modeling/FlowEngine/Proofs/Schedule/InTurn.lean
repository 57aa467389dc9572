import FlowEngine.Proofs.Schedule.Ends
import FlowEngine.Proofs.Schedule.Yields

/-!
# Tasks one after the other

A job can also be carried out without any choice of a schedule: the tasks of each fan-out one after
the other, in their order. Where no result keeps other tasks from being claimed, this leads to all
the results that the job can have.

* `Job.inTurn` — the job with the tasks of its fan-outs one after the other.
* `Yields.of_fan` — how a fan-out ends that claims all of its tasks.
* `Yields.of_inTurn` — what a job yields in turn is what it yields with some schedule.
* `Yields.inTurn` — what a job results in with any schedule, it results in in turn.
-/

namespace FlowEngine.Engine.Job

variable {τ κ ρ ω : Type}

/-- Carries out the tasks of a fan-out that are left, one after the other. Those after a result that
stops are skipped. The results so far are in reverse. -/
def eachInTurn (stops : ω → Bool) (task : Nat → Job τ κ ρ ω)
    (next : List (Option ω) → Job τ κ ρ ω) : (left : Nat) → (before : List (Option ω)) → Job τ κ ρ ω
  | 0, before => next before.reverse
  | left + 1, before => (task before.length).bind fun result =>
    if stops result then next (before.reverse ++ some result :: List.replicate left none)
    else eachInTurn stops task next left (some result :: before)

/-- A job with the tasks of its fan-outs one after the other. Each task is carried out as before. -/
def inTurn : Job τ κ ρ ω → Job τ κ ρ ω
  | done result => done result
  | crash => crash
  | clock next => clock fun reading => (next reading).inTurn
  | call c limit next => call c limit fun reply => (next reply).inTurn
  | sleep nanos jitter next => sleep nanos jitter next.inTurn
  | fan _ stops count task next => eachInTurn stops task (fun results => (next results).inTurn) count []

/-- All tasks of the fan-outs of a job are claimed, whatever the results of others. -/
inductive ClaimsAll : Job τ κ ρ ω → Prop
  | done (result) : ClaimsAll (.done result)
  | crash : ClaimsAll .crash
  | clock {next} (rest : ∀ reading, ClaimsAll (next reading)) : ClaimsAll (.clock next)
  | call {call limit next} (rest : ∀ reply, ClaimsAll (next reply)) :
    ClaimsAll (.call call limit next)
  | sleep {nanos jitter next} (rest : ClaimsAll next) : ClaimsAll (.sleep nanos jitter next)
  | fan {workers stops count task next} (never : ∀ result, stops result = false)
    (rest : ∀ results, ClaimsAll (next results)) : ClaimsAll (.fan workers stops count task next)

variable {stops : ω → Bool} {task : Nat → Job τ κ ρ ω} {next : List (Option ω) → Job τ κ ρ ω}
  {t t' : List (Event κ ρ)} {o : Outcome ω}

/-! ## One job after another -/

theorem Yields.bind {j : Job τ κ ρ ω} {f : ω → Job τ κ ρ ω} {result : ω}
    (h : Yields j t (.result result)) (hf : Yields (f result) t' o) :
    Yields (j.bind f) (t ++ t') o := by
  induction j generalizing t with
  | done r =>
    cases h
    exact hf
  | crash => cases h
  | clock next ih =>
    cases h with
    | clock reading rest => exact .clock reading (ih reading rest)
  | call c limit next ih =>
    cases h with
    | call reply late rest => exact .call reply late (ih reply rest)
  | sleep nanos jitter next ih =>
    cases h with
    | sleep rest => exact .sleep (ih rest)
  | fan workers stops count task next _ ih =>
    cases h with
    | fan results parts length ran skipped idle mixed rest =>
      rw [List.append_assoc]
      exact .fan results parts length ran skipped idle mixed (ih results rest)
    | fanOpen parts ends ran mixed stuck => simp at stuck

/-! ## Fan-outs that claim all tasks -/

/-- The tasks of a fan-out that have all ended, with their results and what each has done. -/
structure AllEnded (task : Nat → Job τ κ ρ ω) (results : List ω) (t : List (Event κ ρ)) : Prop where
  parts : ∃ parts : Nat → List (Event κ ρ), Interleaves parts t ∧
    (∀ i result, results[i]? = some result → Yields (task i) (parts i) (.result result)) ∧
    ∀ i, results.length ≤ i → parts i = []

theorem exists_map_some {results : List (Option ω)} (h : none ∉ results) :
    ∃ rs : List ω, results = rs.map some := by
  induction results with
  | nil => exact ⟨[], rfl⟩
  | cons r results ih =>
    obtain ⟨hr, hrest⟩ := not_or.mp (List.mem_cons.not.mp h)
    obtain ⟨rs, rfl⟩ := ih hrest
    cases r with
    | none => exact absurd rfl hr
    | some r => exact ⟨r :: rs, rfl⟩

/-- A fan-out that claims all of its tasks ends after all of them have results, or with one that ended
the program. -/
theorem Yields.of_fan {workers count : Nat} (never : ∀ result, stops result = false)
    (h : Yields (.fan workers stops count task next) t o) (ho : o ≠ .pending) :
    (∃ results t₁ t₂, t = t₁ ++ t₂ ∧ results.length = count ∧ AllEnded task results t₁ ∧
        Yields (next (results.map some)) t₂ o) ∨
      (o = .crash ∧ ∃ i t', Yields (task i) t' .crash ∧ ∀ e ∈ t', e ∈ t) := by
  cases h with
  | pending => exact absurd rfl ho
  | fanOpen parts ends ran mixed stuck =>
    obtain rfl | ⟨rfl, i, hi⟩ := stuck
    · exact absurd rfl ho
    · exact .inr ⟨rfl, i, parts i, hi ▸ ran i, fun e he => (mixed.mem_iff e).mpr ⟨i, he⟩⟩
  | @fan _ _ _ _ _ t₁ t₂ _ results parts length ran skipped idle mixed rest =>
    have hnone : none ∉ results := fun hr => by
      obtain ⟨i, hi⟩ := List.getElem?_of_mem hr
      obtain ⟨_, _, -, -, hstop⟩ := skipped i hi
      rw [never] at hstop
      cases hstop
    obtain ⟨results, rfl⟩ := exists_map_some hnone
    refine .inl ⟨results, t₁, t₂, rfl, by simpa using length, ⟨parts, mixed, fun i r hr => ?_,
      fun i hi => idle i fun r hr => ?_⟩, rest⟩
    · exact ran i r (by rw [List.getElem?_map, hr]; rfl)
    · rw [List.getElem?_eq_none (by simpa using hi)] at hr
      cases hr

/-! ## In turn -/

/-- Tasks in turn end after all of them have results, or with one that ended the program. -/
theorem Yields.of_eachInTurn (never : ∀ result, stops result = false) {left : Nat}
    {before : List (Option ω)} (h : Yields (eachInTurn stops task next left before) t o)
    (ho : o ≠ .pending) :
    (∃ results t₁ t₂, t = t₁ ++ t₂ ∧ results.length = left ∧
        AllEnded (fun i => task (before.length + i)) results t₁ ∧
        Yields (next (before.reverse ++ results.map some)) t₂ o) ∨
      (o = .crash ∧ ∃ parts : Nat → List (Event κ ρ), Interleaves parts t ∧ ∃ ends : Nat → Outcome ω,
        (∀ i, Yields (task (before.length + i)) (parts i) (ends i)) ∧ ∃ i, ends i = .crash) := by
  induction left generalizing before t with
  | zero =>
    refine .inl ⟨[], [], t, rfl, rfl, ⟨fun _ => [], .nil, by simp, fun _ _ => rfl⟩, ?_⟩
    rw [eachInTurn] at h
    simpa using h
  | succ left ih =>
    rw [eachInTurn] at h
    rcases of_bind h with ⟨r, t₁, t₂, rfl, h₁, h₂⟩ | ⟨h₁, hr⟩
    · rw [if_neg (by simp [never r])] at h₂
      rcases ih h₂ with ⟨results, u₁, u₂, rfl, hlen, ⟨parts, mixed, ran, idle⟩, hnext⟩ |
        ⟨rfl, parts, mixed, ends, ran, i, hi⟩
      · refine .inl ⟨r :: results, t₁ ++ u₁, u₂, by simp, by simp [hlen], ⟨_, mixed.cons t₁,
          fun i r' hr' => ?_, fun i hi => ?_⟩, by simpa using hnext⟩
        · cases i with
          | zero =>
            obtain rfl : r = r' := by simpa using hr'
            exact h₁
          | succ i =>
            have := ran i r' (by simpa using hr')
            rwa [List.length_cons, Nat.add_assoc, Nat.add_comm 1 i] at this
        · cases i with
          | zero => simp at hi
          | succ i => exact idle i (by simpa using hi)
      · refine .inr ⟨rfl, _, mixed.cons t₁, fun i => i.casesOn (.result r) ends, fun i => ?_, i + 1, hi⟩
        cases i with
        | zero => exact h₁
        | succ i =>
          have := ran i
          rwa [List.length_cons, Nat.add_assoc, Nat.add_comm 1 i] at this
    · -- the program ended in this task, and the later ones have not begun
      obtain rfl : o = .crash := by
        cases o with
        | result r => exact absurd rfl (hr r)
        | crash => rfl
        | pending => exact absurd rfl ho
      refine .inr ⟨rfl, _, Interleaves.single 0 t, fun i => i.casesOn .crash fun _ => .pending,
        fun i => ?_, 0, rfl⟩
      cases i with
      | zero => exact h₁
      | succ i => exact .pending _

/-- What a job yields in turn is what it yields with some schedule. -/
theorem Yields.of_inTurn {j : Job τ κ ρ ω} (hj : ClaimsAll j) (h : Yields j.inTurn t o)
    (ho : o ≠ .pending) : Yields j t o := by
  induction hj generalizing t with
  | done r => exact h
  | crash => exact h
  | clock _ ih =>
    cases h with
    | pending => exact absurd rfl ho
    | clock reading rest => exact .clock reading (ih reading rest)
  | call _ ih =>
    cases h with
    | pending => exact absurd rfl ho
    | call reply late rest => exact .call reply late (ih reply rest)
  | sleep _ ih =>
    cases h with
    | pending => exact absurd rfl ho
    | sleep rest => exact .sleep (ih rest)
  | @fan workers stops count task next never _ ih =>
    rcases of_eachInTurn never h ho with ⟨results, t₁, t₂, rfl, hlen, ⟨parts, mixed, ran, idle⟩, hnext⟩ |
      ⟨rfl, parts, mixed, ends, ran, i, hi⟩
    · have result {i : Nat} {r : ω} (hr : (results.map some)[i]? = some (some r)) :
          results[i]? = some r := by simpa [List.getElem?_map] using hr
      refine .fan (results.map some) parts (by simpa using hlen) (fun i r hr => ?_)
        (fun i hi => by simp [List.getElem?_map] at hi) (fun i hi => idle i ?_) mixed (ih _ ?_)
      · simpa using ran i r (result hr)
      · by_contra hlt
        have hlt : i < results.length := by omega
        exact hi _ (by rw [List.getElem?_map, List.getElem?_eq_getElem hlt]; rfl)
      · simpa using hnext
    · exact .fanOpen parts ends (by simpa using ran) mixed (.inr ⟨rfl, i, hi⟩)

/-- Tasks that have all ended have ended so in turn. -/
theorem Yields.eachInTurn (never : ∀ result, stops result = false) {results : List ω}
    {before : List (Option ω)} {parts : Nat → List (Event κ ρ)}
    (ran : ∀ i r, results[i]? = some r →
      Yields (task (before.length + i)) (parts i) (.result r))
    (hnext : Yields (next (before.reverse ++ results.map some)) t' o) :
    ∃ u, Yields (Job.eachInTurn stops task next results.length before) u o ∧
      ∀ e ∈ u, (∃ i, e ∈ parts i) ∨ e ∈ t' := by
  induction results generalizing before parts with
  | nil => exact ⟨t', by simpa [Job.eachInTurn] using hnext, fun e he => .inr he⟩
  | cons r results ih =>
    obtain ⟨u, hu, hsub⟩ := @ih (some r :: before) (fun i => parts (i + 1))
      (fun i r' hr' => by
        have := ran (i + 1) r' (by simpa using hr')
        rwa [List.length_cons, Nat.add_assoc, Nat.add_comm 1 i])
      (by simpa using hnext)
    refine ⟨parts 0 ++ u, ?_, fun e he => ?_⟩
    · rw [List.length_cons, Job.eachInTurn]
      refine .bind (ran 0 r rfl) ?_
      rwa [if_neg (by simp [never r])]
    · rcases List.mem_append.mp he with he | he
      · exact .inl ⟨0, he⟩
      · exact (hsub e he).imp (fun ⟨i, hi⟩ => ⟨i + 1, hi⟩) id

/-- What a job results in with any schedule, it results in in turn, with calls that it made. -/
theorem Yields.inTurn {j : Job τ κ ρ ω} {result : ω} (hj : ClaimsAll j)
    (h : Yields j t (.result result)) :
    ∃ u, Yields j.inTurn u (.result result) ∧ ∀ e ∈ u, e ∈ t := by
  induction hj generalizing t with
  | done r => exact ⟨t, h, fun _ he => he⟩
  | crash => cases h
  | clock _ ih =>
    cases h with
    | clock reading rest =>
      obtain ⟨u, hu, hsub⟩ := ih reading rest
      exact ⟨u, .clock reading hu, hsub⟩
  | call _ ih =>
    cases h with
    | call reply late rest =>
      obtain ⟨u, hu, hsub⟩ := ih reply rest
      exact ⟨_ :: u, .call reply late hu, fun e he => by
        rcases List.mem_cons.mp he with rfl | he
        · exact List.mem_cons_self
        · exact List.mem_cons_of_mem _ (hsub e he)⟩
  | sleep _ ih =>
    cases h with
    | sleep rest =>
      obtain ⟨u, hu, hsub⟩ := ih rest
      exact ⟨u, .sleep hu, hsub⟩
  | @fan workers stops count task next never _ ih =>
    rcases of_fan never h (by simp) with ⟨results, t₁, t₂, rfl, rfl, ⟨parts, mixed, ran, -⟩, hnext⟩ |
      ⟨ho, -⟩
    · obtain ⟨u₂, hu₂, hsub₂⟩ := ih _ hnext
      obtain ⟨u, hu, hsub⟩ : ∃ u, Yields (Job.eachInTurn stops task (fun results =>
          (next results).inTurn) results.length []) u (.result result) ∧
            ∀ e ∈ u, (∃ i, e ∈ parts i) ∨ e ∈ u₂ := eachInTurn never (by simpa using ran) hu₂
      refine ⟨u, hu, fun e he => List.mem_append.mpr ?_⟩
      exact (hsub e he).imp (mixed.mem_iff e).mpr (hsub₂ e)
    · cases ho

/-! ## Calls -/

variable {C : κ → Option Nat → Prop}

theorem Asks.eachInTurn (htask : ∀ i, (task i).Asks C) (hnext : ∀ results, (next results).Asks C)
    (left : Nat) (before : List (Option ω)) :
    (Job.eachInTurn stops task next left before).Asks C := by
  induction left generalizing before with
  | zero => exact hnext _
  | succ left ih =>
    refine (htask before.length).bind fun result => ?_
    split_ifs
    · exact hnext _
    · exact ih _

/-- A job makes the same kind of calls in turn. -/
theorem Asks.inTurn {j : Job τ κ ρ ω} (h : j.Asks C) : j.inTurn.Asks C := by
  induction h with
  | done result => exact .done result
  | crash => exact .crash
  | clock _ ih => exact .clock ih
  | call holds _ ih => exact .call holds ih
  | sleep _ ih => exact .sleep ih
  | fan tasks _ _ ih => exact .eachInTurn tasks ih _ _

end FlowEngine.Engine.Job
