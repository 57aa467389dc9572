import FlowEngine.Proofs.Schedule.Process
import Mathlib.Tactic.SplitIfs

/-!
# How jobs end

A job has no schedule without an end, since every answer leads further down a tree. When every call
that it may make has an answer, it is never stuck either, and then each schedule leads to a result or
to a crash. So it is in particular if the answers are replies that are fixed beforehand, one after the
other.

* `Process.Ends` — however a process goes on, it ends with a result of some kind.
* `Process.Finishes` — however a process goes on, it comes to an end of some kind, perhaps a crash.
* `Process.acc` — no process goes on forever.
* `Job.Asks` — the calls that a job may make are of some kind.
* `Job.ends`, `Job.finishes` — a job ends in some way if its complete runs do.
* `RepliesInOrder`, `Job.completes` — a job with replies in order can be carried out to its end.
-/

namespace FlowEngine.Engine

variable {τ κ ρ ω : Type}

namespace Process

/-- However a process goes on with events of some kind, it ends with a result of some kind. -/
inductive Ends (A : Event κ ρ → Prop) (Q : ω → Prop) : Process τ κ ρ ω → Prop
  | result {r} (holds : Q r) : Ends A Q (ended r)
  | step {p} (going : ∃ es q, Step p es q ∧ ∀ e ∈ es, A e)
    (ends : ∀ es q, Step p es q → (∀ e ∈ es, A e) → Ends A Q q) : Ends A Q p

theorem Ends.mono {A : Event κ ρ → Prop} {Q Q' : ω → Prop} {p : Process τ κ ρ ω} (h : Ends A Q p)
    (hQ : ∀ r, Q r → Q' r) : Ends A Q' p := by
  induction h with
  | result holds => exact .result (hQ _ holds)
  | step going _ ih => exact .step going ih

/-- However a process goes on with events of some kind, it comes to an end of some kind. -/
inductive Finishes (A : Event κ ρ → Prop) (Q : Outcome ω → Prop) : Process τ κ ρ ω → Prop
  | stopped {p} (ended : p.outcome ≠ .pending) (holds : Q p.outcome) : Finishes A Q p
  | step {p} (going : ∃ es q, Step p es q ∧ ∀ e ∈ es, A e)
    (ends : ∀ es q, Step p es q → (∀ e ∈ es, A e) → Finishes A Q q) : Finishes A Q p

/-- A process that cannot crash ends with a result. -/
theorem Finishes.ends {A : Event κ ρ → Prop} {Q : ω → Prop} {p : Process τ κ ρ ω}
    (h : Finishes A (fun o => ∃ r, o = .result r ∧ Q r) p) : Ends A Q p := by
  induction h with
  | @stopped p _ holds =>
    obtain ⟨r, hr, hQ⟩ := holds
    cases p with
    | ended r' => cases hr; exact .result hQ
    | _ => cases hr
  | step going _ ih => exact .step going ih

/-- A process that comes to an end can be carried out to it. -/
theorem Finishes.complete {A : Event κ ρ → Prop} {Q : Outcome ω → Prop} {p : Process τ κ ρ ω}
    (h : Finishes A Q p) :
    ∃ t q, Steps p t q ∧ (∀ e ∈ t, A e) ∧ q.outcome ≠ .pending ∧ Q q.outcome := by
  induction h with
  | stopped ended holds => exact ⟨[], _, .refl, by simp, ended, holds⟩
  | step going _ ih =>
    obtain ⟨es, q, step, hes⟩ := going
    obtain ⟨t, q', steps, ht, hend⟩ := ih es q step hes
    refine ⟨es ++ t, q', (Steps.single step).trans steps, fun e he => ?_, hend⟩
    exact (List.mem_append.mp he).elim (hes e) (ht e)

/-! ## No process goes on forever -/

/-- A process is one step after another one. -/
def After (q p : Process τ κ ρ ω) : Prop := ∃ es, Step p es q

/-- One of the active tasks of a fan-out has gone on, or has left. -/
inductive AfterAll : List (Nat × Process τ κ ρ ω) → List (Nat × Process τ κ ρ ω) → Prop
  | work {before after i p q} (step : After q p) :
    AfterAll (before ++ (i, q) :: after) (before ++ (i, p) :: after)
  | leave {before after i p} : AfterAll (before ++ after) (before ++ (i, p) :: after)

theorem acc_cons {i : Nat} {p : Process τ κ ρ ω} {active : List (Nat × Process τ κ ρ ω)}
    (hp : Acc After p) (ha : Acc AfterAll active) : Acc AfterAll ((i, p) :: active) := by
  induction hp generalizing active with
  | intro p _ ihp =>
    induction ha with
    | intro active hactive iha =>
      refine ⟨_, fun smaller h => ?_⟩
      generalize hall : (i, p) :: active = all at h
      cases h with
      | @work before after j p' q step =>
        rcases before with _ | ⟨x, before⟩
        · cases hall
          exact ihp q step ⟨_, hactive⟩
        · cases hall
          exact iha _ (.work step)
      | @leave before after j p' =>
        rcases before with _ | ⟨x, before⟩
        · cases hall
          exact ⟨_, hactive⟩
        · cases hall
          exact iha _ .leave

theorem acc_all {active : List (Nat × Process τ κ ρ ω)} (h : ∀ x ∈ active, Acc After x.2) :
    Acc AfterAll active := by
  induction active with
  | nil =>
    refine ⟨_, fun smaller h => ?_⟩
    generalize hall : ([] : List (Nat × Process τ κ ρ ω)) = all at h
    cases h <;> simp at hall
  | cons x active ih =>
    exact acc_cons (h x List.mem_cons_self) (ih fun y hy => h y (List.mem_cons_of_mem _ hy))

/-- A fan-out comes to an end if its tasks and what follows them do: tasks are claimed only so many
times, and in between the active ones go on or leave. -/
theorem acc_fanned {limit count : Nat} {stops : ω → Bool} {task : Nat → Job τ κ ρ ω}
    {next : List (Option ω) → Job τ κ ρ ω} (htask : ∀ i, Acc After (ready (task i)))
    (hnext : ∀ results, Acc After (ready (next results)))
    {active : List (Nat × Process τ κ ρ ω)} (hactive : ∀ x ∈ active, Acc After x.2)
    (tally : Tally ω) : Acc After (fanned limit active tally stops count task next) := by
  induction hleft : count - tally.claimed using Nat.strongRecOn generalizing active tally with
  | ind left ihleft =>
    induction acc_all hactive generalizing tally with
    | intro active _ ihactive =>
      refine ⟨_, fun q ⟨es, h⟩ => ?_⟩
      cases h with
      | claim room left going =>
        refine ihleft (count - tally.claim.claimed) ?_ (fun x hx => ?_) tally.claim rfl
        · simp only [Tally.claim]; omega
        · rcases List.mem_append.mp hx with hx | hx
          · exact hactive x hx
          · rw [List.mem_singleton.mp hx]
            exact htask _
      | skip room left halted =>
        refine ihleft (count - tally.claim.claimed) ?_ hactive tally.claim rfl
        simp only [Tally.claim]; omega
      | @work _ _ _ _ _ _ _ _ i p es p' step =>
        refine ihactive _ (.work ⟨es, step⟩) (fun x hx => ?_) tally hleft
        rcases mem_middle.mp hx with rfl | hx
        · exact (hactive (i, p) (mem_middle.mpr (.inl rfl))).inv ⟨es, step⟩
        · exact hactive x (mem_middle.mpr (.inr hx))
      | @settle _ _ _ _ _ _ _ _ i r =>
        exact ihactive _ .leave (fun x hx => hactive x (mem_middle.mpr (.inr hx)))
          (tally.record stops i r) hleft
      | fail => exact ⟨_, fun q ⟨_, h⟩ => by cases h⟩
      | join all => exact hnext _

theorem acc_ready (j : Job τ κ ρ ω) : Acc After (ready j) := by
  induction j with
  | done r => exact ⟨_, fun q ⟨_, h⟩ => by cases h; exact ⟨_, fun q ⟨_, h⟩ => by cases h⟩⟩
  | crash => exact ⟨_, fun q ⟨_, h⟩ => by cases h; exact ⟨_, fun q ⟨_, h⟩ => by cases h⟩⟩
  | clock next ih => exact ⟨_, fun q ⟨_, h⟩ => by cases h; exact ih _⟩
  | call c limit next ih => exact ⟨_, fun q ⟨_, h⟩ => by cases h; exact ih _⟩
  | sleep nanos jitter next ih => exact ⟨_, fun q ⟨_, h⟩ => by cases h; exact ih⟩
  | fan workers stops count task next ihtask ihnext =>
    refine ⟨_, fun q ⟨_, h⟩ => ?_⟩
    cases h
    exact acc_fanned ihtask ihnext (by simp) _

end Process

/-! ## Calls -/

namespace Job

/-- All calls that a job may make are of some kind, with their limits. -/
inductive Asks (C : κ → Option Nat → Prop) : Job τ κ ρ ω → Prop
  | done (result) : Asks C (.done result)
  | crash : Asks C .crash
  | clock {next} (rest : ∀ reading, Asks C (next reading)) : Asks C (.clock next)
  | call {call limit next} (holds : C call limit) (rest : ∀ reply, Asks C (next reply)) :
    Asks C (.call call limit next)
  | sleep {nanos jitter next} (rest : Asks C next) : Asks C (.sleep nanos jitter next)
  | fan {workers stops count task next} (tasks : ∀ i, Asks C (task i))
    (rest : ∀ results, Asks C (next results)) : Asks C (.fan workers stops count task next)

variable {C : κ → Option Nat → Prop}

theorem Asks.bind {j : Job τ κ ρ ω} {f : ω → Job τ κ ρ ω} (h : j.Asks C)
    (hf : ∀ result, (f result).Asks C) : (j.bind f).Asks C := by
  induction h with
  | done result => exact hf result
  | crash => exact .crash
  | clock _ ih => exact .clock ih
  | call holds _ ih => exact .call holds ih
  | sleep _ ih => exact .sleep ih
  | fan tasks _ _ ih => exact .fan tasks ih

theorem Asks.andThen {ε α : Type} {j : Job τ κ ρ (Except ε α)} {f : α → Job τ κ ρ (Except ε α)}
    (h : j.Asks C) (hf : ∀ a, (f a).Asks C) : (j.andThen f).Asks C := by
  refine h.bind fun result => ?_
  cases result with
  | ok a => exact hf a
  | error e => exact .done _

end Job

/-! ## No process is stuck -/

namespace Process

variable {C : κ → Option Nat → Prop}

/-- The calls that a process may make are of some kind, and its fan-outs have workers. -/
inductive Live (C : κ → Option Nat → Prop) : Process τ κ ρ ω → Prop
  | ready {j} (asks : j.Asks C) : Live C (ready j)
  | ended (result) : Live C (ended result)
  | crashed : Live C crashed
  | fanned {limit active tally stops count task next} (workers : 0 < count → 0 < limit)
    (under : ∀ x ∈ active, Live C x.2) (tasks : ∀ i, (task i).Asks C)
    (rest : ∀ results, (next results).Asks C) :
    Live C (fanned limit active tally stops count task next)

theorem Live.step {p q : Process τ κ ρ ω} {es : List (Event κ ρ)} (h : Live C p)
    (step : Step p es q) : Live C q := by
  induction step with
  | done result => exact .ended result
  | crash => exact .crashed
  | clock next reading =>
    cases h with
    | ready asks => cases asks with | clock rest => exact .ready (rest _)
  | call c limit next reply late =>
    cases h with
    | ready asks => cases asks with | call _ rest => exact .ready (rest _)
  | sleep nanos jitter next =>
    cases h with
    | ready asks => cases asks with | sleep rest => exact .ready rest
  | fan workers stops count task next =>
    cases h with
    | ready asks => cases asks with | fan tasks rest => exact .fanned (by omega) (by simp) tasks rest
  | claim room left going =>
    cases h with
    | fanned workers active tasks rest =>
      refine .fanned workers (fun x hx => ?_) tasks rest
      rcases List.mem_append.mp hx with hx | hx
      · exact active x hx
      · rw [List.mem_singleton.mp hx]
        exact .ready (tasks _)
  | skip room left halted =>
    cases h with | fanned workers active tasks rest => exact .fanned workers active tasks rest
  | work step ih =>
    cases h with
    | fanned workers active tasks rest =>
      refine .fanned workers (fun x hx => ?_) tasks rest
      rcases mem_middle.mp hx with rfl | hx
      · exact ih (active _ (mem_middle.mpr (.inl rfl)))
      · exact active x (mem_middle.mpr (.inr hx))
  | settle =>
    cases h with
    | fanned workers active tasks rest =>
      exact .fanned workers (fun x hx => active x (mem_middle.mpr (.inr hx))) tasks rest
  | fail => exact .crashed
  | join all => cases h with | fanned workers active tasks rest => exact .ready (rest _)

variable {A : Event κ ρ → Prop}

/-- A process that is under way can go on if its calls can be answered. -/
theorem Live.goes [Inhabited τ]
    (hA : ∀ c limit, C c limit → ∃ reply, (reply = none → limit.isSome) ∧ A ⟨c, reply⟩)
    {p : Process τ κ ρ ω} (h : Live C p) (hp : p.outcome = .pending) :
    ∃ es q, Step p es q ∧ ∀ e ∈ es, A e := by
  induction h with
  | @ready j asks =>
    cases asks with
    | done result => exact ⟨[], _, .done result, by simp⟩
    | crash => exact ⟨[], _, .crash, by simp⟩
    | clock rest => exact ⟨[], _, .clock _ default, by simp⟩
    | @call c limit next holds rest =>
      obtain ⟨reply, late, h⟩ := hA c limit holds
      exact ⟨_, _, .call c limit next reply late, by simpa using h⟩
    | sleep rest => exact ⟨[], _, .sleep _ _ _, by simp⟩
    | fan tasks rest => exact ⟨[], _, .fan _ _ _ _ _, by simp⟩
  | ended result => cases hp
  | crashed => cases hp
  | @fanned limit active tally stops count task next workers _ tasks rest ih =>
    rcases active with _ | ⟨⟨i, p⟩, active⟩
    · by_cases hall : count ≤ tally.claimed
      · exact ⟨[], _, .join hall, by simp⟩
      · have hroom : ([] : List (Nat × Process τ κ ρ ω)).length < limit := workers (by omega)
        by_cases hhalted : tally.halted = true
        · exact ⟨[], _, .skip hroom (by omega) hhalted, by simp⟩
        · exact ⟨[], _, .claim hroom (by omega) (by simpa using hhalted), by simp⟩
    · rw [← List.nil_append ((i, p) :: active)]
      cases hq : p.outcome with
      | result r =>
        cases p with
        | ended r' => exact ⟨[], _, .settle, by simp⟩
        | _ => cases hq
      | crash =>
        cases p with
        | crashed => exact ⟨[], _, .fail, by simp⟩
        | _ => cases hq
      | pending =>
        obtain ⟨es, q, step, hes⟩ := ih (i, p) List.mem_cons_self hq
        exact ⟨es, _, .work step, hes⟩

theorem Live.finishes [Inhabited τ]
    (hA : ∀ c limit, C c limit → ∃ reply, (reply = none → limit.isSome) ∧ A ⟨c, reply⟩)
    {Q : Outcome ω → Prop} {p : Process τ κ ρ ω} (hacc : Acc After p) (hlive : Live C p)
    (hQ : ∀ t q, Steps p t q → (∀ e ∈ t, A e) → q.outcome = .pending ∨ Q q.outcome) :
    Finishes A Q p := by
  induction hacc with
  | intro p _ ih =>
    by_cases hp : p.outcome = .pending
    · refine .step (hlive.goes hA hp) fun es q step hes => ?_
      refine ih q ⟨es, step⟩ (hlive.step step) fun t q' steps ht => ?_
      exact hQ (es ++ t) q' ((Steps.single step).trans steps)
        fun e he => (List.mem_append.mp he).elim (hes e) (ht e)
    · exact .stopped hp ((hQ [] p .refl (by simp)).resolve_left hp)

end Process

/-- A job whose calls can be answered comes, with any schedule, to an end to which its complete runs
come. -/
theorem Job.finishes [Inhabited τ] {C : κ → Option Nat → Prop} {A : Event κ ρ → Prop}
    {Q : Outcome ω → Prop}
    (hA : ∀ c limit, C c limit → ∃ reply, (reply = none → limit.isSome) ∧ A ⟨c, reply⟩)
    {j : Job τ κ ρ ω} (hj : j.Asks C)
    (hQ : ∀ t o, j.Runs t o → (∀ e ∈ t, A e) → o = .pending ∨ Q o) :
    Process.Finishes A Q (.ready j) :=
  Process.Live.finishes hA (Process.acc_ready j) (.ready hj) fun t q steps ht =>
    hQ t q.outcome ⟨q, steps, rfl⟩ ht

/-- A job whose calls can be answered ends, with any schedule, in one of the ways in which its
complete runs do. -/
theorem Job.ends [Inhabited τ] {C : κ → Option Nat → Prop} {A : Event κ ρ → Prop} {Q : ω → Prop}
    (hA : ∀ c limit, C c limit → ∃ reply, (reply = none → limit.isSome) ∧ A ⟨c, reply⟩)
    {j : Job τ κ ρ ω} (hj : j.Asks C)
    (hQ : ∀ t o, j.Runs t o → (∀ e ∈ t, A e) → o = .pending ∨ ∃ r, o = .result r ∧ Q r) :
    Process.Ends A Q (.ready j) :=
  (Job.finishes hA hj hQ).ends

/-! ## Replies in order -/

variable {replies : Nat → Option ρ}

/-- The replies of a trace are given ones in their order. -/
def RepliesInOrder (replies : Nat → Option ρ) (t : List (Event κ ρ)) : Prop :=
  ∀ n e, t[n]? = some e → e.reply = replies n

namespace RepliesInOrder

theorem nil : RepliesInOrder replies ([] : List (Event κ ρ)) := by
  intro n e h
  cases h

theorem cons_iff {e : Event κ ρ} {t : List (Event κ ρ)} :
    RepliesInOrder replies (e :: t) ↔ e.reply = replies 0 ∧ RepliesInOrder (fun n => replies (n + 1)) t := by
  constructor
  · intro h
    exact ⟨h 0 e rfl, fun n e' he' => h (n + 1) e' he'⟩
  · rintro ⟨he, ht⟩ n e' he'
    cases n with
    | zero =>
      cases he'
      exact he
    | succ n => exact ht n e' he'

theorem append_one {e : Event κ ρ} {t : List (Event κ ρ)} (h : RepliesInOrder replies t)
    (he : e.reply = replies t.length) : RepliesInOrder replies (t ++ [e]) := by
  intro n e' he'
  rw [List.getElem?_append] at he'
  split_ifs at he' with hn
  · exact h n e' he'
  · rw [List.getElem?_singleton] at he'
    split_ifs at he' with hzero
    cases he'
    rw [he, show n = t.length by omega]

end RepliesInOrder

namespace Process

/-- A step makes at most one call. -/
theorem Step.eq_nil_or_singleton {p q : Process τ κ ρ ω} {es : List (Event κ ρ)} (h : Step p es q) :
    es = [] ∨ ∃ e, es = [e] := by
  induction h with
  | call => exact .inr ⟨_, rfl⟩
  | work _ ih => exact ih
  | _ => exact .inl rfl

/-- A process whose calls are answered in order can be carried out to its end. -/
theorem Live.completes [Inhabited τ] {C : κ → Option Nat → Prop}
    (hC : ∀ c limit, C c limit → ∀ n, replies n = none → limit.isSome) {p : Process τ κ ρ ω}
    (hacc : Acc After p) (hlive : Live C p) {t : List (Event κ ρ)} (ht : RepliesInOrder replies t) :
    ∃ u q, Steps p u q ∧ RepliesInOrder replies (t ++ u) ∧ q.outcome ≠ .pending := by
  induction hacc generalizing t with
  | intro p _ ih =>
    by_cases hp : p.outcome = .pending
    · obtain ⟨es, q, step, hes⟩ := hlive.goes (A := fun e => e.reply = replies t.length)
        (fun c limit hc => ⟨replies t.length, hC c limit hc _, rfl⟩) hp
      have hnext : RepliesInOrder replies (t ++ es) := by
        rcases step.eq_nil_or_singleton with rfl | ⟨e, rfl⟩
        · rw [List.append_nil]
          exact ht
        · exact ht.append_one (hes e List.mem_cons_self)
      obtain ⟨u, q', steps, hu, hend⟩ := ih q ⟨es, step⟩ (hlive.step step) hnext
      refine ⟨es ++ u, q', (Steps.single step).trans steps, ?_, hend⟩
      rw [← List.append_assoc]
      exact hu
    · exact ⟨[], p, .refl, by rwa [List.append_nil], hp⟩

theorem Steps.live {C : κ → Option Nat → Prop} {p q : Process τ κ ρ ω} {t : List (Event κ ρ)}
    (h : Steps p t q) (hlive : Live C p) : Live C q := by
  induction h with
  | refl => exact hlive
  | tail _ step ih => exact ih.step step

theorem Steps.acc {p q : Process τ κ ρ ω} {t : List (Event κ ρ)} (h : Steps p t q)
    (hacc : Acc After p) : Acc After q := by
  induction h with
  | refl => exact hacc
  | tail _ step ih => exact ih.inv ⟨_, step⟩

end Process

/-- However far a job has come while its calls were answered in order, it can be carried out to its
end. -/
theorem Job.completes [Inhabited τ] {C : κ → Option Nat → Prop} {j : Job τ κ ρ ω} (hj : j.Asks C)
    (hC : ∀ c limit, C c limit → ∀ n, replies n = none → limit.isSome) {t : List (Event κ ρ)}
    {p : Process τ κ ρ ω} (h : Process.Steps (.ready j) t p) (ht : RepliesInOrder replies t) :
    ∃ u o, j.Runs (t ++ u) o ∧ RepliesInOrder replies (t ++ u) ∧ o ≠ .pending := by
  obtain ⟨u, q, steps, hu, hend⟩ :=
    (h.live (.ready hj)).completes hC (h.acc (Process.acc_ready j)) ht
  exact ⟨u, q.outcome, ⟨q, h.trans steps, rfl⟩, hu, hend⟩

end FlowEngine.Engine
