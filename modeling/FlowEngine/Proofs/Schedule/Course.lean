import FlowEngine.Proofs.Schedule.Ends
import FlowEngine.Proofs.Schedule.Scheduler
import FlowEngine.Proofs.Schedule.Yields

/-!
# The course of a fan-out

A fan-out is followed with a log of what happens to its tasks: one is begun, passed over, or ends
with a result. The log is not part of the program; what can be said of every log is what can be said
of the fan-out at every moment of every schedule.

* `Mark`, `Log` — what happens to the tasks.
* `Crew.Course` — a fan-out under way, with its log.
* `Crew.Stage` — how far a fan-out has come, `Crew.stage_of_steps` with any schedule.
* `Crew.Course.claims`, `Crew.Course.inFlight`, `Crew.Course.recorded` — what the log tells of the
  tasks that are claimed, that are active and that have a result.
* `Crew.Course.begins` — the tasks that are begun come first, and the others are passed over.
-/

namespace FlowEngine.Engine

variable {τ κ ρ ω : Type}

/-! ## Logs -/

/-- What happens to a task of a fan-out. -/
inductive Mark (ω : Type) where
  | begun (index : Nat)
  | skipped (index : Nat)
  | ended (index : Nat) (result : ω)

namespace Mark

/-- The task that is begun. -/
@[simp] def begun? : Mark ω → Option Nat
  | begun i => some i
  | _ => none

/-- The task that is passed over. -/
@[simp] def skipped? : Mark ω → Option Nat
  | skipped i => some i
  | _ => none

/-- The task that is claimed, whether it is begun or passed over. -/
@[simp] def claimed? : Mark ω → Option Nat
  | begun i | skipped i => some i
  | ended _ _ => none

/-- The task that ends. -/
@[simp] def ended? : Mark ω → Option Nat
  | ended i _ => some i
  | _ => none

end Mark

/-- What has happened to the tasks of a fan-out, in order. -/
abbrev Log (ω : Type) := List (Mark ω)

namespace Log

/-- The tasks that were begun, in order. -/
def begun (log : Log ω) : List Nat := log.filterMap Mark.begun?

/-- The tasks that were passed over, in order. -/
def skipped (log : Log ω) : List Nat := log.filterMap Mark.skipped?

/-- The tasks that were claimed, in order. -/
def claimed (log : Log ω) : List Nat := log.filterMap Mark.claimed?

/-- The tasks that have a result, in the order in which they ended. -/
def ended (log : Log ω) : List Nat := log.filterMap Mark.ended?

variable {log : Log ω} {i : Nat}

theorem mem_begun : i ∈ log.begun ↔ .begun i ∈ log := by
  refine List.mem_filterMap.trans ⟨?_, fun h => ⟨_, h, rfl⟩⟩
  rintro ⟨m, hm, hi⟩
  cases m <;> cases hi
  exact hm

theorem mem_skipped : i ∈ log.skipped ↔ .skipped i ∈ log := by
  refine List.mem_filterMap.trans ⟨?_, fun h => ⟨_, h, rfl⟩⟩
  rintro ⟨m, hm, hi⟩
  cases m <;> cases hi
  exact hm

theorem mem_ended : i ∈ log.ended ↔ ∃ r, .ended i r ∈ log := by
  refine List.mem_filterMap.trans ⟨?_, fun ⟨r, h⟩ => ⟨_, h, rfl⟩⟩
  rintro ⟨m, hm, hi⟩
  cases m <;> cases hi
  exact ⟨_, hm⟩

theorem mem_claimed : i ∈ log.claimed ↔ i ∈ log.begun ∨ i ∈ log.skipped := by
  rw [mem_begun, mem_skipped]
  refine List.mem_filterMap.trans ⟨?_, ?_⟩
  · rintro ⟨m, hm, hi⟩
    cases m <;> cases hi
    · exact .inl hm
    · exact .inr hm
  · rintro (h | h)
    · exact ⟨_, h, rfl⟩
    · exact ⟨_, h, rfl⟩

section Append

variable (log) (m : Mark ω)

@[simp] theorem begun_append : begun (log ++ [m]) = log.begun ++ m.begun?.toList := by
  cases m <;> exact List.filterMap_append

@[simp] theorem skipped_append : skipped (log ++ [m]) = log.skipped ++ m.skipped?.toList := by
  cases m <;> exact List.filterMap_append

@[simp] theorem claimed_append : claimed (log ++ [m]) = log.claimed ++ m.claimed?.toList := by
  cases m <;> exact List.filterMap_append

@[simp] theorem ended_append : ended (log ++ [m]) = log.ended ++ m.ended?.toList := by
  cases m <;> exact List.filterMap_append

end Append

end Log

/-! ## Courses -/

theorem Process.Steps.silent {p q r : Process τ κ ρ ω} {t : List (Event κ ρ)} (h : Steps p t q)
    (step : Step q [] r) : Steps p t r := by
  simpa using h.tail step

namespace Crew

/-- A fan-out with a number of workers. -/
def of (workers : Nat) (stops : ω → Bool) (count : Nat) (task : Nat → Job τ κ ρ ω)
    (next : List (Option ω) → Job τ κ ρ ω) : Crew τ κ ρ ω :=
  ⟨min (max workers 1) count, stops, count, task, next⟩

/-- A fan-out under way: what has happened to its tasks, the calls that were made, the active tasks
and the tally. -/
inductive Course (c : Crew τ κ ρ ω) :
    Log ω → List (Event κ ρ) → List (Nat × Process τ κ ρ ω) → Tally ω → Prop
  | opened : Course c [] [] [] (Tally.fresh c.count)
  | claim {log t active tally} (prior : Course c log t active tally)
    (room : active.length < c.limit) (left : tally.claimed < c.count)
    (going : tally.halted = false) :
    Course c (log ++ [.begun tally.claimed]) t
      (active ++ [(tally.claimed, .ready (c.task tally.claimed))]) tally.claim
  | skip {log t active tally} (prior : Course c log t active tally)
    (room : active.length < c.limit) (left : tally.claimed < c.count)
    (halted : tally.halted = true) :
    Course c (log ++ [.skipped tally.claimed]) t active tally.claim
  | work {log t es before after i p q tally}
    (prior : Course c log t (before ++ (i, p) :: after) tally) (step : Process.Step p es q) :
    Course c log (t ++ es) (before ++ (i, q) :: after) tally
  | settle {log t before after i result tally}
    (prior : Course c log t (before ++ (i, .ended result) :: after) tally) :
    Course c (log ++ [.ended i result]) t (before ++ after) (tally.record c.stops i result)

/-- How far a fan-out has come: it is under way, one of its tasks has crashed, or its results were
handed on. -/
inductive Stage (c : Crew τ κ ρ ω) : Log ω → List (Event κ ρ) → Process τ κ ρ ω → Prop
  | going {log t active tally} (course : Course c log t active tally) :
    Stage c log t (c.process active tally)
  | crashed {log t active tally i} (course : Course c log t active tally)
    (failed : (i, .crashed) ∈ active) : Stage c log t .crashed
  | joined {log t u tally q} (course : Course c log t [] tally) (all : c.count ≤ tally.claimed)
    (rest : Process.Steps (.ready (c.next tally.results)) u q) : Stage c log (t ++ u) q

variable {c : Crew τ κ ρ ω} {log : Log ω} {t u es : List (Event κ ρ)}
  {active : List (Nat × Process τ κ ρ ω)} {tally : Tally ω} {p q : Process τ κ ρ ω}

/-- A step of a fan-out is one in its course, or the last one. -/
theorem Course.stage (h : Course c log t active tally)
    (step : Process.Step (c.process active tally) es q) : ∃ log', Stage c log' (t ++ es) q := by
  unfold process at step
  cases step with
  | claim room left going =>
    rw [List.append_nil]
    exact ⟨_, .going (h.claim room left going)⟩
  | skip room left halted =>
    rw [List.append_nil]
    exact ⟨_, .going (h.skip room left halted)⟩
  | work step => exact ⟨_, .going (h.work step)⟩
  | settle =>
    rw [List.append_nil]
    exact ⟨_, .going h.settle⟩
  | fail =>
    rw [List.append_nil]
    exact ⟨_, .crashed h (mem_middle.mpr (.inl rfl))⟩
  | join all => exact ⟨_, .joined h all .refl⟩

theorem Stage.step (h : Stage c log t p) (step : Process.Step p es q) :
    ∃ log', Stage c log' (t ++ es) q := by
  cases h with
  | going course => exact course.stage step
  | crashed => cases step
  | joined course all rest =>
    rw [List.append_assoc]
    exact ⟨_, .joined course all (.tail rest step)⟩

theorem Stage.steps (h : Stage c log t p) (steps : Process.Steps p u q) :
    ∃ log', Stage c log' (t ++ u) q := by
  induction steps with
  | refl => exact ⟨log, by rwa [List.append_nil]⟩
  | tail _ step ih =>
    obtain ⟨log', h'⟩ := ih
    rw [← List.append_assoc]
    exact h'.step step

/-- Whatever the schedule, a fan-out is at one of its stages once it has begun. -/
theorem stage_of_steps {workers count : Nat} {stops : ω → Bool} {task : Nat → Job τ κ ρ ω}
    {next : List (Option ω) → Job τ κ ρ ω}
    (h : Process.Steps (.ready (.fan workers stops count task next)) t q) :
    t = [] ∧ q = .ready (.fan workers stops count task next) ∨
      ∃ log, Stage (Crew.of workers stops count task next) log t q := by
  induction h with
  | refl => exact .inl ⟨rfl, rfl⟩
  | tail _ step ih =>
    right
    rcases ih with ⟨rfl, rfl⟩ | ⟨log, h⟩
    · cases step with
      | fan => exact ⟨[], .going .opened⟩
    · exact h.step step

/-! ## What a log tells -/

namespace Course

/-- A course is one of the schedules. -/
theorem steps (h : Course c log t active tally) :
    Process.Steps (c.process [] (Tally.fresh c.count)) t (c.process active tally) := by
  induction h with
  | opened => exact .refl
  | claim _ room left going ih => exact .silent ih (.claim room left going)
  | skip _ room left halted ih => exact .silent ih (.skip room left halted)
  | work _ step ih => exact .tail ih (.work step)
  | settle _ ih => exact .silent ih .settle

/-- Where the tasks stand. -/
theorem tallied (h : Course c log t active tally) :
    Job.Tallied c.stops c.count (active.map Prod.fst) tally fun _ => ([] : List (Event κ ρ)) := by
  induction h with
  | opened => exact .fresh
  | claim _ _ left _ ih => simpa using ih.claim left
  | skip _ _ _ halted ih => exact ih.skip halted
  | work _ _ ih => simpa using ih
  | @settle _ _ before after i r _ _ ih =>
    rw [List.map_append, List.map_cons] at ih
    rw [List.map_append]
    exact ih.settle r

/-- There are never more active tasks than workers. -/
theorem bounded (h : Course c log t active tally) : active.length ≤ c.limit := by
  induction h with
  | opened => exact Nat.zero_le _
  | claim _ room _ _ _ => rw [List.length_append]; exact room
  | skip _ _ _ _ ih => exact ih
  | work _ _ ih => simpa using ih
  | settle _ ih => simp only [List.length_append, List.length_cons] at ih ⊢; omega

/-- Tasks are claimed in order. -/
theorem claims (h : Course c log t active tally) :
    log.claimed = List.range tally.claimed ∧ tally.claimed ≤ c.count := by
  induction h with
  | opened => exact ⟨rfl, Nat.zero_le _⟩
  | claim _ _ left _ ih | skip _ _ left _ ih =>
    exact ⟨by simp [Tally.claim, ih.1, List.range_succ], left⟩
  | work _ _ ih => exact ih
  | settle _ ih => exact ⟨by simp [Tally.record, ih.1], ih.2⟩

/-- A task is claimed once all tasks before it are. -/
theorem claims_before (h : Course c log t active tally) {before after : Log ω} {m : Mark ω} {i : Nat}
    (hm : m.claimed? = some i) (hlog : log = before ++ m :: after) :
    before.claimed = List.range i := by
  have hall : before.claimed ++ i :: after.claimed = List.range tally.claimed := by
    rw [← h.claims.1, hlog]
    simp only [Log.claimed, List.filterMap_append, List.filterMap_cons_some hm]
  have hlen : before.claimed.length < tally.claimed := by
    have := congrArg List.length hall
    simp only [List.length_append, List.length_cons, List.length_range] at this
    omega
  have hi : (List.range tally.claimed)[before.claimed.length]? = some i := by simp [← hall]
  obtain rfl : before.claimed.length = i := by simpa [List.getElem?_range, hlen] using hi
  calc before.claimed
    _ = (before.claimed ++ before.claimed.length :: after.claimed).take before.claimed.length := by
      simp
    _ = List.range before.claimed.length := by
      rw [hall, List.take_range, Nat.min_eq_left (Nat.le_of_lt hlen)]

/-- A task has a result in the tally if it has ended with it. -/
theorem recorded (h : Course c log t active tally) (i : Nat) (r : ω) :
    tally.results[i]? = some (some r) ↔ .ended i r ∈ log := by
  induction h with
  | opened => simp [Tally.fresh, List.getElem?_replicate]
  | claim _ _ _ _ ih | skip _ _ _ _ ih => simpa [Tally.claim] using ih
  | work _ _ ih => exact ih
  | @settle log _ before after j r' tally prior ih =>
    have hj := (prior.tallied.claimed j (by simp)).2
    have hlt : j < tally.results.length := (List.getElem?_eq_some_iff.mp hj).1
    simp only [Tally.record, List.getElem?_set, List.mem_append, List.mem_singleton,
      Mark.ended.injEq, ← ih]
    by_cases hij : j = i
    · subst hij
      rw [if_pos rfl, if_pos hlt, hj]
      simp [eq_comm]
    · simp [hij, Ne.symm hij]

/-- The next task has not ended. -/
theorem next_open (h : Course c log t active tally) : tally.claimed ∉ log.ended := fun hm => by
  obtain ⟨r, hr⟩ := Log.mem_ended.mp hm
  exact absurd (h.tallied.ended _ r ((h.recorded _ r).mpr hr)) (Nat.lt_irrefl _)

/-- The active tasks are those that were begun and have not ended. -/
theorem inFlight (h : Course c log t active tally) (i : Nat) :
    i ∈ active.map Prod.fst ↔ i ∈ log.begun ∧ i ∉ log.ended := by
  induction h with
  | opened => simp [Log.begun]
  | @claim log _ active tally prior _ left _ ih =>
    have hopen := prior.next_open
    simp only [List.map_append, List.map_cons, List.map_nil, List.mem_append, ih, Log.begun_append,
      Log.ended_append, Mark.begun?, Mark.ended?, Option.toList, List.append_nil,
      List.mem_singleton]
    by_cases hi : i = tally.claimed
    · subst hi
      simp [hopen]
    · simp [hi]
  | skip _ _ _ _ ih => simpa using ih
  | work _ _ ih => simpa using ih
  | @settle log _ before after j r tally prior ih =>
    -- the task that has ended is not active any more, since it was so only once
    have hd := prior.tallied.distinct
    rw [List.map_append, List.map_cons] at hd ih
    have hj := (List.nodup_cons.mp (List.nodup_middle.mp hd)).1
    simp only [List.mem_append, List.mem_cons, not_or] at ih hj
    simp only [List.map_append, List.mem_append, Log.begun_append, Log.ended_append, Mark.begun?,
      Mark.ended?, Option.toList, List.append_nil, List.mem_singleton, not_or, ← and_assoc, ← ih]
    by_cases hi : i = j
    · subst hi
      simp [hj]
    · simp [hi]

/-- A task that has ended was begun. -/
theorem begun_of_ended (h : Course c log t active tally) {i : Nat} (hi : i ∈ log.ended) :
    i ∈ log.begun := by
  induction h with
  | opened => cases hi
  | claim _ _ _ _ ih | skip _ _ _ _ ih =>
    rw [Log.begun_append]
    exact List.mem_append_left _ (ih (by simpa using hi))
  | work _ _ ih => exact ih hi
  | settle prior ih =>
    rw [Log.begun_append]
    refine List.mem_append_left _ ?_
    rcases List.mem_append.mp (Log.ended_append .. ▸ hi) with hi | hi
    · exact ih hi
    · cases List.mem_singleton.mp hi
      exact ((prior.inFlight _).mp (by simp)).1

/-- When no task is active, those that were begun have ended. -/
theorem ended_of_begun (h : Course c log t [] tally) {i : Nat} (hi : i ∈ log.begun) :
    i ∈ log.ended := by
  by_contra hn
  exact absurd ((h.inFlight i).mpr ⟨hi, hn⟩) List.not_mem_nil

/-- A task that has ended is one of the fan-out. -/
theorem lt_of_ended (h : Course c log t active tally) {i : Nat} {r : ω} (hr : .ended i r ∈ log) :
    i < c.count :=
  Nat.lt_of_lt_of_le (h.tallied.ended i r ((h.recorded i r).mpr hr)) h.claims.2

/-- A task ends once. -/
theorem ended_nodup (h : Course c log t active tally) : log.ended.Nodup := by
  induction h with
  | opened => exact List.nodup_nil
  | claim _ _ _ _ ih | skip _ _ _ _ ih => simpa using ih
  | work _ _ ih => exact ih
  | @settle log _ before after j r tally prior ih =>
    have hj := ((prior.inFlight j).mp (by simp)).2
    rw [Log.ended_append]
    exact List.nodup_append.mpr ⟨ih, List.nodup_singleton _, fun a ha b hb => by
      rintro rfl
      rw [Mark.ended?, Option.toList, List.mem_singleton] at hb
      exact hj (hb ▸ ha)⟩

/-- An active task is one under way. -/
theorem under (h : Course c log t active tally) {i : Nat} {p : Process τ κ ρ ω}
    (hp : (i, p) ∈ active) : ∃ u, Process.Steps (.ready (c.task i)) u p := by
  induction h generalizing i p with
  | opened => cases hp
  | claim _ _ _ _ ih =>
    rcases List.mem_append.mp hp with hp | hp
    · exact ih hp
    · cases List.mem_singleton.mp hp
      exact ⟨[], .refl⟩
  | skip _ _ _ _ ih => exact ih hp
  | work _ step ih =>
    rcases mem_middle.mp hp with hp | hp
    · cases hp
      obtain ⟨u, hu⟩ := ih (mem_middle.mpr (.inl rfl))
      exact ⟨_, .tail hu step⟩
    · exact ih (mem_middle.mpr (.inr hp))
  | settle _ ih => exact ih (mem_middle.mpr (.inr hp))

/-- A task ends with a result of its own. -/
theorem own (h : Course c log t active tally) {i : Nat} {r : ω} (hr : .ended i r ∈ log) :
    ∃ u, (c.task i).Runs u (.result r) := by
  induction h with
  | opened => cases hr
  | claim _ _ _ _ ih | skip _ _ _ _ ih =>
    rcases List.mem_append.mp hr with hr | hr
    · exact ih hr
    · cases List.mem_singleton.mp hr
  | work _ _ ih => exact ih hr
  | settle prior ih =>
    rcases List.mem_append.mp hr with hr | hr
    · exact ih hr
    · cases List.mem_singleton.mp hr
      obtain ⟨u, hu⟩ := prior.under (mem_middle.mpr (.inl rfl))
      exact ⟨u, _, hu, rfl⟩

/-- The tasks that are begun come first, and the others are passed over, which happens only once
tasks are not begun any more. -/
theorem begins (h : Course c log t active tally) :
    ∃ k skipped, tally.claimed = k + skipped ∧ log.begun = List.range k ∧
      log.skipped = List.range' k skipped ∧ (tally.halted = false → skipped = 0) := by
  induction h with
  | opened => exact ⟨0, 0, rfl, rfl, rfl, fun _ => rfl⟩
  | claim _ _ _ going ih =>
    obtain ⟨k, n, hk, hb, hs, hn⟩ := ih
    obtain rfl := hn going
    exact ⟨k + 1, 0, by simp [Tally.claim, hk], by simp [hb, hk, List.range_succ],
      by simpa using hs, fun _ => rfl⟩
  | skip _ _ _ halted ih =>
    obtain ⟨k, n, hk, hb, hs, -⟩ := ih
    refine ⟨k, n + 1, by simp [Tally.claim, hk, Nat.add_assoc], by simpa using hb, ?_,
      fun h => by simp [Tally.claim, halted] at h⟩
    simp [hs, hk, List.range'_concat]
  | work _ _ ih => exact ih
  | settle _ ih =>
    obtain ⟨k, n, hk, hb, hs, hn⟩ := ih
    -- the flag is never taken back
    exact ⟨k, n, hk, by simpa using hb, by simpa using hs,
      fun h => hn (Bool.or_eq_false_iff.mp h).1⟩

/-- A task is passed over only if an earlier one has a result that stops. -/
theorem skipped_after (h : Course c log t active tally) {i : Nat} (hi : i ∈ log.skipped) :
    ∃ j r, j < i ∧ .ended j r ∈ log ∧ c.stops r = true := by
  induction h with
  | opened => cases hi
  | claim _ _ _ _ ih | settle _ ih =>
    obtain ⟨j, r, hj, hr, hs⟩ := ih (by simpa using hi)
    exact ⟨j, r, hj, List.mem_append_left _ hr, hs⟩
  | skip prior _ _ halted ih =>
    rw [Log.skipped_append, Mark.skipped?, Option.toList, List.mem_append, List.mem_singleton] at hi
    rcases hi with hi | rfl
    · obtain ⟨j, r, hj, hr, hs⟩ := ih hi
      exact ⟨j, r, hj, List.mem_append_left _ hr, hs⟩
    · obtain ⟨j, r, hj, hr, hs⟩ := prior.tallied.halted halted
      exact ⟨j, r, hj, List.mem_append_left _ ((prior.recorded j r).mp hr), hs⟩
  | work _ _ ih => exact ih hi

end Course

end Crew

end FlowEngine.Engine
