import FlowEngine.Engine.Activity
import Mathlib.Data.List.Basic

/-!
# Schedules

A job can be carried out in many ways: the world answers, and of the workers of a fan-out any one
may go on at any time. A process is a job under way, and one step of it is whatever one worker does
next.

* `Process.Step` — one step, with the calls that it makes.
* `Job.Runs` — a job carried out in some way, perhaps not to its end, with all its calls in order.
* `Interleaves` — a list is put together from the lists of its parts, as what the tasks of a fan-out do is
  put together in the order in which it happened.
* `Interleaves.mem_iff`, `Interleaves.filter_eq` — what is left of the parts in the whole.

The scheduler of `Engine.Activity` chooses one of these ways.
-/

namespace FlowEngine.Engine

variable {τ κ ρ ω : Type}

/-- A call that was made, and the reply, which is missing if the time ran out. -/
structure Event (κ ρ : Type) where
  call : κ
  reply : Option ρ
  deriving DecidableEq

/-- How far a job has come: it has a result, the program has ended, or it is under way. -/
inductive Outcome (ω : Type) where
  | result (result : ω)
  | crash
  | pending

/-- A job under way. Of the tasks of a fan-out, at most `limit` are claimed and not finished. -/
inductive Process (τ κ ρ ω : Type) where
  | ready (job : Job τ κ ρ ω)
  | ended (result : ω)
  | crashed
  | fanned (limit : Nat) (active : List (Nat × Process τ κ ρ ω)) (tally : Tally ω)
    (stops : ω → Bool) (count : Nat) (task : Nat → Job τ κ ρ ω)
    (next : List (Option ω) → Job τ κ ρ ω)

/-- An active task is the one that goes on, or another one. -/
theorem mem_middle {α : Type} {x y : α} {before after : List α} :
    x ∈ before ++ y :: after ↔ x = y ∨ x ∈ before ++ after :=
  List.perm_middle.mem_iff.trans List.mem_cons

namespace Process

/-- How far a process has come. -/
def outcome : Process τ κ ρ ω → Outcome ω
  | ended result => .result result
  | crashed => .crash
  | _ => .pending

/-- One step of a process.

* The clock may show anything, any reply may come, and it may be missing if there is a limit.
* A worker that is free claims the next task, or skips it after a task with a result that stops.
* Any worker may go on (`work`); a finished one records its result and is free (`settle`).
* Results are handed on when all tasks are claimed and none is active. -/
inductive Step : Process τ κ ρ ω → List (Event κ ρ) → Process τ κ ρ ω → Prop
  | done (result) : Step (ready (.done result)) [] (ended result)
  | crash : Step (ready .crash) [] crashed
  | clock (next) (reading : Reading τ) : Step (ready (.clock next)) [] (ready (next reading))
  | call (call limit next) (reply : Option ρ) (late : reply = none → limit.isSome) :
    Step (ready (.call call limit next)) [⟨call, reply⟩] (ready (next reply))
  | sleep (nanos jitter next) : Step (ready (.sleep nanos jitter next)) [] (ready next)
  | fan (workers stops count task next) :
    Step (ready (.fan workers stops count task next)) []
      (fanned (min (max workers 1) count) [] (Tally.fresh count) stops count task next)
  | claim {limit active tally stops count task next} (room : active.length < limit)
    (left : tally.claimed < count) (going : tally.halted = false) :
    Step (fanned limit active tally stops count task next) []
      (fanned limit (active ++ [(tally.claimed, ready (task tally.claimed))]) tally.claim stops
        count task next)
  | skip {limit active tally stops count task next} (room : active.length < limit)
    (left : tally.claimed < count) (halted : tally.halted = true) :
    Step (fanned limit active tally stops count task next) []
      (fanned limit active tally.claim stops count task next)
  | work {limit before after tally stops count task next i p es p'} (step : Step p es p') :
    Step (fanned limit (before ++ (i, p) :: after) tally stops count task next) es
      (fanned limit (before ++ (i, p') :: after) tally stops count task next)
  | settle {limit before after tally stops count task next i result} :
    Step (fanned limit (before ++ (i, ended result) :: after) tally stops count task next) []
      (fanned limit (before ++ after) (tally.record stops i result) stops count task next)
  | fail {limit before after tally stops count task next i} :
    Step (fanned limit (before ++ (i, crashed) :: after) tally stops count task next) [] crashed
  | join {limit tally stops count task next} (all : count ≤ tally.claimed) :
    Step (fanned limit [] tally stops count task next) [] (ready (next tally.results))

/-- Any number of steps, with all calls in order. -/
inductive Steps (p : Process τ κ ρ ω) : List (Event κ ρ) → Process τ κ ρ ω → Prop
  | refl : Steps p [] p
  | tail {t q es r} (steps : Steps p t q) (step : Step q es r) : Steps p (t ++ es) r

theorem Steps.single {p q : Process τ κ ρ ω} {es : List (Event κ ρ)} (h : Step p es q) :
    Steps p es q := .tail .refl h

theorem Steps.trans {p q r : Process τ κ ρ ω} {t u : List (Event κ ρ)} (h : Steps p t q)
    (h' : Steps q u r) : Steps p (t ++ u) r := by
  induction h' with
  | refl => simpa using h
  | tail _ step ih => rw [← List.append_assoc]; exact .tail ih step

/-- A worker of a fan-out makes its own steps. -/
theorem Steps.work {p p' : Process τ κ ρ ω} {t : List (Event κ ρ)} (h : Steps p t p')
    {limit : Nat} {before after : List (Nat × Process τ κ ρ ω)} {tally : Tally ω}
    {stops : ω → Bool} {count i : Nat} {task : Nat → Job τ κ ρ ω}
    {next : List (Option ω) → Job τ κ ρ ω} :
    Steps (fanned limit (before ++ (i, p) :: after) tally stops count task next) t
      (fanned limit (before ++ (i, p') :: after) tally stops count task next) := by
  induction h with
  | refl => exact .refl
  | tail _ step ih => exact .tail ih (.work step)

end Process

/-- A job carried out in some way, with the calls that it has made in their order. -/
def Job.Runs (j : Job τ κ ρ ω) (t : List (Event κ ρ)) (o : Outcome ω) : Prop :=
  ∃ p, Process.Steps (.ready j) t p ∧ p.outcome = o

/-! ## Interleavings -/

section

variable {ε : Type}

/-- A list is put together from lists of parts: its elements can be tagged with the indices of the
parts so that those of one tag are, in their order, the list of this part. -/
def Interleaves (parts : Nat → List ε) (t : List ε) : Prop :=
  ∃ tagged : List (Nat × ε), tagged.map Prod.snd = t ∧
    ∀ i, (tagged.filter fun e => e.1 == i).map Prod.snd = parts i

namespace Interleaves

variable {parts parts' : Nat → List ε} {t t' : List ε}

theorem nil : Interleaves (fun _ => []) ([] : List ε) := ⟨[], rfl, fun _ => rfl⟩

theorem append (h : Interleaves parts t) (h' : Interleaves parts' t') :
    Interleaves (fun i => parts i ++ parts' i) (t ++ t') := by
  obtain ⟨l, rfl, hl⟩ := h
  obtain ⟨l', rfl, hl'⟩ := h'
  exact ⟨l ++ l', by simp, fun i => by simp [← hl, ← hl']⟩

/-- One part alone. -/
theorem single (i : Nat) (t : List ε) : Interleaves (fun j => if j = i then t else []) t := by
  refine ⟨t.map fun e => (i, e), by simp [Function.comp_def], fun j => ?_⟩
  rw [List.filter_map]
  by_cases h : j = i
  · subst h; simp [Function.comp_def]
  · simp [Function.comp_def, h, Ne.symm h]

/-- A part goes on. -/
theorem extend (h : Interleaves parts t) (i : Nat) (es : List ε) :
    Interleaves (fun j => parts j ++ if j = i then es else []) (t ++ es) :=
  h.append (single i es)

/-- A part before all others. -/
theorem cons (h : Interleaves parts t) (first : List ε) :
    Interleaves (fun | 0 => first | i + 1 => parts i) (first ++ t) := by
  obtain ⟨l, rfl, hl⟩ := h
  refine ⟨first.map (fun e => (0, e)) ++ l.map fun e => (e.1 + 1, e.2),
    by simp [Function.comp_def], fun i => ?_⟩
  rw [List.filter_append, List.filter_map, List.filter_map]
  cases i with
  | zero => simp [Function.comp_def]
  | succ i => simp [Function.comp_def, ← hl i]

theorem mem_iff (h : Interleaves parts t) (e : ε) : e ∈ t ↔ ∃ i, e ∈ parts i := by
  obtain ⟨l, rfl, hl⟩ := h
  constructor
  · intro he
    obtain ⟨⟨i, _⟩, hi, rfl⟩ := List.mem_map.mp he
    exact ⟨i, by rw [← hl i]; exact List.mem_map.mpr ⟨_, by simp [hi], rfl⟩⟩
  · rintro ⟨i, hi⟩
    rw [← hl i] at hi
    obtain ⟨e, he, rfl⟩ := List.mem_map.mp hi
    exact List.mem_map.mpr ⟨e, (List.mem_filter.mp he).1, rfl⟩

/-- What only one part has stands in the whole as it stands in the part. -/
theorem filter_eq (h : Interleaves parts t) {p : ε → Bool} {i : Nat}
    (hp : ∀ j, j ≠ i → ∀ e ∈ parts j, p e = false) : t.filter p = (parts i).filter p := by
  obtain ⟨l, rfl, hl⟩ := h
  have key : l.filter (p ∘ Prod.snd) =
      (l.filter fun e => e.1 == i).filter (p ∘ Prod.snd) := by
    rw [List.filter_filter]
    refine List.filter_congr fun e he => ?_
    by_cases hi : e.1 = i
    · simp [hi]
    · have : e.2 ∈ parts e.1 := by
        rw [← hl]; exact List.mem_map.mpr ⟨e, by simp [he], rfl⟩
      simp [hp _ hi _ this]
  rw [← hl i, List.filter_map, List.filter_map, key]

end Interleaves

end

end FlowEngine.Engine
