import FlowEngine.Engine.Job

/-!
# Activities

An activity is a job under way. It runs until it has to wait for a point in time; when that has
come, it is polled and runs on. The workers of a fan-out are polled in order, and a worker that
finishes a task claims the next one at once.

* `World` — the answers that a job gets.
* `Activity` — a job under way; `Activity.deadline?` the time it waits for.
* `start` — runs a job until it waits.
* `Activity.poll` — runs an activity on at a later time.

Points in time are whole milliseconds. Pauses end at the first one that is not too early.
-/

namespace FlowEngine.Engine

variable {σ τ κ ρ ω : Type}

/-- The answers that a job gets: what the clock shows, how a call is answered and after how many
milliseconds, and how much longer a pause takes than asked for. They depend on a state and may
change it. -/
structure World (σ τ κ ρ : Type) where
  clock : σ → (now : Nat) → Reading τ
  reply : σ → (now : Nat) → κ → σ × Nat × ρ
  stretch : σ → (nanos : Nat) → σ × Nat

/-- The tasks of a fan-out: how many are claimed, whether the others are skipped, and the results so
far. -/
structure Tally (ω : Type) where
  claimed : Nat
  halted : Bool
  results : List (Option ω)
  deriving Inhabited

namespace Tally

/-- No task is claimed. -/
def fresh (count : Nat) : Tally ω := ⟨0, false, List.replicate count none⟩

/-- The next task is claimed. -/
def claim (t : Tally ω) : Tally ω := { t with claimed := t.claimed + 1 }

/-- A task has a result. -/
def record (t : Tally ω) (stops : ω → Bool) (index : Nat) (result : ω) : Tally ω :=
  { t with halted := t.halted || stops result, results := t.results.set index (some result) }

end Tally

/-- A job under way. The workers of a fan-out each have a claimed task that is not finished. -/
inductive Activity (τ κ ρ ω : Type) where
  | finished (result : ω)
  | crashed
  | waiting (deadline : Nat) (next : Job τ κ ρ ω)
  | fanned (workers : List (Nat × Activity τ κ ρ ω)) (tally : Tally ω) (stops : ω → Bool)
    (count : Nat) (task : Nat → Job τ κ ρ ω) (next : List (Option ω) → Job τ κ ρ ω)

namespace Activity

/-- Whether the program has ended. -/
def isCrashed : Activity τ κ ρ ω → Bool
  | crashed => true
  | _ => false

/-- The earlier of two points in time, if there are any. -/
def earlier? : Option Nat → Option Nat → Option Nat
  | some a, some b => some (min a b)
  | a, b => a.or b

mutual

/-- The first point in time at which an activity can run on. -/
def deadline? : Activity τ κ ρ ω → Option Nat
  | waiting deadline _ => some deadline
  | fanned workers _ _ _ _ _ => firstDeadline? workers
  | _ => none

/-- The first point in time at which one of the workers can run on. -/
def firstDeadline? : List (Nat × Activity τ κ ρ ω) → Option Nat
  | [] => none
  | (_, p) :: rest => earlier? (deadline? p) (firstDeadline? rest)

end

end Activity

/-! ## Workers -/

/-- A worker claims tasks, up to a number of them, until it has to wait or none is left. -/
def work (run : Nat → σ → Activity τ κ ρ ω × σ) (stops : ω → Bool) (count : Nat) :
    (left : Nat) → Tally ω → σ → Option (Nat × Activity τ κ ρ ω) × Tally ω × σ
  | 0, tally, s => (none, tally, s)
  | left + 1, tally, s =>
    if count ≤ tally.claimed then (none, tally, s)
    else if tally.halted then work run stops count left tally.claim s
    else
      match run tally.claimed s with
      | (.finished result, s) =>
        work run stops count left (tally.claim.record stops tally.claimed result) s
      | (p, s) => (some (tally.claimed, p), tally.claim, s)

/-- Workers begin one after the other. -/
def openWorkers (run : Nat → σ → Activity τ κ ρ ω × σ) (stops : ω → Bool) (count : Nat) :
    (workers : Nat) → Tally ω → σ → List (Nat × Activity τ κ ρ ω) × Tally ω × σ
  | 0, tally, s => ([], tally, s)
  | workers + 1, tally, s =>
    let (first, tally, s) := work run stops count count tally s
    let (rest, tally, s) := openWorkers run stops count workers tally s
    (first.toList ++ rest, tally, s)

/-! ## Running -/

/-- Whole milliseconds that are not less than a duration. -/
def wholeMilliseconds (nanos : Nat) : Nat := (nanos + 999999) / 1000000

/-- A reply that comes after some milliseconds, or nothing at the end of a limit in nanoseconds if
it comes later. -/
def withinLimit (limit : Option Nat) (latency : Nat) (reply : ρ) : Nat × Option ρ :=
  match limit with
  | none => (latency, some reply)
  | some nanos =>
    if latency ≤ wholeMilliseconds nanos then (latency, some reply)
    else (wholeMilliseconds nanos, none)

variable (world : World σ τ κ ρ) (now : Nat)

/-- Runs a job until it has to wait. -/
def start : Job τ κ ρ ω → σ → Activity τ κ ρ ω × σ
  | .done result, s => (.finished result, s)
  | .crash, s => (.crashed, s)
  | .clock next, s => start (next (world.clock s now)) s
  | .call call limit next, s =>
    let (s, latency, reply) := world.reply s now call
    let (pause, answer) := withinLimit limit latency reply
    if pause = 0 then start (next answer) s else (.waiting (now + pause) (next answer), s)
  | .sleep nanos jitter next, s =>
    let (s, nanos) := if jitter then world.stretch s nanos else (s, nanos)
    if nanos = 0 then start next s
    else (.waiting (now + wholeMilliseconds nanos) next, s)
  | .fan workers stops count task next, s =>
    let run := fun i s => start (task i) s
    let (active, tally, s) :=
      openWorkers run stops count (min (max workers 1) count) (Tally.fresh count) s
    if active.any fun a => a.2.isCrashed then (.crashed, s)
    else if active.isEmpty then start (next tally.results) s
    else (.fanned active tally stops count task next, s)

namespace Activity

mutual

/-- Runs an activity on. -/
def poll : Activity τ κ ρ ω → σ → Activity τ κ ρ ω × σ
  | waiting deadline next, s =>
    if deadline ≤ now then start world now next s else (waiting deadline next, s)
  | fanned workers tally stops count task next, s =>
    let run := fun i s => start world now (task i) s
    let (active, tally, s) := pollWorkers run stops count workers tally s
    if active.any fun a => a.2.isCrashed then (crashed, s)
    else if active.isEmpty then start world now (next tally.results) s
    else (fanned active tally stops count task next, s)
  | p, s => (p, s)

/-- Runs workers on, one after the other. -/
def pollWorkers (run : Nat → σ → Activity τ κ ρ ω × σ) (stops : ω → Bool) (count : Nat) :
    List (Nat × Activity τ κ ρ ω) → Tally ω → σ → List (Nat × Activity τ κ ρ ω) × Tally ω × σ
  | [], tally, s => ([], tally, s)
  | (index, p) :: rest, tally, s =>
    match poll p s with
    | (finished result, s) =>
      let (active, tally, s) := work run stops count count (tally.record stops index result) s
      let (others, tally, s) := pollWorkers run stops count rest tally s
      (active.toList ++ others, tally, s)
    | (p, s) =>
      let (others, tally, s) := pollWorkers run stops count rest tally s
      ((index, p) :: others, tally, s)

end

end Activity

end FlowEngine.Engine
