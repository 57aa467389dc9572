/-!
# Jobs

A job is a computation that waits for what it cannot decide: the clock, the reply to a call, the end
of a pause, and the results of other jobs that run side by side. It is a tree; every answer of the
world around chooses a branch of it.

* `Job` — jobs.
* `Job.bind` — goes on with the result of a job; `Job.andThen` — unless it is an error.
-/

namespace FlowEngine.Engine

/-- A reading of the clock. -/
structure Reading (τ : Type) where
  now : τ
  uptime : Nat
  deriving Inhabited

/-- A job with results in `ω` that makes calls in `κ` and gets replies in `ρ`; its clock shows `τ`.

* `done` — the job has a result.
* `crash` — the whole program ends.
* `clock` — reads the clock.
* `call` — makes a call. With a limit, in nanoseconds, the reply may be missing.
* `sleep` — pauses for some nanoseconds, and perhaps up to a quarter longer.
* `fan` — runs tasks side by side, at most `workers` of them at once, and claims them in order.
  After a task with a result that `stops`, tasks that are not claimed yet are skipped. -/
inductive Job (τ κ ρ ω : Type) where
  | done (result : ω)
  | crash
  | clock (next : Reading τ → Job τ κ ρ ω)
  | call (call : κ) (limit : Option Nat) (next : Option ρ → Job τ κ ρ ω)
  | sleep (nanos : Nat) (jitter : Bool) (next : Job τ κ ρ ω)
  | fan (workers : Nat) (stops : ω → Bool) (count : Nat) (task : Nat → Job τ κ ρ ω)
    (next : List (Option ω) → Job τ κ ρ ω)

namespace Job

variable {τ κ ρ ω : Type}

/-- Goes on with the result of a job. -/
def bind (f : ω → Job τ κ ρ ω) : Job τ κ ρ ω → Job τ κ ρ ω
  | done result => f result
  | crash => crash
  | clock next => clock fun r => (next r).bind f
  | call c limit next => call c limit fun reply => (next reply).bind f
  | sleep nanos jitter next => sleep nanos jitter (next.bind f)
  | fan workers stops count task next =>
    fan workers stops count task fun results => (next results).bind f

/-- Goes on with the result of a job unless it is an error. -/
def andThen {ε α : Type} (j : Job τ κ ρ (Except ε α)) (f : α → Job τ κ ρ (Except ε α)) :
    Job τ κ ρ (Except ε α) :=
  j.bind fun
    | .ok a => f a
    | .error e => done (.error e)

end Job

end FlowEngine.Engine
