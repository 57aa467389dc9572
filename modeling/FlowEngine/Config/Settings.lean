import FlowEngine.Json.Decode
import FlowEngine.Number.Decimal

/-!
# Settings of the engine

How many workers a fan-out has, how long an action may take, and when a failed action is tried
again. Settings come in layers; a later layer counts where it differs from the defaults.

* `Settings`, `Retry` — the settings.
* `Settings.workers` — the number of workers of a fan-out.
* `Retry.delay?` — how long to wait before another attempt.
* `Settings.merge` — one layer over another.
* `Settings.ofJson?` — reading a layer.
-/

namespace FlowEngine.Config

/-- When and how often a failed action is tried again. The delays are milliseconds. -/
structure Retry where
  maxRetries : Nat := 4
  initialDelay : Nat := 2000
  multiplier : Binary64 := Binary64.ofNat 2
  maxDelay : Nat := 60000
  jitter : Bool := true
  deriving DecidableEq, Inhabited

/-- The settings of the engine. The time that an action may take is in seconds. -/
structure Settings where
  poolSize : Nat := 10
  stepTimeout : Option Nat := none
  retry : Retry := {}
  deriving DecidableEq, Inhabited

/-! ## Delays -/

/-- Seconds of a number of milliseconds. -/
def seconds (milliseconds : Nat) : Binary64 :=
  (Binary64.ofNat (milliseconds / 1000)).add
    ((Binary64.ofNat (milliseconds % 1000 * 1000000)).div (Binary64.ofNat 1000000000))

/-- The nanoseconds nearest to a number of seconds; a negative number has none. -/
def nanoseconds? (x : Binary64) : Option Nat :=
  if x.isFinite ∧ ¬ (x.negative ∧ !x.isZero) then
    some (roundHalfEven (x.units * 1000000000) Binary64.unitsOfOne)
  else none

/-- A power of a number; the exponent is a number of 32 bits with a sign. -/
def Retry.power (multiplier : Binary64) (attempt : Nat) : Binary64 :=
  if attempt < 0x80000000 then multiplier.powNat attempt
  else (Binary64.ofNat 1).div (multiplier.powNat (0x100000000 - attempt))

/-- How long to wait before the next attempt, in nanoseconds: the delay grows by the multiplier with
every attempt up to the greatest delay. A negative multiplier gives no delay. -/
def Retry.delay? (r : Retry) (attempt : Nat) : Option Nat :=
  let grown := (seconds r.initialDelay).mul (Retry.power r.multiplier attempt)
  nanoseconds? (grown.minNum (seconds r.maxDelay))

/-- The number of workers of a fan-out, which may have its own bound. There is at least one. -/
def Settings.workers (s : Settings) (own : Option Nat) : Nat := max (own.getD s.poolSize) 1

/-! ## Layers -/

/-- A value of a layer counts if it differs from the default. -/
def overlay {α : Type} (differs : α → α → Bool) (default below above : α) : α :=
  if differs above default then above else below

/-- One layer over another. -/
def Retry.merge (below above : Retry) : Retry :=
  let plain : Retry := {}
  { maxRetries := overlay (· != ·) plain.maxRetries below.maxRetries above.maxRetries
    initialDelay := overlay (· != ·) plain.initialDelay below.initialDelay above.initialDelay
    multiplier :=
      overlay (fun x y => !x.valueEq y) plain.multiplier below.multiplier above.multiplier
    maxDelay := overlay (· != ·) plain.maxDelay below.maxDelay above.maxDelay
    jitter := overlay (· != ·) plain.jitter below.jitter above.jitter }

/-- One layer over another. -/
def Settings.merge (below above : Settings) : Settings :=
  let plain : Settings := {}
  { poolSize := overlay (· != ·) plain.poolSize below.poolSize above.poolSize
    stepTimeout := above.stepTimeout.or below.stepTimeout
    retry := below.retry.merge above.retry }

/-! ## Documents -/

/-- Retry settings as a document. -/
def Retry.toJson (r : Retry) : Json :=
  .obj [("max_retries", .ofNat r.maxRetries), ("initial_delay", .ofNat r.initialDelay),
    ("backoff_multiplier", if r.multiplier.isFinite then .float r.multiplier else .null),
    ("max_delay", .ofNat r.maxDelay), ("jitter", .bool r.jitter)]

/-- Settings as a document. -/
def Settings.toJson (s : Settings) : Json :=
  .obj [("defaults", .obj [("pool_size", .ofNat s.poolSize),
      ("step_timeout", .ofOption .ofNat s.stepTimeout)]),
    ("retry", s.retry.toJson)]

/-- A list without the elements after so many, if the format of the text passes over them. -/
def cutList (lenient : Bool) (count : Nat) : Json → Json
  | .arr elements => .arr (if lenient then elements.take count else elements)
  | j => j

open Json.Fields in
/-- Reads retry settings; unknown fields are errors. -/
def Retry.ofJson? (lenient : Bool) (j : Json) : Option Retry := do
  let names := ["max_retries", "initial_delay", "backoff_multiplier", "max_delay", "jitter"]
  let fs ← (cutList lenient names.length j).fields? names
  let plain : Retry := {}
  if !j.hasOnly names then none
  else
    some {
      maxRetries := ← defaulted fs "max_retries" plain.maxRetries (Json.asNatBelow? 0x100000000)
      initialDelay := ← defaulted fs "initial_delay" plain.initialDelay Json.asNat64?
      multiplier := ← defaulted fs "backoff_multiplier" plain.multiplier Json.asBinary64?
      maxDelay := ← defaulted fs "max_delay" plain.maxDelay Json.asNat64?
      jitter := ← defaulted fs "jitter" plain.jitter Json.asBool? }

open Json.Fields in
/-- Reads the settings of fan-outs and timeouts; unknown fields are errors. -/
def defaultsOf? (lenient : Bool) (j : Json) : Option (Nat × Option Nat) := do
  let names := ["pool_size", "step_timeout"]
  let fs ← (cutList lenient names.length j).completeFields? names
  let poolSize ← defaulted fs "pool_size" 10 Json.asNat64?
  let stepTimeout ← optional fs "step_timeout" Json.asNat64?
  if j.hasOnly names then some (poolSize, stepTimeout) else none

open Json.Fields in
/-- Reads settings; unknown fields are errors. Elements of lists that belong to no field are errors
too, unless the format of the text is lenient. -/
def Settings.ofJson? (lenient : Bool) (j : Json) : Option Settings := do
  let names := ["defaults", "retry"]
  let fs ← j.fields? names
  let (poolSize, stepTimeout) ← defaulted fs "defaults" (10, none) (defaultsOf? lenient)
  let retry ← defaulted fs "retry" {} (Retry.ofJson? lenient)
  if j.hasOnly names then some ⟨poolSize, stepTimeout, retry⟩ else none

end FlowEngine.Config
