import FlowEngine.Engine.Place

/-!
# How the parts of a fan-out end

Each part of a fan-out ends with a verdict of its own. The first failure decides, or else the first
stop, or else the first pause; another pause is withdrawn.

* `Halts` — the first part that failed, stopped and paused.
* `Halts.note` — takes the verdict of the next part into account.
* `Halts.decisive?` — the part that decides.
-/

namespace FlowEngine.Engine

open FlowEngine.Run

/-- The first parts of a fan-out that failed, stopped and paused. -/
structure Halts where
  failed : Option (Nat × Verdict)
  stopped : Option (Nat × Verdict)
  paused : Option (Nat × Verdict)
  deriving DecidableEq, Inhabited

namespace Halts

/-- All parts so far ended normally. -/
def none : Halts := ⟨.none, .none, .none⟩

/-- Takes the verdict of a part into account. -/
def note (h : Halts) (index : Nat) (verdict : Verdict) : Halts :=
  match verdict with
  | .running => h
  | .failed _ _ => { h with failed := h.failed.or (some (index, verdict)) }
  | .succeeded _ => { h with stopped := h.stopped.or (some (index, verdict)) }
  | .paused _ => { h with paused := h.paused.or (some (index, verdict)) }

/-- Whether a part ended with a pause after another one did. -/
def repeatsPause (h : Halts) (verdict : Verdict) : Bool :=
  h.paused.isSome && verdict.status == .paused

/-- The part that decides. -/
def decisive? (h : Halts) : Option (Nat × Verdict) := (h.failed.or h.stopped).or h.paused

end Halts

end FlowEngine.Engine
