import FlowEngine.Flow.Basic
import FlowEngine.Proofs.Records.Timeless

/-!
# Records of the kinds of their steps

Only steps leave records. Only a branch leaves the record of a branch, and only a loop that of a loop;
the record of an action is also what any other step leaves that failed before it did anything.

* `StepRecord.Fits`, `StepMap.Fits` — records that fit the kinds of their steps, at any depth.
* `Scope.Fits` — a scope of such records; `Scope.Fits.step?` — what it shows.
-/

namespace FlowEngine.Run

/-- Which names are those of steps of which kinds. -/
abbrev Kinds := String → Flow.StepType → Prop

namespace StepRecord

variable (kinds : Kinds)

mutual

/-- A record that a step of some name may have. -/
def Fits (name : String) : StepRecord → Prop
  | action _ _ => ∃ type, kinds name type
  | branch _ _ => kinds name .branch
  | split _ _ => kinds name .split
  | loop _ _ _ iterations => kinds name .loopOnItems ∧ FitAll iterations

/-- The records of all iterations fit. -/
def FitAll : List (List (String × StepRecord)) → Prop
  | [] => True
  | steps :: rest => FitIn steps ∧ FitAll rest

/-- The records of a map fit. -/
def FitIn : List (String × StepRecord) → Prop
  | [] => True
  | (name, r) :: rest => Fits name r ∧ FitIn rest

end

end StepRecord

/-- All records of a map fit the kinds of their steps. -/
def StepMap.Fits (kinds : Kinds) (m : StepMap) : Prop := StepRecord.FitIn kinds m

variable {kinds : Kinds}

namespace StepMap

theorem fits_nil : Fits kinds [] := trivial

theorem fits_cons {name : String} {r : StepRecord} {m : StepMap} :
    Fits kinds ((name, r) :: m) ↔ r.Fits kinds name ∧ m.Fits kinds := Iff.rfl

theorem fits_append {m m' : StepMap} :
    Fits kinds (m ++ m') ↔ m.Fits kinds ∧ m'.Fits kinds := by
  induction m with
  | nil => exact (iff_of_eq (true_and _)).symm
  | cons x m ih => rw [List.cons_append, fits_cons, ih, fits_cons, and_assoc]

/-- The records of a map that fits fit. -/
theorem Fits.get? {m : StepMap} (h : m.Fits kinds) {name : String} {r : StepRecord}
    (hr : m.get? name = some r) : r.Fits kinds name := by
  induction m with
  | nil => cases hr
  | cons x m ih =>
    obtain ⟨hx, hm⟩ := fits_cons.mp h
    rw [StepMap.get?_cons] at hr
    split_ifs at hr with hname
    · cases hr
      exact hname ▸ hx
    · exact ih hm hr

end StepMap

theorem StepRecord.fitAll_iff {its : List StepMap} :
    FitAll kinds its ↔ ∀ m ∈ its, m.Fits kinds := by
  induction its with
  | nil => simp [FitAll]
  | cons m its ih => rw [FitAll, ih, List.forall_mem_cons]; rfl

end FlowEngine.Run

namespace FlowEngine.Template.Scope

open FlowEngine.Run

variable {kinds : Kinds}

/-- All records of a scope fit the kinds of their steps. -/
def Fits (kinds : Kinds) (scope : Scope) : Prop := ∀ frame ∈ scope, frame.steps.Fits kinds

theorem fits_push {scope : Scope} {m : StepMap} {cursor : Option Cursor} (hm : m.Fits kinds)
    (h : scope.Fits kinds) : (scope.push m cursor).Fits kinds :=
  List.forall_mem_cons.mpr ⟨hm, h⟩

/-- A record that can be seen fits. -/
theorem Fits.step? {scope : Scope} (h : scope.Fits kinds) {name : String} {r : StepRecord}
    (hr : scope.step? name = some r) : r.Fits kinds name := by
  obtain ⟨frame, hframe, hr⟩ := List.exists_of_findSome?_eq_some hr
  exact (h frame hframe).get? hr

end FlowEngine.Template.Scope
