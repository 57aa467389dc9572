import FlowEngine.Proofs.Records.Timeless
import FlowEngine.Run.Context

/-!
# Changing records apart from durations

What is done to the records of a run does not depend on the durations in them: it can be done to the
records without durations instead.

* `StepMap.timeless_insert`, `StepMap.timeless_withdrawPause` — inserting and withdrawing.
* `StepMap.insert_of_alike` — a record that is alike the one it replaces changes nothing.
* `RunState.timeless` — a run without durations.
-/

namespace FlowEngine.Run

namespace StepRecord

theorem status_timeless (r : StepRecord) : r.timeless.status = r.status := by cases r <;> rfl

theorem withDuration_timeless (r : StepRecord) (duration : Nat) :
    (r.withDuration duration).timeless = r.timeless := by
  cases r <;> simp only [withDuration, withSummary, summary, timeless]

theorem iterations?_timeless (r : StepRecord) :
    r.timeless.iterations? = r.iterations?.map (List.map StepMap.timeless) := by
  cases r with
  | loop s item index its => exact congrArg some (timelessAll_eq_map its)
  | _ => rfl

theorem withoutPause_timeless_of_iterations? {r : StepRecord} (hr : r.iterations? = none) :
    r.timeless.withoutPause = r.withoutPause.map timeless := by
  by_cases h : r.status = .paused
  · have hits : r.timeless.iterations? = none := by rw [iterations?_timeless, hr]; rfl
    rw [withoutPause_eq_none h hr, withoutPause_eq_none ((status_timeless r).trans h) hits]
    rfl
  · have hne : r.timeless.status ≠ .paused := by rwa [status_timeless]
    rw [withoutPause_of_status_ne h, withoutPause_of_status_ne hne]
    rfl

mutual

theorem withoutPause_timeless : ∀ r : StepRecord,
    r.timeless.withoutPause = r.withoutPause.map timeless
  | .action _ _ | .branch _ _ | .split _ _ => withoutPause_timeless_of_iterations? rfl
  | .loop s item index its => by
    rw [timeless]
    by_cases h : s.status = .paused
    · rw [withoutPause_loop h, withoutPause_loop (s := { s with duration := none }) h,
        withdrawPauses_timelessAll its]
      rfl
    · rw [withoutPause_of_status_ne (r := .loop s item index its) h,
        withoutPause_of_status_ne (r := .loop { s with duration := none } item index _) h]
      rfl

theorem withdrawPauses_timelessAll : ∀ its : List (List (String × StepRecord)),
    (timelessAll its).map StepMap.withdrawPauses = timelessAll (its.map StepMap.withdrawPauses)
  | [] => rfl
  | m :: its => by
    rw [timelessAll, List.map_cons, List.map_cons, timelessAll, withdrawPauses_timelessIn m,
      withdrawPauses_timelessAll its]

theorem withdrawPauses_timelessIn : ∀ m : List (String × StepRecord),
    StepMap.withdrawPauses (timelessIn m) = timelessIn (StepMap.withdrawPauses m)
  | [] => rfl
  | (n, r) :: m => by
    rw [timelessIn, StepMap.withdrawPauses_cons, StepMap.withdrawPauses_cons,
      withoutPause_timeless r, withdrawPauses_timelessIn m]
    cases r.withoutPause <;> rfl

end

end StepRecord

namespace StepMap

theorem timeless_insert (m : StepMap) (n : String) (r : StepRecord) :
    (m.insert n r).timeless = m.timeless.insert n r.timeless := by
  induction m with
  | nil => rfl
  | cons x m ih =>
    rw [insert, timeless_cons, insert]
    split_ifs
    · rfl
    · rw [timeless_cons, ih]

/-- A record that is alike the one whose place it takes changes nothing. -/
theorem insert_of_alike {m : StepMap} {n : String} {r : StepRecord}
    (h : m.timeless.get? n = some r.timeless) : (m.insert n r).timeless = m.timeless := by
  induction m with
  | nil => cases h
  | cons x m ih =>
    rw [timeless_cons, get?_cons] at h
    rw [insert]
    split_ifs at h ⊢ with hx
    · rw [timeless_cons, timeless_cons, Option.some.inj h]
    · rw [timeless_cons, timeless_cons, ih h]

theorem timeless_withdrawPause (m : StepMap) (n : String) :
    (m.withdrawPause n).timeless = m.timeless.withdrawPause n := by
  simp only [withdrawPause_eq]
  induction m with
  | nil => rfl
  | cons x m ih =>
    obtain ⟨k, r⟩ := x
    rw [timeless_cons, edit_cons, edit_cons, timeless_append, ih, StepRecord.withoutPause_timeless]
    split_ifs
    · cases r.withoutPause <;> rfl
    · rfl

theorem timeless_foldl_withdrawPause (m : StepMap) (names : List String) :
    (names.foldl withdrawPause m).timeless = names.foldl withdrawPause m.timeless := by
  induction names generalizing m with
  | nil => rfl
  | cons n names ih => rw [List.foldl_cons, List.foldl_cons, ih, timeless_withdrawPause]

end StepMap

/-! ## Runs -/

namespace RunState

/-- A run whose records have no durations. -/
def timeless (s : RunState) : RunState := { s with steps := s.steps.timeless }

theorem timeless_upsert (s : RunState) (n : String) (r : StepRecord) :
    (s.upsert n r).timeless = s.timeless.upsert n r.timeless :=
  congrArg (fun m => { s with steps := m }) (StepMap.timeless_insert s.steps n r)

theorem timeless_withVerdict (s : RunState) (v : Verdict) :
    (s.withVerdict v).timeless = s.timeless.withVerdict v := rfl

theorem timeless_withoutPauses (s : RunState) (names : List String) :
    (s.withoutPauses names).timeless = s.timeless.withoutPauses names :=
  congrArg (fun m => { s with steps := m }) (StepMap.timeless_foldl_withdrawPause s.steps names)

theorem timeless_nested (s : RunState) (m : StepMap) :
    (s.nested m).timeless = s.timeless.nested m.timeless := rfl

variable {s s' : RunState}

theorem verdict_alike (h : s.timeless = s'.timeless) : s.verdict = s'.verdict :=
  show s.timeless.verdict = s'.timeless.verdict from congrArg RunState.verdict h

theorem steps_alike (h : s.timeless = s'.timeless) : s.steps.timeless = s'.steps.timeless :=
  show s.timeless.steps = s'.timeless.steps from congrArg RunState.steps h

/-- Runs that are alike stay so when alike records are put in. -/
theorem upsert_alike (h : s.timeless = s'.timeless) (n : String) {r r' : StepRecord}
    (hr : r.timeless = r'.timeless) : (s.upsert n r).timeless = (s'.upsert n r').timeless := by
  rw [timeless_upsert, timeless_upsert, h, hr]

theorem withVerdict_alike (h : s.timeless = s'.timeless) (v : Verdict) :
    (s.withVerdict v).timeless = (s'.withVerdict v).timeless := by
  rw [timeless_withVerdict, timeless_withVerdict, h]

/-- Records of a step in runs that are alike are alike. -/
theorem get?_alike (h : s.timeless = s'.timeless) (n : String) :
    (s.steps.get? n).map StepRecord.timeless = (s'.steps.get? n).map StepRecord.timeless :=
  StepMap.get?_alike (steps_alike h) n

end RunState

end FlowEngine.Run
