import FlowEngine.Proofs.Records.Lookup
import FlowEngine.Template.Scope

/-!
# Records without durations

How long steps took is the only thing in the records of a run that differs from one walk of a flow to
another when all actions answer alike.

* `StepRecord.timeless`, `StepMap.timeless` — records without the durations, at any depth.
* `StepMap.get?_timeless` — what such a map shows of a step.
* `StepMap.timeless_eq_cons`, `StepMap.timeless_eq_append` — the shape of a map that is alike another.
* `Scope.timeless` — a scope without durations.
-/

namespace FlowEngine.Run

namespace StepRecord

mutual

/-- A record without its duration and those of its iterations. -/
def timeless : StepRecord → StepRecord
  | action s output => action { s with duration := none } output
  | branch s holds => branch { s with duration := none } holds
  | split s taken => split { s with duration := none } taken
  | loop s item index iterations =>
    loop { s with duration := none } item index (timelessAll iterations)

/-- The maps of iterations without durations. -/
def timelessAll : List (List (String × StepRecord)) → List (List (String × StepRecord))
  | [] => []
  | steps :: rest => timelessIn steps :: timelessAll rest

/-- The records of a map without durations. -/
def timelessIn : List (String × StepRecord) → List (String × StepRecord)
  | [] => []
  | (name, r) :: rest => (name, timeless r) :: timelessIn rest

end

end StepRecord

/-- A map of records without durations. -/
def StepMap.timeless (m : StepMap) : StepMap := StepRecord.timelessIn m

namespace StepMap

@[simp] theorem timeless_nil : timeless [] = [] := rfl

@[simp] theorem timeless_cons (k : String) (r : StepRecord) (m : StepMap) :
    timeless ((k, r) :: m) = (k, r.timeless) :: m.timeless := rfl

@[simp] theorem timeless_append (m m' : StepMap) :
    timeless (m ++ m') = m.timeless ++ m'.timeless := by
  induction m with
  | nil => rfl
  | cons x m ih => rw [List.cons_append, timeless_cons, ih]; rfl

theorem get?_timeless (m : StepMap) (n : String) :
    m.timeless.get? n = (m.get? n).map StepRecord.timeless := by
  induction m with
  | nil => rfl
  | cons x m ih =>
    rw [timeless_cons, get?_cons, get?_cons, ih]
    split_ifs <;> rfl

/-- Maps that are alike show records that are alike. -/
theorem get?_alike {m m' : StepMap} (h : m'.timeless = m.timeless) (n : String) :
    (m'.get? n).map StepRecord.timeless = (m.get? n).map StepRecord.timeless := by
  rw [← get?_timeless, h, get?_timeless]

theorem get?_eq_none_of_alike {m m' : StepMap} (h : m'.timeless = m.timeless) {n : String}
    (hn : m.get? n = none) : m'.get? n = none := by
  have := get?_alike h n
  rw [hn, Option.map_none] at this
  exact Option.map_eq_none_iff.mp this

/-- A map that is alike one with a record in front has an alike record in front. -/
theorem timeless_eq_cons {m' m : StepMap} {k : String} {r : StepRecord}
    (h : m'.timeless = timeless ((k, r) :: m)) :
    ∃ r' rest, m' = (k, r') :: rest ∧ r'.timeless = r.timeless ∧ timeless rest = m.timeless := by
  rcases m' with _ | ⟨⟨k', r'⟩, rest⟩
  · cases h
  · rw [timeless_cons, timeless_cons] at h
    injection h with hfirst hrest
    injection hfirst with hk hr
    exact ⟨r', rest, by rw [hk], hr, hrest⟩

theorem get?_append_cons {base before : StepMap} {n : String} (hbase : base.get? n = none)
    (hbefore : before.timeless = base.timeless) (r : StepRecord) (rest : StepMap) :
    StepMap.get? (before ++ (n, r) :: rest) n = some r := by
  rw [get?_append, get?_eq_none_of_alike hbefore hbase, Option.none_or, get?_cons, if_pos rfl]

/-- The first of the records that come after those of other steps is found under its name. -/
theorem get?_of_alike {base before kept after m whole : StepMap} {n : String} {r : StepRecord}
    (hbase : base.get? n = none) (hm : m = before ++ kept ++ after)
    (hbefore : before.timeless = base.timeless) (hkept : kept.timeless = timeless ((n, r) :: whole)) :
    ∃ (r' : StepRecord) (rest : StepMap), kept = (n, r') :: rest ∧ r'.timeless = r.timeless ∧
      rest.timeless = whole.timeless ∧ m.get? n = some r' := by
  obtain ⟨r', rest, rfl, hr, hrest⟩ := timeless_eq_cons hkept
  refine ⟨r', rest, rfl, hr, hrest, ?_⟩
  rw [hm, List.append_assoc, List.cons_append]
  exact get?_append_cons hbase hbefore r' _

/-- A map that is alike two maps one after the other falls into two parts. -/
theorem timeless_eq_append {m₁ m₂ m' : StepMap} (h : m'.timeless = timeless (m₁ ++ m₂)) :
    ∃ c q : StepMap, m' = c ++ q ∧ c.timeless = m₁.timeless ∧ q.timeless = m₂.timeless := by
  induction m₁ generalizing m' with
  | nil => exact ⟨[], m', rfl, rfl, h⟩
  | cons x m₁ ih =>
    obtain ⟨r', rest, rfl, hr, hrest⟩ := timeless_eq_cons h
    obtain ⟨c, q, rfl, hc, hq⟩ := ih hrest
    exact ⟨(x.1, r') :: c, q, rfl, by rw [timeless_cons, hr, hc]; rfl, hq⟩

theorem timeless_eq_nil {m' : StepMap} (h : m'.timeless = timeless []) : m' = [] := by
  rcases m' with _ | ⟨x, rest⟩
  · rfl
  · cases h

end StepMap

namespace StepRecord

theorem timelessAll_eq_map (its : List StepMap) : timelessAll its = its.map StepMap.timeless := by
  induction its with
  | nil => rfl
  | cons m its ih => exact congrArg (m.timeless :: ·) ih

theorem status_alike {r r' : StepRecord} (h : r'.timeless = r.timeless) :
    r'.status = r.status := by
  have key (r : StepRecord) : r.timeless.status = r.status := by cases r <;> rfl
  rw [← key r', h, key]

/-- The record that is alike one of a branch is that of a branch with the same decision. -/
theorem holds?_alike {r r' : StepRecord} (h : r'.timeless = r.timeless) :
    r'.holds? = r.holds? := by
  have key (r : StepRecord) : r.timeless.holds? = r.holds? := by cases r <;> rfl
  rw [← key r', h, key]

end StepRecord

end FlowEngine.Run

namespace FlowEngine.Template.Scope

open FlowEngine.Run

/-- A scope whose records have no durations. -/
def timeless (scope : Scope) : Scope := scope.map fun frame => ⟨frame.steps.timeless, frame.cursor⟩

theorem step?_timeless (scope : Scope) (n : String) :
    scope.timeless.step? n = (scope.step? n).map StepRecord.timeless := by
  induction scope with
  | nil => rfl
  | cons frame scope ih =>
    have h := StepMap.get?_timeless frame.steps n
    simp only [timeless, step?, List.map_cons, List.findSome?_cons] at ih ⊢
    rw [h]
    cases frame.steps.get? n with
    | none => exact ih
    | some r => rfl

theorem cursor?_timeless (scope : Scope) : scope.timeless.cursor? = scope.cursor? := by
  induction scope with
  | nil => rfl
  | cons frame scope ih =>
    simp only [timeless, cursor?, List.map_cons, List.findSome?_cons] at ih ⊢
    rw [ih]

end FlowEngine.Template.Scope
