import FlowEngine.Proofs.Records.Lookup

/-!
# Paused records

A paused run has one action that waits. Its record is reached from the top through the loops around
it, each of which is paused too and shows the iteration that waits.

* `StepMap.pauses` — all paused records of a map, at any depth.
* `PauseChain` — the paused records are one action and the loops around it.
* `PauseChain.actions_eq` — then this action is the only one that is paused.
-/

namespace FlowEngine.Run

namespace StepRecord

mutual

/-- The paused records in a record: the record itself, and those of its iterations. -/
def pauses : StepRecord → List StepRecord
  | loop s item index iterations =>
    (if s.status = .paused then [loop s item index iterations] else []) ++ pausesAll iterations
  | r => if r.status = .paused then [r] else []

/-- The paused records in the maps of iterations. -/
def pausesAll : List (List (String × StepRecord)) → List StepRecord
  | [] => []
  | steps :: rest => pausesIn steps ++ pausesAll rest

/-- The paused records in a map. -/
def pausesIn : List (String × StepRecord) → List StepRecord
  | [] => []
  | (_, r) :: rest => pauses r ++ pausesIn rest

end

/-- Whether a record is that of an action. -/
def isAction : StepRecord → Bool
  | action _ _ => true
  | _ => false

/-- Nothing in a record is paused. -/
def Quiet (r : StepRecord) : Prop := r.pauses = []

end StepRecord

namespace StepMap

/-- All paused records of a map, those in the iterations of its loops included. -/
def pauses (m : StepMap) : List StepRecord := StepRecord.pausesIn m

/-- Nothing in a map is paused. -/
def Quiet (m : StepMap) : Prop := m.pauses = []

/-! ## Nothing is paused -/

theorem pauses_append (m m' : StepMap) : pauses (m ++ m') = m.pauses ++ m'.pauses := by
  unfold pauses
  induction m with
  | nil => rfl
  | cons e m ih =>
    rw [List.cons_append, StepRecord.pausesIn, StepRecord.pausesIn, ih, List.append_assoc]

theorem pauses_cons (n : String) (r : StepRecord) (m : StepMap) :
    pauses ((n, r) :: m) = r.pauses ++ m.pauses := by rw [pauses, StepRecord.pausesIn, pauses]

theorem quiet_iff {m : StepMap} : m.Quiet ↔ ∀ n r, (n, r) ∈ m → r.Quiet := by
  unfold Quiet
  induction m with
  | nil => simp [pauses, StepRecord.pausesIn]
  | cons e m ih =>
    obtain ⟨k, r⟩ := e
    rw [pauses_cons, List.append_eq_nil_iff, ih]
    constructor
    · rintro ⟨hr, hm⟩ n r' h
      rcases List.mem_cons.mp h with h | h
      · cases h; exact hr
      · exact hm n r' h
    · exact fun h => ⟨h k r List.mem_cons_self, fun n r' hr => h n r' (List.mem_cons_of_mem _ hr)⟩

theorem Quiet.get? {m : StepMap} (h : m.Quiet) {n : String} {r : StepRecord}
    (hr : m.get? n = some r) : r.Quiet := quiet_iff.mp h n r (mem_of_get? hr)

theorem quiet_of_get? {m : StepMap} (hm : m.names.Nodup)
    (h : ∀ n r, m.get? n = some r → r.Quiet) : m.Quiet :=
  quiet_iff.mpr fun n r hr => h n r (get?_of_mem hm hr)

end StepMap

namespace StepRecord

theorem pausesAll_eq_nil_iff {its : List StepMap} :
    pausesAll its = [] ↔ ∀ m ∈ its, StepMap.Quiet m := by
  induction its with
  | nil => simp [pausesAll]
  | cons m its ih =>
    rw [pausesAll, List.append_eq_nil_iff, ih, List.forall_mem_cons]
    rfl

theorem quiet_loop_iff {s : Summary} {item : Json} {index : Nat} {its : List StepMap} :
    (loop s item index its).Quiet ↔ s.status ≠ .paused ∧ ∀ m ∈ its, StepMap.Quiet m := by
  rw [Quiet, pauses, List.append_eq_nil_iff, pausesAll_eq_nil_iff]
  simp

theorem Quiet.status_ne {r : StepRecord} (h : r.Quiet) : r.status ≠ .paused := by
  cases r with
  | loop s item index its => exact (quiet_loop_iff.mp h).1
  | _ =>
    intro hs
    simp only [Quiet, pauses, hs, if_true] at h
    cases h

theorem Quiet.iteration {r : StepRecord} (h : r.Quiet) {its : List StepMap}
    (hits : r.iterations? = some its) {m : StepMap} (hm : m ∈ its) : m.Quiet := by
  cases r with
  | loop s item index its' => cases hits; exact (quiet_loop_iff.mp h).2 m hm
  | _ => cases hits

/-- A record without iterations is quiet unless it is paused itself. -/
theorem quiet_of_status_ne {r : StepRecord} (h : r.status ≠ .paused) (hr : r.iterations? = none) :
    r.Quiet := by
  cases r with
  | loop => cases hr
  | _ => simp only [Quiet, pauses, if_neg h]

theorem Quiet.withoutPause {r : StepRecord} (h : r.Quiet) : r.withoutPause = some r :=
  withoutPause_of_status_ne h.status_ne

end StepRecord

/-! ## One action is paused -/

/-- The paused records of a map are an action and the loops around it: of every map on the way there
is one paused record, which is that of the action or else that of a loop at the iteration that
shows the next one. Nothing else is paused in these maps, nor in another iteration. The path names
the loops with their iterations. -/
inductive PauseChain : StepMap → List (String × Nat) → String → Summary → Json → Prop
  | action {before after : StepMap} {name : String} {summary : Summary} {output : Json}
    (paused : summary.status = .paused) (quietBefore : before.Quiet) (quietAfter : after.Quiet) :
    PauseChain (before ++ (name, .action summary output) :: after) [] name summary output
  | loop {before after : StepMap} {l name : String} {s summary : Summary} {item output : Json}
    {index : Nat} {iterations : List StepMap} {path : List (String × Nat)} {m : StepMap}
    (paused : s.status = .paused) (quietBefore : before.Quiet) (quietAfter : after.Quiet)
    (shown : iterations[index]? = some m)
    (quietOthers : ∀ i m', i ≠ index → iterations[i]? = some m' → m'.Quiet)
    (inner : PauseChain m path name summary output) :
    PauseChain (before ++ (l, .loop s item index iterations) :: after) ((l, index) :: path) name
      summary output

namespace PauseChain

variable {m before after : StepMap} {path : List (String × Nat)} {n name : String}
  {r : StepRecord} {summary : Summary} {output : Json}

/-- An action that waits, alone. -/
theorem of_action (paused : summary.status = .paused) :
    PauseChain [(n, .action summary output)] [] n summary output :=
  have h : StepMap.Quiet [] := rfl
  have hc := action paused h h
  hc

/-- A loop in which an action waits, alone. -/
theorem of_loop {s : Summary} {item : Json} {index : Nat} {its : List StepMap}
    (paused : s.status = .paused) (shown : its[index]? = some m)
    (quiet : ∀ i m', i ≠ index → its[i]? = some m' → m'.Quiet)
    (inner : PauseChain m path name summary output) :
    PauseChain [(n, .loop s item index its)] ((n, index) :: path) name summary output :=
  have h : StepMap.Quiet [] := rfl
  have hc := loop paused h h shown quiet inner
  hc

theorem eq_of_singleton_eq {α : Type} {x y : α} {before after : List α}
    (h : [y] = before ++ x :: after) : before = [] ∧ y = x ∧ after = [] := by
  cases before with
  | nil => simpa using h
  | cons z before => simp at h

/-- What is paused in a record, among records that are not paused. -/
theorem frame (h : PauseChain [(n, r)] path name summary output) (hb : before.Quiet)
    (ha : after.Quiet) : PauseChain (before ++ (n, r) :: after) path name summary output := by
  generalize hm : [(n, r)] = m at h
  cases h with
  | action paused =>
    obtain ⟨-, h, -⟩ := eq_of_singleton_eq hm
    cases h
    exact .action paused hb ha
  | loop paused _ _ shown quiet inner =>
    obtain ⟨-, h, -⟩ := eq_of_singleton_eq hm
    cases h
    exact .loop paused hb ha shown quiet inner

/-- A map in which one record holds what is paused. -/
theorem of_get? (hm : m.names.Nodup) (hr : m.get? n = some r)
    (h : PauseChain [(n, r)] path name summary output)
    (quiet : ∀ k r', k ≠ n → m.get? k = some r' → r'.Quiet) :
    PauseChain m path name summary output := by
  obtain ⟨before, after, rfl⟩ := List.append_of_mem (StepMap.mem_of_get? hr)
  have other (k : String) (r' : StepRecord) (hk : (k, r') ∈ before ++ after) : r'.Quiet := by
    have hmem : (k, r') ∈ before ++ (n, r) :: after := by
      rcases List.mem_append.mp hk with h | h
      · exact List.mem_append_left _ h
      · exact List.mem_append_right _ (List.mem_cons_of_mem _ h)
    refine quiet k r' ?_ (StepMap.get?_of_mem hm hmem)
    rintro rfl
    have hd : (before.map Prod.fst ++ k :: after.map Prod.fst).Nodup := by
      simpa [StepMap.names] using hm
    refine (List.nodup_middle.mp hd).notMem ?_
    rw [← List.map_append]
    exact List.mem_map.mpr ⟨_, hk, rfl⟩
  exact h.frame (StepMap.quiet_iff.mpr fun k r' hk => other k r' (List.mem_append_left _ hk))
    (StepMap.quiet_iff.mpr fun k r' hk => other k r' (List.mem_append_right _ hk))

theorem pausesAll_eq {its : List StepMap} {index : Nat} (shown : its[index]? = some m)
    (quiet : ∀ i m', i ≠ index → its[i]? = some m' → m'.Quiet) :
    StepRecord.pausesAll its = m.pauses := by
  induction its generalizing index with
  | nil => simp at shown
  | cons k its ih =>
    rw [StepRecord.pausesAll]
    cases index with
    | zero =>
      obtain rfl : k = m := by simpa using shown
      have : StepRecord.pausesAll its = [] := StepRecord.pausesAll_eq_nil_iff.mpr fun m' hm' => by
        obtain ⟨i, hi⟩ := List.getElem?_of_mem hm'
        exact quiet (i + 1) m' (Nat.succ_ne_zero i) (by simpa using hi)
      rw [this, List.append_nil]
      rfl
    | succ index =>
      have hk : StepRecord.pausesIn k = [] := quiet 0 k (Nat.succ_ne_zero index).symm (by simp)
      rw [hk, List.nil_append]
      exact ih (by simpa using shown) fun i m' hi hm' =>
        quiet (i + 1) m' (by omega) (by simpa using hm')

/-- Of all actions in a map, in its loops at any depth, one is paused. -/
theorem actions_eq (h : PauseChain m path name summary output) :
    m.pauses.filter StepRecord.isAction = [.action summary output] := by
  induction h with
  | action paused hb ha =>
    rw [StepMap.pauses_append, StepMap.pauses_cons, hb, ha]
    simp [StepRecord.pauses, StepRecord.status, StepRecord.summary, paused, StepRecord.isAction]
  | loop paused hb ha shown quiet _ ih =>
    rw [StepMap.pauses_append, StepMap.pauses_cons, hb, ha, StepRecord.pauses,
      pausesAll_eq shown quiet, if_pos paused]
    simpa [StepRecord.isAction] using ih

end PauseChain

end FlowEngine.Run
