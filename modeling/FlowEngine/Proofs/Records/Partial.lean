import FlowEngine.Proofs.Records.Pauses
import FlowEngine.Proofs.Records.Timeless

/-!
# The records of a walk that was cut short

A walk that pauses leaves a part of the records that it would have left without the pause. They are
finished up to some step. This step may have a record of its own: it is an action that waits, or a
loop whose iterations have parts of their records.

* `Partial` — a part of the records of a whole walk.
* `Partial.of_append` — a part of the records of two chains one after the other.
* `Partial.withdrawn` — withdrawing pauses leaves a part.
* `finishedCount` — how many records are finished, at any depth; `Partial.count_le` bounds it.
-/

namespace FlowEngine.Run

/-- A part of the records of a whole walk. The actions that may wait are those that ask for a pause,
by the names of the steps and their inputs. With `waits`, an action waits at the end of the finished
records; in a loop, that is the one of the iteration at `cut`. -/
inductive Partial (asks : String → Json → Prop) : (waits : Bool) → StepMap → StepMap → Prop
  | nil (whole) : Partial asks false [] whole
  | cons {waits k r r' m whole} (alike : r'.timeless = r.timeless)
    (finished : r.status.isFinished = true) (rest : Partial asks waits m whole) :
    Partial asks waits ((k, r') :: m) ((k, r) :: whole)
  | action {waits k r summary output whole} (paused : summary.status = .paused)
    (kind : r.isAction = true) (asked : asks k r.summary.input) :
    Partial asks waits [(k, .action summary output)] ((k, r) :: whole)
  | loop {waits k summary item index its summary' item' index' its' whole} (cut : Nat)
    (unfinished : summary.status.isFinished = false) (input : summary.input = summary'.input)
    (length : its.length = its'.length) (within : waits = true → cut < its.length)
    (before : waits = true → ∀ (i : Nat) (m m' : StepMap), i < cut → its[i]? = some m →
      its'[i]? = some m' → m.timeless = m'.timeless)
    (each : ∀ (i : Nat) (m m' : StepMap), its[i]? = some m → its'[i]? = some m' →
      Partial asks (waits && decide (i = cut)) m m') :
    Partial asks waits [(k, .loop summary item index its)]
      ((k, .loop summary' item' index' its') :: whole)

/-- All records of a map are finished. -/
def StepMap.Finished (m : StepMap) : Prop := ∀ x ∈ m, x.2.status.isFinished = true

namespace Partial

variable {asks : String → Json → Prop} {waits : Bool} {m m₁ m₂ whole whole₁ whole₂ : StepMap}

theorem weaken (h : Partial asks waits m whole) : Partial asks false m whole := by
  induction h with
  | nil whole => exact .nil whole
  | cons alike finished _ ih => exact .cons alike finished ih
  | action paused kind asked => exact .action paused kind asked
  | loop cut unfinished input length _ _ _ ih =>
    exact .loop 0 unfinished input length (by simp) (by simp) fun i m m' hm hm' => by
      simpa using ih i m m' hm hm'

/-- Finished records before a part. -/
theorem prepend (halike : m₁.timeless = whole₁.timeless) (hfinished : whole₁.Finished)
    (h : Partial asks waits m whole) : Partial asks waits (m₁ ++ m) (whole₁ ++ whole) := by
  induction whole₁ generalizing m₁ with
  | nil =>
    rw [StepMap.timeless_eq_nil halike]
    exact h
  | cons x whole₁ ih =>
    obtain ⟨r', rest, rfl, hr, hrest⟩ := StepMap.timeless_eq_cons halike
    exact .cons hr (hfinished x List.mem_cons_self)
      (ih hrest fun y hy => hfinished y (List.mem_cons_of_mem _ hy))

/-- The whole is a part. -/
theorem of_whole (halike : m.timeless = whole.timeless) (hfinished : whole.Finished) :
    Partial asks false m whole := by
  have h : Partial asks false (m ++ []) (whole ++ []) := prepend halike hfinished (.nil [])
  rwa [List.append_nil, List.append_nil] at h

/-- A part of the first records. -/
theorem append (h : Partial asks waits m whole) (whole₂ : StepMap) :
    Partial asks waits m (whole ++ whole₂) := by
  induction h with
  | nil whole => exact .nil _
  | cons alike finished _ ih => exact .cons alike finished ih
  | action paused kind asked => exact .action paused kind asked
  | loop cut unfinished input length within before each =>
    exact .loop cut unfinished input length within before each

/-- A part of the records of two chains one after the other: those of the first one are finished, or
the second one has none. -/
theorem of_append (h : Partial asks waits m (whole₁ ++ whole₂)) :
    (∃ c q, m = c ++ q ∧ c.timeless = whole₁.timeless ∧ Partial asks waits q whole₂) ∨
      Partial asks waits m whole₁ := by
  induction whole₁ generalizing m with
  | nil => exact .inl ⟨[], m, rfl, rfl, h⟩
  | cons x whole₁ ih =>
    cases h with
    | nil => exact .inr (.nil _)
    | @cons _ k r r' m _ alike finished rest =>
      rcases ih rest with ⟨c, q, rfl, hc, hq⟩ | h
      · exact .inl ⟨(k, r') :: c, q, rfl, by rw [StepMap.timeless_cons, alike, hc]; rfl, hq⟩
      · exact .inr (.cons alike finished h)
    | action paused kind asked => exact .inr (.action paused kind asked)
    | loop cut unfinished input length within before each =>
      exact .inr (.loop cut unfinished input length within before each)

theorem eq_nil (h : Partial asks waits m []) : m = [] ∧ waits = false := by
  cases h
  exact ⟨rfl, rfl⟩

/-- Withdrawing pauses leaves a part, in which no action waits any more. -/
theorem withdrawn (h : Partial asks waits m whole) : Partial asks false m.withdrawPauses whole := by
  induction h with
  | nil whole => exact .nil whole
  | @cons _ k r r' m whole alike finished _ ih =>
    have hstatus : r'.status ≠ .paused := fun hp => by
      rw [← StepRecord.status_alike alike, hp] at finished
      cases finished
    rw [StepMap.withdrawPauses_cons, StepRecord.withoutPause_of_status_ne hstatus]
    exact .cons alike finished ih
  | @action _ k r summary output whole paused =>
    have hnone : StepRecord.withoutPause (.action summary output) = none := if_pos paused
    rw [StepMap.withdrawPauses_cons, hnone]
    exact .nil _
  | @loop _ k summary item index its _ _ _ its' whole cut unfinished input length _ _ each ih =>
    rw [StepMap.withdrawPauses_cons]
    by_cases hpaused : summary.status = .paused
    · rw [StepRecord.withoutPause_loop hpaused]
      refine .loop 0 rfl input (by simpa using length) (by simp) (by simp) fun i m m' hm hm' => ?_
      rw [List.getElem?_map, Option.map_eq_some_iff] at hm
      obtain ⟨m₀, hm₀, rfl⟩ := hm
      exact ih i m₀ m' hm₀ hm'
    · have hstatus : (StepRecord.loop summary item index its).status ≠ .paused := hpaused
      rw [StepRecord.withoutPause_of_status_ne hstatus]
      exact .loop 0 unfinished input length (by simp) (by simp) fun i m m' hm hm' =>
        (each i m m' hm hm').weaken

end Partial

/-! ## Finished records -/

namespace StepRecord

mutual

/-- How many records are finished: the record itself, and those of its iterations. -/
def finishedCount : StepRecord → Nat
  | action s _ | branch s _ | split s _ => if s.status.isFinished then 1 else 0
  | loop s _ _ iterations => (if s.status.isFinished then 1 else 0) + finishedAll iterations

/-- How many records of the maps of iterations are finished. -/
def finishedAll : List (List (String × StepRecord)) → Nat
  | [] => 0
  | steps :: rest => finishedIn steps + finishedAll rest

/-- How many records of a map are finished. -/
def finishedIn : List (String × StepRecord) → Nat
  | [] => 0
  | (_, r) :: rest => finishedCount r + finishedIn rest

end

mutual

theorem finishedCount_timeless : ∀ r : StepRecord, r.timeless.finishedCount = r.finishedCount
  | .action _ _ => rfl
  | .branch _ _ => rfl
  | .split _ _ => rfl
  | .loop _ _ _ its => by
    rw [timeless, finishedCount, finishedCount, finishedAll_timeless its]

theorem finishedAll_timeless : ∀ its : List (List (String × StepRecord)),
    finishedAll (timelessAll its) = finishedAll its
  | [] => rfl
  | m :: its => by
    rw [timelessAll, finishedAll, finishedAll, finishedIn_timeless m, finishedAll_timeless its]

theorem finishedIn_timeless : ∀ m : List (String × StepRecord),
    finishedIn (timelessIn m) = finishedIn m
  | [] => rfl
  | (_, r) :: m => by
    rw [timelessIn, finishedIn, finishedIn, finishedCount_timeless r, finishedIn_timeless m]

end

theorem finishedCount_withoutPause_of_iterations? {r : StepRecord} (hr : r.iterations? = none) :
    r.withoutPause.elim 0 finishedCount = r.finishedCount := by
  by_cases h : r.status = .paused
  · rw [withoutPause_eq_none h hr]
    cases r with
    | loop => cases hr
    | action s | branch s | split s =>
      have hs : s.status = .paused := h
      simp [finishedCount, hs, StepStatus.isFinished]
  · rw [withoutPause_of_status_ne h]
    rfl

mutual

theorem finishedCount_withoutPause : ∀ r : StepRecord,
    r.withoutPause.elim 0 finishedCount = r.finishedCount
  | .action _ _ | .branch _ _ | .split _ _ => finishedCount_withoutPause_of_iterations? rfl
  | .loop s item index its => by
    by_cases h : s.status = .paused
    · rw [withoutPause_loop h]
      simp [finishedCount, h, StepStatus.isFinished, finishedAll_withdrawPauses its]
    · rw [withoutPause_of_status_ne (r := .loop s item index its) h]
      rfl

theorem finishedAll_withdrawPauses : ∀ its : List (List (String × StepRecord)),
    finishedAll (its.map StepMap.withdrawPauses) = finishedAll its
  | [] => rfl
  | m :: its => by
    rw [List.map_cons, finishedAll, finishedAll, finishedIn_withdrawPauses m,
      finishedAll_withdrawPauses its]

theorem finishedIn_withdrawPauses : ∀ m : List (String × StepRecord),
    finishedIn (StepMap.withdrawPauses m) = finishedIn m
  | [] => rfl
  | (k, r) :: m => by
    have hr := finishedCount_withoutPause r
    have hm := finishedIn_withdrawPauses m
    rw [StepMap.withdrawPauses_cons]
    cases h : r.withoutPause with
    | some r' =>
      rw [h] at hr
      change finishedCount r' + finishedIn (StepMap.withdrawPauses m) = _
      rw [finishedIn, hm]
      exact congrArg (· + _) hr
    | none =>
      rw [h] at hr
      change finishedIn (StepMap.withdrawPauses m) = _
      rw [finishedIn, hm, ← hr]
      exact (Nat.zero_add _).symm

end

end StepRecord

namespace StepMap

/-- How many records of a map are finished, those in the iterations of its loops included. -/
def finishedCount (m : StepMap) : Nat := StepRecord.finishedIn m

theorem finishedCount_withdrawPauses (m : StepMap) :
    m.withdrawPauses.finishedCount = m.finishedCount :=
  StepRecord.finishedIn_withdrawPauses m

theorem finishedCount_append (m m' : StepMap) :
    finishedCount (m ++ m') = m.finishedCount + m'.finishedCount := by
  induction m with
  | nil => exact (Nat.zero_add _).symm
  | cons x m ih =>
    have h (m : StepMap) : finishedCount (x :: m) = x.2.finishedCount + m.finishedCount := rfl
    rw [List.cons_append, h, h, ih, Nat.add_assoc]

end StepMap

/-- Iterations that have at least as many finished records as others, one by one. -/
theorem StepRecord.finishedAll_le {its its' : List StepMap} (length : its.length = its'.length)
    (each : ∀ (i : Nat) (m m' : StepMap), its[i]? = some m → its'[i]? = some m' →
      m.finishedCount ≤ m'.finishedCount) : finishedAll its ≤ finishedAll its' := by
  induction its generalizing its' with
  | nil => exact Nat.zero_le _
  | cons m its ih =>
    rcases its' with _ | ⟨m', its'⟩
    · cases length
    · have hfirst : m.finishedCount ≤ m'.finishedCount := each 0 m m' rfl rfl
      have hrest := ih (by simpa using length) fun i => each (i + 1)
      exact Nat.add_le_add hfirst hrest

theorem StepRecord.finishedAll_lt {its its' : List StepMap} (length : its.length = its'.length)
    (each : ∀ (i : Nat) (m m' : StepMap), its[i]? = some m → its'[i]? = some m' →
      m.finishedCount ≤ m'.finishedCount) {i : Nat} {m m' : StepMap} (hm : its[i]? = some m)
    (hm' : its'[i]? = some m') (hlt : m.finishedCount < m'.finishedCount) :
    finishedAll its < finishedAll its' := by
  induction its generalizing its' i with
  | nil => cases hm
  | cons m₀ its ih =>
    rcases its' with _ | ⟨m₀', its'⟩
    · cases hm'
    · have hlength : its.length = its'.length := by simpa using length
      have hfirst : m₀.finishedCount ≤ m₀'.finishedCount := each 0 m₀ m₀' rfl rfl
      cases i with
      | zero =>
        obtain rfl : m₀ = m := by simpa using hm
        obtain rfl : m₀' = m' := by simpa using hm'
        exact Nat.add_lt_add_of_lt_of_le hlt (finishedAll_le hlength fun i => each (i + 1))
      | succ i =>
        have hrest := ih hlength (fun i => each (i + 1)) (by simpa using hm) (by simpa using hm')
        exact Nat.add_lt_add_of_le_of_lt hfirst hrest

/-- A part has at most as many finished records as the whole. -/
theorem Partial.count_le {asks : String → Json → Prop} {waits : Bool} {m whole : StepMap}
    (h : Partial asks waits m whole) : m.finishedCount ≤ whole.finishedCount := by
  induction h with
  | nil whole => exact Nat.zero_le _
  | @cons _ k r r' m whole alike _ _ ih =>
    have heq : r'.finishedCount = r.finishedCount := by
      rw [← StepRecord.finishedCount_timeless r', alike, StepRecord.finishedCount_timeless]
    exact Nat.add_le_add (Nat.le_of_eq heq) ih
  | @action _ k r summary output whole paused =>
    have hzero : StepMap.finishedCount [(k, .action summary output)] = 0 := by
      change (if summary.status.isFinished then 1 else 0) + 0 = 0
      rw [paused]
      rfl
    exact hzero ▸ Nat.zero_le _
  | @loop _ k summary item index its summary' item' index' its' whole cut unfinished _ length _ _ _
      ih =>
    have hcount : StepMap.finishedCount [(k, .loop summary item index its)] =
        StepRecord.finishedAll its := by
      change (if summary.status.isFinished then 1 else 0) + StepRecord.finishedAll its + 0 = _
      rw [unfinished]
      exact Nat.zero_add _
    have hle : StepRecord.finishedAll its ≤ StepRecord.finishedAll its' :=
      StepRecord.finishedAll_le length ih
    change _ ≤ (if summary'.status.isFinished then 1 else 0) + StepRecord.finishedAll its' + _
    omega

end FlowEngine.Run
