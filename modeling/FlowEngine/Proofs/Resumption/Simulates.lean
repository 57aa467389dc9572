import FlowEngine.Proofs.Records.Kinds
import FlowEngine.Proofs.Records.Partial
import FlowEngine.Proofs.Resumption.Answers

/-!
# Walks that were cut short, and whole ones

A walk that was cut short by a pause is walked again from a part of the records. It goes on as the
whole walk went on without the pause: it completes the records, or it is cut short at a later point.

* `AlikeBut`, `Reads` — what a template of a step may depend on.
* `Gives` — what comes of a walk, however it is scheduled.
* `Cut` — where a walk stands that was cut short.
* `Simulates` — how such a walk goes on; `Simulates.nil`, `Simulates.seq` for chains, `Simulates.one`
  for steps with one record.
-/

namespace FlowEngine.Engine

open FlowEngine.Run FlowEngine.Flow

/-! ## Templates -/

/-- Two scopes show the same of the loop around and of all steps but one, apart from durations. -/
def AlikeBut (own : String) (scope scope' : Template.Scope) : Prop :=
  scope'.cursor? = scope.cursor? ∧ ∀ n, n ≠ own →
    (scope'.step? n).map StepRecord.timeless = (scope.step? n).map StepRecord.timeless

/-- What is read from scopes with records of given kinds is read by looking names up: neither the
name of the own step, nor any duration, nor the time. -/
def Reads {α : Type} (kinds : Kinds) (own : String) (f : Expr.Names → α) : Prop :=
  ∀ scope scope' now now', scope.Fits kinds → AlikeBut own scope scope' →
    f (scope'.names now') = f (scope.names now)

/-- The templates of a step read scopes by looking other names up. -/
def ReadsNames (kinds : Kinds) : Step → Prop
  | .action label a => Reads kinds label.name fun names => Template.resolve names a.input
  | .branch label c _ _ => (Reads kinds label.name fun names => conditionInput names c) ∧
    Reads kinds label.name fun names => Template.conditionsHold names c
  | .loop label settings _ =>
    Reads kinds label.name fun names => Template.resolve names settings.items
  | _ => True

/-! ## What comes of a walk -/

/-- However a walk is scheduled, as long as the actions answer like this, it is under way or gives a
state of some kind. -/
def Gives (a : Answers) (w : Walk) (Q : RunState → Prop) : Prop :=
  ∀ t o, Job.Yields w t o → a.Explains t → o = .pending ∨ ∃ s, o = .result (.ok s) ∧ Q s

namespace Gives

variable {a : Answers} {w : Walk} {Q Q' : RunState → Prop} {s : RunState}

theorem ended (h : Q s) : Gives a (Walk.ended s) Q := by
  intro t o hy _
  obtain ⟨-, rfl | rfl⟩ := Job.Yields.done_iff.mp hy
  · exact .inl rfl
  · exact .inr ⟨s, rfl, h⟩

theorem mono (h : Gives a w Q) (hQ : ∀ s, Q s → Q' s) : Gives a w Q' := fun t o hy ht =>
  (h t o hy ht).imp id fun ⟨s, ho, hs⟩ => ⟨s, ho, hQ s hs⟩

theorem clock {next : Reading Time.Instant → Walk} (h : ∀ reading, Gives a (next reading) Q) :
    Gives a (.clock next) Q := by
  intro t o hy ht
  rcases Job.Yields.of_clock hy with ⟨-, rfl⟩ | ⟨reading, hy⟩
  · exact .inl rfl
  · exact h reading t o hy ht

/-- A walk goes on with the states that come of another one. -/
theorem andThen {f : RunState → Walk} (h : Gives a w Q) (hf : ∀ s, Q s → Gives a (f s) Q') :
    Gives a (w.andThen f) Q' := by
  intro t o hy ht
  rcases Job.Yields.of_bind hy with ⟨r, t₁, t₂, rfl, h₁, h₂⟩ | ⟨h₁, ho⟩
  · obtain ⟨ht₁, ht₂⟩ := Answers.explains_append.mp ht
    obtain hr | ⟨s, hr, hs⟩ := h t₁ _ h₁ ht₁ <;> cases hr
    exact hf s hs t₂ o h₂ ht₂
  · obtain rfl | ⟨s, rfl, -⟩ := h t o h₁ ht
    · exact .inl rfl
    · exact absurd rfl (ho _)

/-- A walk that gives states, all of which are of some kind. -/
theorem of_ok (h : Gives a w fun _ => True)
    (hQ : ∀ t s, Job.Yields w t (.result (.ok s)) → a.Explains t → Q s) : Gives a w Q := by
  intro t o hy ht
  obtain rfl | ⟨s, rfl, -⟩ := h t o hy ht
  · exact .inl rfl
  · exact .inr ⟨s, rfl, hQ t s hy ht⟩

end Gives

/-! ## Walks that were cut short -/

/-- What walks have in common that begin a flow and resume it: the setup, the payload that counts if
there is none in the setup, how actions answer, which ones ask for a pause when they begin, by the
names of their steps and their inputs, and of which kinds the steps are. -/
structure Rerun where
  setup : Setup
  payload : ResumePayload
  answers : Answers
  asks : String → Json → Prop
  kinds : Kinds

namespace Rerun

variable (x : Rerun)

/-- The setup of a walk that begins a flow. -/
def beginning : Setup := { x.setup with payload := none }

/-- The whole walk meets actions that do not pause. -/
def direct : Answers := x.answers.direct x.payload

/-- The actions of some steps that ask for a pause are known. -/
def Knows (steps : List Step) : Prop := ∀ label a, .action label a ∈ steps → ∀ input,
  x.asks label.name input ↔ isPause (x.answers (targetOf a.work) (sourceOf? a.work) input none) = true

end Rerun

/-- A walk that was cut short, at a place, with the records before its chain, and a part of those that
the whole walk left there. -/
structure Cut (x : Rerun) (place : Place) (base whole : StepMap) (waits : Bool) (place' : Place)
    (s : RunState) (before kept : StepMap) : Prop where
  around : place'.around.timeless = place.around.timeless
  cursor : place'.cursor = place.cursor
  running : s.verdict = .running
  steps : s.steps = before ++ kept
  alike : before.timeless = base.timeless
  part : Partial x.asks waits kept whole
  payload : kept = [] ∨ x.setup.payload.getD .empty = x.payload

/-- How a walk goes on that was cut short: it completes the records, or it is cut short again, and
more records are finished if an action waited. -/
def Advances (x : Rerun) (waits : Bool) (before kept whole : StepMap) (s : RunState) : Prop :=
  ∃ kept', s.steps = before ++ kept' ∧
    kept.finishedCount + waits.toNat ≤ kept'.finishedCount ∧
    (s.verdict = .running ∧ kept'.timeless = whole.timeless ∨
      s.verdict.status = .paused ∧ Partial x.asks true kept' whole)

/-- How a walk goes on with records that follow others. -/
theorem Advances.prepend {x : Rerun} {waits waits₀ : Bool} {before c kept kept₀ whole₁ whole₂ : StepMap}
    {s : RunState} (h : Advances x waits (before ++ c) kept whole₂ s)
    (hc : c.timeless = whole₁.timeless) (hfinished : whole₁.Finished)
    (hcount : kept₀.finishedCount + waits₀.toNat ≤ (c ++ kept).finishedCount + waits.toNat) :
    Advances x waits₀ before kept₀ (whole₁ ++ whole₂) s := by
  obtain ⟨kept', hs, hle, hend⟩ := h
  refine ⟨c ++ kept', by rw [hs, List.append_assoc], ?_, ?_⟩
  · rw [StepMap.finishedCount_append] at hcount ⊢
    omega
  · refine hend.imp (fun h => ⟨h.1, ?_⟩) fun h => ⟨h.1, .prepend hc hfinished h.2⟩
    rw [StepMap.timeless_append, hc, h.2, StepMap.timeless_append]

/-- A walk simulates the whole one, which added records to those before it.

* `rests` — it leaves complete records as they are.
* `gives` — it advances from a part of them. -/
structure Simulates (x : Rerun) (walk : Place → RunState → Walk) (place : Place)
    (base whole : StepMap) : Prop where
  finished : whole.Finished
  rests : ∀ place' s before kept after, s.steps = before ++ kept ++ after →
    before.timeless = base.timeless → kept.timeless = whole.timeless → walk place' s = Walk.ended s
  gives : ∀ waits place' s before kept, Cut x place base whole waits place' s before kept →
    Gives x.answers (walk place' s) (Advances x waits before kept whole)

namespace Simulates

variable {x : Rerun} {place : Place} {base whole whole₁ whole₂ : StepMap}

theorem nil : Simulates x (fun _ s => Walk.ended s) place base [] where
  finished := by rintro y ⟨⟩
  rests _ _ _ _ _ _ _ _ := rfl
  gives waits place' s before kept h := by
    obtain ⟨hpart, rfl⟩ := h.part.eq_nil
    exact .ended ⟨kept, h.steps, Nat.le_refl _, .inl ⟨h.running, by rw [hpart]⟩⟩

/-- A step with one record is walked like the whole one if it is not walked once the record is finished,
and goes on from what there may be of the record before. -/
theorem one {walk : Place → RunState → Walk} {name : String} {r : StepRecord}
    (hfresh : base.get? name = none) (hfinished : r.status.isFinished = true)
    (hrests : ∀ place' s r', s.steps.get? name = some r' → r'.status.isFinished = true →
      walk place' s = Walk.ended s)
    (hgives : ∀ waits place' s before kept,
      Cut x place base [(name, r)] waits place' s before kept →
        (waits = false ∧ kept.timeless = StepMap.timeless [(name, r)]) ∨
          Gives x.answers (walk place' s) (Advances x waits before kept [(name, r)])) :
    Simulates x walk place base [(name, r)] := by
  have rests {place' : Place} {s : RunState} {before kept after : StepMap}
      (hs : s.steps = before ++ kept ++ after) (hbefore : before.timeless = base.timeless)
      (hkept : kept.timeless = StepMap.timeless [(name, r)]) : walk place' s = Walk.ended s := by
    obtain ⟨r', -, -, hr, -, hget⟩ := StepMap.get?_of_alike hfresh hs hbefore hkept
    exact hrests place' s r' hget (by rw [StepRecord.status_alike hr, hfinished])
  refine ⟨?_, fun _ _ _ _ _ hs hbefore hkept => rests hs hbefore hkept,
    fun waits place' s before kept h => ?_⟩
  · intro y hy
    rw [List.mem_singleton.mp hy]
    exact hfinished
  · obtain ⟨rfl, hkept⟩ | hgives := hgives waits place' s before kept h
    · rw [rests (by rw [List.append_nil, h.steps]) h.alike hkept]
      exact .ended ⟨kept, h.steps, Nat.le_refl _, .inl ⟨h.running, hkept⟩⟩
    · exact hgives

/-- A walk that goes on with another one as long as the run does. -/
theorem seq {w₁ w₂ : Place → RunState → Walk} (h₁ : Simulates x w₁ place base whole₁)
    (h₂ : Simulates x w₂ place (base ++ whole₁) whole₂) :
    Simulates x (fun place s => (w₁ place s).andThen fun s =>
      if s.verdict.isRunning then w₂ place s else Walk.ended s) place base (whole₁ ++ whole₂) where
  finished y hy := (List.mem_append.mp hy).elim (h₁.finished y) (h₂.finished y)
  rests place' s before kept after hs hbefore hkept := by
    obtain ⟨c, q, rfl, hc, hq⟩ := StepMap.timeless_eq_append hkept
    have hfirst : w₁ place' s = Walk.ended s :=
      h₁.rests place' s before c (q ++ after) (by simpa using hs) hbefore hc
    have hsecond : w₂ place' s = Walk.ended s :=
      h₂.rests place' s (before ++ c) q after (by simpa using hs)
        (by rw [StepMap.timeless_append, hbefore, hc, StepMap.timeless_append]) hq
    change (w₁ place' s).andThen _ = _
    rw [hfirst]
    change (if s.verdict.isRunning then w₂ place' s else Walk.ended s) = _
    rw [hsecond, ite_self]
  gives waits place' s before kept h := by
    rcases h.part.of_append with ⟨c, q, rfl, hc, hq⟩ | hpart
    -- the first walk is complete, and the second one goes on
    · have hsteps : s.steps = before ++ c ++ q := by rw [h.steps, List.append_assoc]
      have hfirst : w₁ place' s = Walk.ended s := h₁.rests place' s before c q hsteps h.alike hc
      have hcut : Cut x place (base ++ whole₁) whole₂ waits place' s (before ++ c) q :=
        ⟨h.around, h.cursor, h.running, hsteps,
          by rw [StepMap.timeless_append, h.alike, hc, StepMap.timeless_append], hq,
          h.payload.imp (fun hnil => (List.append_eq_nil_iff.mp hnil).2) id⟩
      change Gives x.answers ((w₁ place' s).andThen _) _
      rw [hfirst]
      change Gives x.answers (if s.verdict.isRunning then w₂ place' s else Walk.ended s) _
      rw [if_pos (isRunning_iff.mpr h.running)]
      exact (h₂.gives waits place' s _ q hcut).mono fun s' h =>
        h.prepend hc h₁.finished (Nat.le_refl _)
    -- the second walk has not begun
    · have hcut : Cut x place base whole₁ waits place' s before kept :=
        ⟨h.around, h.cursor, h.running, h.steps, h.alike, hpart, h.payload⟩
      refine (h₁.gives waits place' s before kept hcut).andThen ?_
      rintro s₁ ⟨kept₁, hs₁, hcount₁, ⟨hrunning, halike⟩ | ⟨hpaused, hpart₁⟩⟩
      · rw [if_pos (isRunning_iff.mpr hrunning)]
        have hcut₂ : Cut x place (base ++ whole₁) whole₂ false place' s₁ (before ++ kept₁) [] :=
          ⟨h.around, h.cursor, hrunning, by rw [hs₁, List.append_nil],
            by rw [StepMap.timeless_append, h.alike, halike, StepMap.timeless_append], .nil _, .inl rfl⟩
        exact (h₂.gives false place' s₁ _ [] hcut₂).mono fun s' h =>
          h.prepend halike h₁.finished (by rw [List.append_nil]; exact hcount₁)
      · have hstopped : s₁.verdict.isRunning = false := by
          cases hv : s₁.verdict <;> rw [hv] at hpaused <;> first | rfl | cases hpaused
        rw [hstopped]
        exact .ended ⟨kept₁, hs₁, hcount₁, .inr ⟨hpaused, hpart₁.append whole₂⟩⟩

end Simulates

end FlowEngine.Engine
