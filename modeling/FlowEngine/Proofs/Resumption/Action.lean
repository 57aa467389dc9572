import FlowEngine.Proofs.Resumption.Simulates

/-!
# Walking an action again

An action that waits is called with the payload and answers as the whole walk had it answer at once;
its input is resolved again, and gives the same.

* `Cut.alikeBut` — the scope of a template when a walk was cut short.
* `Simulates.action` — the walk of an action.
-/

namespace FlowEngine.Engine

open FlowEngine.Run FlowEngine.Flow

variable {x : Rerun} {place place' : Place} {base whole before kept : StepMap} {waits : Bool}
  {s s' : RunState} {name : String} {a : Flow.Action} {t : Trace}

/-- When a walk was cut short, a template sees what it saw in the whole walk, apart from the step
that was cut short. -/
theorem Cut.alikeBut {s₀ : RunState} (h : Cut x place s₀.steps whole waits place' s before kept)
    {own : String} (hown : ∀ n, n ≠ own → kept.get? n = none) :
    AlikeBut own (place.scope s₀) (place'.scope s) := by
  refine ⟨?_, fun n hn => ?_⟩
  · rw [Place.cursor?_scope, Place.cursor?_scope, h.cursor, ← place'.around.cursor?_timeless, h.around,
      place.around.cursor?_timeless]
  · have haround := place'.around.step?_timeless n
    rw [h.around, place.around.step?_timeless] at haround
    have hbefore := StepMap.get?_alike h.alike n
    rw [Place.step?_scope, Place.step?_scope, h.steps, StepMap.get?_append, hown n hn, Option.or_none,
      Option.map_or, Option.map_or, hbefore, haround]

/-! ## The end of an action -/

theorem endingState_steps (s : RunState) (name : String) (e : ErrorHandling) (input : Json)
    (duration : Nat) (r : Ending) : (endingState s name e input duration r).steps =
      s.steps.insert name ((endingRecord input r).withDuration duration) := rfl

/-- An action after which the run goes on has a finished record. -/
theorem endingRecord_finished {e : ErrorHandling} (input : Json) {r : Ending}
    (h : endingVerdict name e .running r = .running) : ∃ summary output,
      endingRecord input r = .action summary output ∧ summary.status.isFinished = true ∧
        summary.input = input := by
  rcases r with failure | ⟨output, _ | pause | response⟩
  · exact ⟨_, _, rfl, rfl, rfl⟩
  · exact ⟨_, _, rfl, rfl, rfl⟩
  · cases h
  · cases h

/-- The reply to the call of an action: with a payload if its record is paused. -/
theorem reply_callOf (answers : Answers) (setup : Setup) (input : Json) :
    answers.reply (callOf setup place s name a input) =
      answers (targetOf a.work) (sourceOf? a.work) input
        (if (s.steps.get? name).any fun r => r.status == .paused then
          some (setup.payload.getD .empty) else none) := rfl

/-- The records of an action that is walked: it has none, or it waits for the payload. -/
inductive Awaits (x : Rerun) (name : String) (input : Json) : Bool → StepMap → Prop
  | fresh : Awaits x name input false []
  | again {waits summary output} (paused : summary.status = .paused) (asked : x.asks name input)
    (payload : x.setup.payload.getD .empty = x.payload) :
    Awaits x name input waits [(name, .action summary output)]

theorem Awaits.other {input : Json} (h : Awaits x name input waits kept) {n : String}
    (hn : n ≠ name) : kept.get? n = none := by
  cases h with
  | fresh => rfl
  | again => rw [StepMap.get?_cons, if_neg (Ne.symm hn)]; rfl

theorem Awaits.insert {input : Json} (h : Awaits x name input waits kept) (r : StepRecord) :
    kept.insert name r = [(name, r)] := by
  cases h with
  | fresh => rfl
  | again => exact if_pos rfl

theorem Awaits.unfinished {input : Json} (h : Awaits x name input waits kept) {r : StepRecord}
    (hr : kept.get? name = some r) : r.status.isFinished = false := by
  cases h with
  | fresh => cases hr
  | @again _ summary output paused =>
    rw [StepMap.get?_cons, if_pos rfl] at hr
    cases hr
    change summary.status.isFinished = false
    rw [paused]
    rfl

theorem Awaits.count {input : Json} (h : Awaits x name input waits kept) :
    kept.finishedCount = 0 := by
  cases h with
  | fresh => rfl
  | @again _ summary output paused =>
    change (if summary.status.isFinished then 1 else 0) + 0 = 0
    rw [paused]
    rfl

/-- An action asks for a pause, or it answers as the whole walk had it answer. -/
theorem Awaits.reply {input : Json} (place : Place) (hasks : x.asks name input ↔
      isPause (x.answers (targetOf a.work) (sourceOf? a.work) input none) = true)
    (h : Awaits x name input waits kept) (hfresh : before.get? name = none)
    (hs : s.steps = before ++ kept) :
    let reply := x.answers.reply (callOf x.setup place s name a input)
    (waits = false ∧ isPause reply = true ∧ x.asks name input) ∨
      reply = x.direct (targetOf a.work) (sourceOf? a.work) input none := by
  have hget : s.steps.get? name = kept.get? name := by
    rw [hs, StepMap.get?_append, hfresh, Option.none_or]
  dsimp only
  rw [reply_callOf, hget]
  cases h with
  | fresh =>
    cases hp : isPause (x.answers (targetOf a.work) (sourceOf? a.work) input none) with
    | true => exact .inl ⟨rfl, hp, hasks.mpr hp⟩
    | false => exact .inr (Answers.direct_of_not_pause hp).symm
  | @again _ summary output paused asked payload =>
    have hpaused : (StepMap.get? [(name, .action summary output)] name).any
        (fun r => r.status == .paused) = true := by
      rw [StepMap.get?_cons, if_pos rfl]
      change (summary.status == .paused) = true
      rw [paused]
      rfl
    rw [if_pos hpaused, payload]
    exact .inr (Answers.direct_of_pause (hasks.mp asked)).symm

/-- A part of the record of an action: the whole, or the action is walked. -/
theorem Awaits.of_partial {summary : Summary} {output : Json}
    (h : Partial x.asks waits kept [(name, .action summary output)])
    (hpayload : kept = [] ∨ x.setup.payload.getD .empty = x.payload) :
    (waits = false ∧ kept.timeless = StepMap.timeless [(name, .action summary output)]) ∨
      Awaits x name summary.input waits kept := by
  cases h with
  | nil => exact .inr .fresh
  | cons alike finished rest =>
    obtain ⟨rfl, rfl⟩ := rest.eq_nil
    exact .inl ⟨rfl, by rw [StepMap.timeless_cons, alike]; rfl⟩
  | action paused kind asked =>
    exact .inr (.again paused asked (hpayload.resolve_left (List.cons_ne_nil _ _)))

/-- What comes of an action that ends as in the whole walk. -/
theorem advances_ending {e : ErrorHandling} {input : Json} {r : Ending}
    (h : Awaits x name input waits kept) (hfresh : before.get? name = none)
    (hs : s.steps = before ++ kept) (hv : s.verdict = .running)
    (hr : endingVerdict name e .running r = .running) (duration duration' : Nat) :
    Advances x waits before kept [(name, (endingRecord input r).withDuration duration)]
      (endingState s name e input duration' r) := by
  obtain ⟨summary, output, hrecord, hfinished, -⟩ := endingRecord_finished input hr
  refine ⟨[(name, (endingRecord input r).withDuration duration')], ?_, ?_, .inl ⟨?_, ?_⟩⟩
  · rw [endingState_steps, hs, StepMap.insert_append _ hfresh, h.insert]
  · rw [h.count, hrecord]
    have hone : StepMap.finishedCount
        [(name, (StepRecord.action summary output).withDuration duration')] = 1 := by
      change (if summary.status.isFinished then 1 else 0) + 0 = 1
      rw [hfinished]
      rfl
    rw [hone, Nat.zero_add]
    exact Bool.toNat_le waits
  · change endingVerdict name e s.verdict r = .running
    rw [hv, hr]
  · rw [hrecord]
    rfl

/-- What comes of an action that asks for a pause. -/
theorem advances_pause {e : ErrorHandling} {input : Json} {r : StepRecord} {output : Json}
    {pause : Pause} (hr : r.summary.input = input) (hkind : r.isAction = true) (h : Awaits x name input false kept)
    (hfresh : before.get? name = none) (hs : s.steps = before ++ kept)
    (hasked : x.asks name input) (duration : Nat) :
    Advances x false before kept [(name, r)]
      (endingState s name e input duration (.ok (output, some (.pause pause)))) := by
  subst hr
  refine ⟨[(name, .action ⟨.paused, r.summary.input, none, some duration⟩ output)], ?_, ?_,
    .inr ⟨rfl, .action rfl hkind hasked⟩⟩
  · rw [endingState_steps, hs, StepMap.insert_append _ hfresh, h.insert]
    rfl
  · rw [h.count]
    exact Nat.le_refl _

/-! ## The walk -/

/-- What comes of an action that is walked again, given how it ended in the whole walk. -/
theorem Awaits.gives {resolved : Except Template.Failure Json} {input : Json} {r : Ending}
    (hserves : x.setup.registry.serves (targetOf a.work) = true)
    (hasks : ∀ input, x.asks name input ↔
      isPause (x.answers (targetOf a.work) (sourceOf? a.work) input none) = true)
    (hends : actionEnding x.setup a (fun input =>
      x.direct (targetOf a.work) (sourceOf? a.work) input none) resolved = (input, some r))
    (hr : endingVerdict name a.errorHandling .running r = .running) (duration : Nat)
    (h : Awaits x name input waits kept) (hfresh : before.get? name = none)
    (hs : s.steps = before ++ kept) (hv : s.verdict = .running)
    (hresolve : ∀ now, Template.resolve (place.names s now) a.input = resolved) :
    Gives x.answers (runAction x.setup place name a s)
      (Advances x waits before kept [(name, (endingRecord input r).withDuration duration)]) := by
  intro t o hy ht
  have hget : s.steps.get? name = kept.get? name := by
    rw [hs, StepMap.get?_append, hfresh, Option.none_or]
  obtain ⟨hno, -⟩ | ⟨-, ho | ⟨now, hconcludes⟩⟩ :=
    runAction_concludes (fun r hr => h.unfinished (hget ▸ hr)) hy ht
  · rw [hserves] at hno
    cases hno
  · exact .inl ho
  rw [hresolve] at hconcludes
  have hsame {ends : Json × Option Ending} (heq : ends = (input, some r))
      (hc : Concludes s name a.errorHandling ends.1 ends.2 o) : o = .pending ∨ ∃ s', o = .result (.ok s') ∧
        Advances x waits before kept [(name, (endingRecord input r).withDuration duration)] s' := by
    subst heq
    obtain rfl | ⟨hnone, -⟩ | ⟨r', duration', hr', rfl⟩ := hc
    · exact .inl rfl
    · cases hnone
    · cases hr'
      exact .inr ⟨_, rfl, advances_ending h hfresh hs hv hr duration duration'⟩
  rcases resolved with (e | _) | input'
  · exact hsame hends hconcludes
  · cases hends
  · obtain ⟨rfl, hconclusion⟩ := Prod.mk.inj hends
    rcases h.reply place (hasks input') hfresh hs with ⟨rfl, hpause, hasked⟩ | hreply
    · obtain ⟨output, pause, hpaused⟩ := conclusion_of_pause hpause
        (retryBudget x.setup.settings a.errorHandling)
      dsimp only [actionEnding] at hconcludes
      rw [hpaused] at hconcludes
      obtain rfl | ⟨hnone, -⟩ | ⟨r', duration', hr', rfl⟩ := hconcludes
      · exact .inl rfl
      · cases hnone
      · cases hr'
        obtain ⟨summary, output', hrecord, -, hsummary⟩ := endingRecord_finished input' hr
        refine .inr ⟨_, rfl, advances_pause ?_ ?_ h hfresh hs hasked duration'⟩ <;> rw [hrecord]
        · exact hsummary
        · rfl
    · refine hsame ?_ hconcludes
      rw [actionEnding, hreply]
      exact hends

/-- The walk of an action simulates the whole one. -/
theorem Simulates.action
    (hreads : Reads x.kinds name fun names => Template.resolve names a.input)
    (hasks : ∀ input, x.asks name input ↔
      isPause (x.answers (targetOf a.work) (sourceOf? a.work) input none) = true)
    (hfresh : s.steps.get? name = none) (hfits : (place.scope s).Fits x.kinds)
    (hkind : ∃ type, x.kinds name type) (hv : s.verdict = .running)
    (h : Job.Yields (runAction x.beginning place name a s) t (.result (.ok s')))
    (ht : x.direct.Explains t) (hend : s'.verdict = .running) :
    ∃ r, s'.steps = s.steps ++ [(name, r)] ∧ r.Fits x.kinds name ∧
      Simulates x (fun place s => runAction x.setup place name a s) place s.steps [(name, r)] := by
  obtain ⟨-, hno⟩ | ⟨hserves, ho | ⟨now, hconcludes⟩⟩ :=
    runAction_concludes (fun r hr => by rw [hfresh] at hr; cases hr) h ht
  · exact absurd rfl (hno s')
  · cases ho
  obtain ho | ⟨-, ho⟩ | ⟨r, duration, hr, ho⟩ := hconcludes
  · cases ho
  · cases ho
  have hreply (input : Json) : x.direct.reply (callOf x.beginning place s name a input) =
      x.direct (targetOf a.work) (sourceOf? a.work) input none := by
    rw [reply_callOf, hfresh]
    rfl
  have hsettings : actionEnding x.beginning a = actionEnding x.setup a := rfl
  simp only [hreply, hsettings] at hr ho
  generalize hresolved : Template.resolve (place.names s now) a.input = resolved at hr ho
  generalize hends : actionEnding x.setup a (fun input =>
    x.direct (targetOf a.work) (sourceOf? a.work) input none) resolved = ends at hr ho
  obtain ⟨input, ending⟩ := ends
  cases hr
  cases ho
  have hrunning : endingVerdict name a.errorHandling s.verdict r = .running := hend
  rw [hv] at hrunning
  obtain ⟨summary, output, hrecord, hfinished, hsummary⟩ := endingRecord_finished input hrunning
  refine ⟨(endingRecord input r).withDuration duration, StepMap.insert_of_none _ hfresh,
    by rw [hrecord]; exact hkind, ?_⟩
  refine .one hfresh (by rw [hrecord]; exact hfinished) (fun _ _ _ => runAction_rests)
    fun waits place' s' before kept hcut => ?_
  have hpart := hcut.part
  rw [hrecord] at hpart ⊢
  refine (Awaits.of_partial hpart hcut.payload).imp id fun hawaits => ?_
  have hawaits : Awaits x name input waits kept := hsummary ▸ hawaits
  rw [← hrecord]
  refine hawaits.gives hserves hasks hends hrunning duration
    (StepMap.get?_eq_none_of_alike hcut.alike hfresh) hcut.steps hcut.running fun now' => ?_
  rw [← hresolved]
  exact hreads _ _ _ _ hfits (hcut.alikeBut fun n hn => hawaits.other hn)

end FlowEngine.Engine
