import FlowEngine.Proofs.Agreement.Agrees
import FlowEngine.Engine.Walk

/-!
# Actions and branches agree

An action that is walked from alike records makes the same call, and so gets the same reply. A branch
decides alike, and then walks the same side.

* `Untimed`, `ReadsNoDuration` — templates that do not depend on durations.
* `runAction_agrees`, `runBranch_agrees` — walks from alike records at alike places.
-/

namespace FlowEngine.Engine

open FlowEngine.Run FlowEngine.Flow

/-! ## Templates -/

/-- What is read from scopes does not depend on time: neither on the durations of records nor on what
the clock shows. -/
def Untimed {α : Type} (f : Expr.Names → α) : Prop :=
  ∀ scope scope' : Template.Scope, scope.timeless = scope'.timeless →
    ∀ now now', f (scope.names now) = f (scope'.names now')

/-- The templates of a step read no durations. -/
def ReadsNoDuration : Step → Prop
  | .trigger _ _ => True
  | .action _ a => Untimed fun names => Template.resolve names a.input
  | .branch _ c _ _ => (Untimed fun names => conditionInput names c) ∧
    Untimed fun names => Template.conditionsHold names c
  | .split _ _ branches => ∀ b ∈ branches.map Prod.fst,
    Untimed fun names => Template.conditionsHold names b.condition
  | .loop _ settings _ => Untimed fun names => Template.resolve names settings.items

variable {answer : Answering} {whole : Prop} {setup : Setup} {place place' : Place}
  {s s' : RunState} {name : String}

theorem path_alike (h : place.timeless = place'.timeless) : place.path = place'.path :=
  show place.timeless.path = place'.timeless.path from congrArg Place.path h

theorem scope_alike (hp : place.timeless = place'.timeless) (hs : s.timeless = s'.timeless) :
    (place.scope s).timeless = (place'.scope s').timeless := by
  have haround : place.around.timeless = place'.around.timeless :=
    show place.timeless.around = place'.timeless.around from congrArg Place.around hp
  have hcursor : place.cursor = place'.cursor :=
    show place.timeless.cursor = place'.timeless.cursor from congrArg Place.cursor hp
  change (⟨s.steps.timeless, place.cursor⟩ :: place.around.timeless : Template.Scope) =
    ⟨s'.steps.timeless, place'.cursor⟩ :: place'.around.timeless
  rw [RunState.steps_alike hs, haround, hcursor]

/-- The places of the bodies of loops at alike places. -/
theorem enter_alike (hp : place.timeless = place'.timeless) (hs : s.timeless = s'.timeless)
    (name : String) (cursor : Template.Cursor) :
    (place.enter s name cursor).timeless = (place'.enter s' name cursor).timeless := by
  have hscope := scope_alike hp hs
  change (⟨(place.scope s).timeless, some cursor, place.path ++ [(name, cursor.index)]⟩ : Place) =
    ⟨(place'.scope s').timeless, some cursor, place'.path ++ [(name, cursor.index)]⟩
  rw [hscope, path_alike hp]

/-- What a template of the kind gives at alike places. -/
theorem Untimed.eq {α : Type} {f : Expr.Names → α} (h : Untimed f)
    (hp : place.timeless = place'.timeless) (hs : s.timeless = s'.timeless)
    (now now' : Time.Instant) : f (place.names s now) = f (place'.names s' now') :=
  h _ _ (scope_alike hp hs) now now'

theorem any_status_alike (hs : s.timeless = s'.timeless) (p : StepStatus → Bool) (n : String) :
    ((s.steps.get? n).any fun r => p r.status) = (s'.steps.get? n).any fun r => p r.status := by
  have key (s : RunState) : ((s.steps.get? n).any fun r => p r.status) =
      (((s.steps.get? n).map StepRecord.timeless).any fun r => p r.status) := by
    rw [Option.any_map]
    refine congrArg (Option.any · _) (funext fun r => ?_)
    rw [StepRecord.status_timeless]
  rw [key, key, RunState.get?_alike hs]

/-! ## Actions -/

theorem Agrees.failed (hs : s.timeless = s'.timeless) (message : String) {r r' : StepRecord}
    (hr : r.timeless = r'.timeless) :
    Agrees answer whole (Walk.failed s name message r) (Walk.failed s' name message r') :=
  .ended (RunState.withVerdict_alike (RunState.upsert_alike hs name hr) _)

theorem failStep_agrees (hs : s.timeless = s'.timeless) (e : ErrorHandling)
    (started started' : Reading Time.Instant) (input : Json) (failure : Block.Failure) :
    Agrees answer whole (failStep s name e started input failure)
      (failStep s' name e started' input failure) := by
  refine .clock fun stopped stopped' => ?_
  have hr : ((failedRecord input failure.message).withDuration (elapsed started stopped)).timeless =
      ((failedRecord input failure.message).withDuration (elapsed started' stopped')).timeless := by
    rw [StepRecord.withDuration_timeless, StepRecord.withDuration_timeless]
  dsimp only
  split_ifs
  · exact .ended (RunState.upsert_alike hs name hr)
  · exact .failed hs failure.message hr

theorem completeStep_agrees (hs : s.timeless = s'.timeless) (i : Invocation)
    (started : Reading Time.Instant) (output : Json) (hook : Option Block.Hook) :
    Agrees answer whole (completeStep s i output hook)
      (completeStep s' { i with started := started } output hook) := by
  refine .clock fun stopped stopped' => ?_
  have hr (status : StepStatus) :
      (StepRecord.action ⟨status, i.input, none, some (elapsed i.started stopped)⟩ output).timeless =
        (StepRecord.action ⟨status, i.input, none, some (elapsed started stopped')⟩ output).timeless := by
    simp only [StepRecord.timeless]
  rcases hook with _ | pause | response
  · exact .ended (RunState.upsert_alike hs i.name (hr _))
  · exact .ended (RunState.withVerdict_alike (RunState.upsert_alike hs i.name (hr _)) _)
  · exact .ended (RunState.withVerdict_alike (RunState.upsert_alike hs i.name (hr _)) _)

theorem onReply_agrees (hs : s.timeless = s'.timeless) (i : Invocation)
    (started : Reading Time.Instant) (limit : Option Nat) (reply : Option Block.Reply)
    {failed failed' : Block.Failure → Walk}
    (h : ∀ failure, Agrees answer whole (failed failure) (failed' failure)) :
    Agrees answer whole (onReply limit reply failed (completeStep s i))
      (onReply limit reply failed' (completeStep s' { i with started := started })) := by
  rcases reply with _ | _ | ⟨failure | output, hook⟩
  · exact h _
  · exact .crash
  · exact h _
  · exact completeStep_agrees hs i started output hook

theorem attempts_agrees (hs : s.timeless = s'.timeless) (i : Invocation)
    (started : Reading Time.Instant) (left : Nat) :
    Agrees answer whole (attempts setup s i left)
      (attempts setup s' { i with started := started } left) := by
  have fail (failure : Block.Failure) : Agrees answer whole
      (failStep s i.name i.errorHandling i.started i.input failure)
      (failStep s' i.name i.errorHandling started i.input failure) :=
    failStep_agrees hs i.errorHandling i.started started i.input failure
  induction left with
  | zero => exact .call (onReply_agrees hs i started _ _ fail)
  | succ left ih =>
    refine .call (onReply_agrees hs i started _ _ fun failure => ?_)
    dsimp only
    cases reactionTo setup.settings.retry i.errorHandling failure
        (setup.settings.retry.maxRetries - (left + 1)) with
    | retry delay =>
      cases delay with
      | none => exact .crash
      | some nanos => exact .sleep ih
    | carryOn => exact fail failure
    | abort => exact fail failure

/-- Actions agree that are walked from alike records. -/
theorem runAction_agrees {a : Flow.Action}
    (ha : Untimed fun names => Template.resolve names a.input)
    (hp : place.timeless = place'.timeless) (hs : s.timeless = s'.timeless) :
    Agrees answer whole (runAction setup place name a s) (runAction setup place' name a s') := by
  have hfinished := any_status_alike hs StepStatus.isFinished name
  have hpaused := any_status_alike hs (fun status => status == .paused) name
  have hrequest (input : Json) : requestOf setup place.path s name a.work input =
      requestOf setup place'.path s' name a.work input := by
    have hrunId : s.runId = s'.runId :=
      show s.timeless.runId = s'.timeless.runId from congrArg RunState.runId hs
    have hprojectId : s.projectId = s'.projectId :=
      show s.timeless.projectId = s'.timeless.projectId from congrArg RunState.projectId hs
    unfold requestOf
    rw [path_alike hp, hpaused, hrunId, hprojectId]
  unfold runAction
  rw [hfinished]
  split_ifs
  · exact .ended hs
  · exact .done rfl
  · refine .clock fun started started' => .onTemplate (ha.eq hp hs _ _) fun r => ?_
    rcases r with e | input
    · exact failStep_agrees hs _ _ _ _ _
    · dsimp only
      rw [hrequest]
      exact attempts_agrees hs _ started' _

/-! ## Branches -/

theorem decideBranch_agrees {c : ConditionSet} {side side' : Bool → RunState → Walk}
    (hinput : Untimed fun names => conditionInput names c)
    (hholds : Untimed fun names => Template.conditionsHold names c)
    (hp : place.timeless = place'.timeless) (hs : s.timeless = s'.timeless)
    (hside : ∀ holds r r', r.iterations? = none → r'.iterations? = none →
      (s.upsert name r).timeless = (s'.upsert name r').timeless →
      Agrees answer whole (side holds (s.upsert name r)) (side' holds (s'.upsert name r'))) :
    Agrees answer whole (decideBranch place name c side s)
      (decideBranch place' name c side' s') := by
  refine .clock fun started started' => .onTemplate (hinput.eq hp hs _ _) fun shown =>
    .onTemplate (hholds.eq hp hs _ _) fun r => ?_
  rcases r with e | holds
  · exact .failed hs _ rfl
  · refine .clock fun stopped stopped' => hside holds _ _ rfl rfl (RunState.upsert_alike hs name ?_)
    simp only [StepRecord.timeless]

/-- Branches agree that are walked from alike records, if their sides do. -/
theorem runBranch_agrees {c : ConditionSet} {side side' : Bool → RunState → Walk}
    (hinput : Untimed fun names => conditionInput names c)
    (hholds : Untimed fun names => Template.conditionsHold names c)
    (hp : place.timeless = place'.timeless) (hs : s.timeless = s'.timeless)
    (ht : s.steps.Tidy) (ht' : s'.steps.Tidy)
    (hside : ∀ holds s s', s.timeless = s'.timeless → s.steps.Tidy → s'.steps.Tidy →
      Agrees answer whole (side holds s) (side' holds s')) :
    Agrees answer whole (runBranch place name c side s) (runBranch place' name c side' s') := by
  have decided : Agrees answer whole (decideBranch place name c side s)
      (decideBranch place' name c side' s') :=
    decideBranch_agrees hinput hholds hp hs fun holds r r' hr hr' h => hside holds _ _ h
      (ht.insert name (by rw [hr]; rintro its k ⟨⟩)) (ht'.insert name (by rw [hr']; rintro its k ⟨⟩))
  have halike := RunState.get?_alike hs name
  unfold runBranch
  cases hr : s.steps.get? name with
  | none =>
    rw [hr] at halike
    rw [Option.map_eq_none_iff.mp halike.symm]
    exact decided
  | some r =>
    rw [hr] at halike
    obtain ⟨r', hr', hrr⟩ := Option.map_eq_some_iff.mp halike.symm
    rw [hr']
    dsimp only
    rw [StepRecord.status_alike hrr, StepRecord.holds?_alike hrr]
    split
    · exact .ended hs
    · split
      · exact hside _ s s' hs ht ht'
      · exact .ended hs
    · exact decided
    · exact decided

end FlowEngine.Engine
