import FlowEngine.Proofs.Schedule.Ends
import FlowEngine.Proofs.Walk.Chain

/-!
# Time limits

All calls of a walk have the time limit of the settings. So a walk is never stuck at a call if the
actions answer, or if there is a limit.

* `walk_asks`, `walkStep_asks` — the calls of walks.
* `answered_in_time` — what has to be known of the actions.
-/

namespace FlowEngine.Engine

open FlowEngine.Run FlowEngine.Flow

/-! ## The walks of steps -/

variable {setup : Setup} {s : RunState} {C : Block.Call → Option Nat → Prop}

theorem asks_onTemplate {α : Type} {e : Except Template.Failure α}
    {next : Except Template.TemplateError α → Walk} (h : ∀ r, (next r).Asks C) :
    (Walk.onTemplate e next).Asks C := by
  rcases e with (e | _) | a
  · exact h _
  · exact .crash
  · exact h _

theorem asks_failStep (s : RunState) (name : String) (e : ErrorHandling)
    (started : Reading Time.Instant) (input : Json) (failure : Block.Failure) :
    (failStep s name e started input failure).Asks C := by
  refine .clock fun stopped => ?_
  dsimp only
  split_ifs <;> exact .done _

theorem asks_onReply {limit : Option Nat} {reply : Option Block.Reply}
    {failed : Block.Failure → Walk} {i : Invocation} (h : ∀ failure, (failed failure).Asks C) :
    (onReply limit reply failed (completeStep s i)).Asks C := by
  rcases reply with _ | _ | ⟨failure | output, hook⟩
  · exact h _
  · exact .crash
  · exact h _
  · exact .clock fun _ => .done _

/-- All attempts of an action have the time limit of the settings. -/
theorem attempts_asks (i : Invocation) (left : Nat) :
    (attempts setup s i left).Asks fun _ limit => limit = limitOf setup.settings := by
  induction left with
  | zero => exact .call rfl fun reply => asks_onReply fun failure => asks_failStep ..
  | succ left ih =>
    refine .call rfl fun reply => asks_onReply fun failure => ?_
    split
    · exact .sleep ih
    · exact .crash
    · exact asks_failStep ..

theorem runAction_asks (place : Place) (name : String) (a : Action) :
    (runAction setup place name a s).Asks fun _ limit => limit = limitOf setup.settings := by
  unfold runAction
  split_ifs
  · exact .done _
  · exact .done _
  · refine .clock fun started => asks_onTemplate fun r => ?_
    cases r with
    | error e => exact asks_failStep ..
    | ok input => exact attempts_asks _ _

theorem runBranch_asks {place : Place} {name : String} {c : ConditionSet}
    {side : Bool → RunState → Walk} (h : ∀ holds s, (side holds s).Asks C) :
    (runBranch place name c side s).Asks C := by
  have decided : (decideBranch place name c side s).Asks C := by
    refine .clock fun started => asks_onTemplate fun shown => asks_onTemplate fun r => ?_
    cases r with
    | error e => exact .done _
    | ok holds => exact .clock fun stopped => h _ _
  unfold runBranch
  split
  · exact decided
  · split
    · exact .done _
    · split
      · exact h _ _
      · exact .done _
    · exact decided
    · exact decided

theorem inSequence_asks {l : Looping} {next : AfterLoop}
    (hvisit : ∀ i item m, (l.visit i item m).Asks C) (hnext : ∀ maps d, (next maps d).Asks C)
    (index : Nat) (before : List StepMap) (all : List (Json × StepMap)) :
    (inSequence l next index before all).Asks C := by
  induction all generalizing index before with
  | nil => exact hnext _ _
  | cons x all ih =>
    refine (hvisit index x.1 x.2).andThen fun kid => ?_
    dsimp only
    split_ifs
    · exact ih _ _
    · exact hnext _ _

theorem sideBySide_asks {l : Looping} {next : AfterLoop}
    (hvisit : ∀ i item m, (l.visit i item m).Asks C) (hnext : ∀ maps d, (next maps d).Asks C)
    (workers : Nat) (all : List (Json × StepMap)) : (sideBySide l workers next all).Asks C := by
  refine .fan (fun i => ?_) fun results => ?_
  · split
    · exact hvisit _ _ _
    · exact .done _
  · split
    · exact .done _
    · exact hnext _ _

theorem runLoop_asks {place : Place} {name : String} {settings : LoopSettings} {body : Body}
    (h : ∀ place s, (body place s).Asks C) : (runLoop setup place name settings body s).Asks C := by
  have items (started : Reading Time.Instant) (items : List Json) (its : List StepMap) :
      (walkItems setup place name settings body started items its s).Asks C := by
    have closes (l : Looping) (maps : List StepMap) (decisive : Option (Nat × Verdict)) :
        Job.Asks C (.clock fun stopped => Walk.ended
          (closeLoop l items (elapsed started stopped) maps decisive)) :=
      .clock fun _ => .done _
    unfold walkItems
    dsimp only
    split_ifs
    · exact sideBySide_asks (fun _ _ _ => h _ _) (closes _) _ _
    · exact inSequence_asks (fun _ _ _ => h _ _) (closes _) _ _ _
  unfold runLoop
  dsimp only
  split_ifs
  · exact .done _
  · refine .clock fun started => ?_
    split
    · exact items _ _ _
    · refine asks_onTemplate fun resolved => ?_
      split
      · exact items _ _ _
      · exact .done _

theorem runSplit_asks {place : Place} {name : String} {settings : SplitSettings} {paths : List Path}
    (h : ∀ p ∈ paths, ∀ s, (p.walk s).Asks C) :
    (runSplit setup place name settings paths s).Asks C := by
  have walked (started : Reading Time.Instant) (input : Json) (taken : List String) :
      (walkPaths setup name settings.concurrency paths started input taken s).Asks C := by
    refine .fan (fun i => ?_) fun results => ?_
    · split
      next p hp => exact h p (List.mem_of_mem_filter (List.mem_of_getElem? hp)) _
      next => exact .done _
    · split
      · exact .done _
      · exact .clock fun stopped => .done _
  unfold runSplit
  dsimp only
  split_ifs
  · exact .done _
  · refine .clock fun started => ?_
    split
    · exact walked _ _ _
    · split
      · exact .crash
      · exact .done _
      · exact walked _ _ _

/-! ## The walks of chains -/

/-- All calls of walks have the time limit of the settings. -/
theorem asks_inductive (setup : Setup) : Inductive setup fun _ w =>
    ∀ place s, (w place s).Asks fun _ limit => limit = limitOf setup.settings where
  nil _ _ := .done _
  seq _ _ _ _ hA hB place s := by
    refine (hA place s).andThen fun s => ?_
    split_ifs
    · exact hB place s
    · exact .done _
  trigger _ _ _ _ := .done _
  action l a place _ := runAction_asks place l.name a
  branch _ _ _ _ _ _ _ _ hA hB place s := by
    refine runBranch_asks fun holds s => ?_
    split_ifs
    · exact hA place s
    · exact hB place s
  split _ _ _ arms _ _ harms place s := by
    refine runSplit_asks fun p hp s => ?_
    obtain ⟨a, ha, rfl⟩ := List.mem_map.mp hp
    exact harms a ha place s
  loop _ _ _ _ _ hB _ _ := runLoop_asks hB

theorem walk_asks (setup : Setup) (chain : List Step) (place : Place) (s : RunState) :
    (walk setup chain place s).Asks fun _ limit => limit = limitOf setup.settings :=
  (asks_inductive setup).chain chain place s

theorem walkStep_asks (setup : Setup) (step : Step) (place : Place) (s : RunState) :
    (walkStep setup step place s).Asks fun _ limit => limit = limitOf setup.settings :=
  (asks_inductive setup).step step place s

/-- Calls with the time limit of the settings are answered if actions answer them, or if there is a
limit. -/
theorem answered_in_time {settings : Config.Settings} {answer : Block.Call → Option Block.Reply}
    (h : settings.stepTimeout = none → ∀ c, (answer c).isSome = true) (c : Block.Call)
    (limit : Option Nat) (hlimit : limit = limitOf settings) :
    ∃ reply, (reply = none → limit.isSome = true) ∧ reply = answer c := by
  refine ⟨answer c, fun hnone => ?_, rfl⟩
  subst hlimit
  cases htimeout : settings.stepTimeout with
  | none => exact absurd hnone (Option.isSome_iff_ne_none.mp (h htimeout c))
  | some seconds =>
    rw [limitOf, htimeout]
    rfl

end FlowEngine.Engine
