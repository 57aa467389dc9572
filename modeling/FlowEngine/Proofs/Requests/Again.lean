import FlowEngine.Proofs.Requests.Selection

/-!
# Walking a chain again

A walk that goes on to the end of its chain leaves nothing to do: the steps that it passed have
finished records, and so have those on the sides of the branches that were chosen. A walk that comes
to such records passes over them, whatever the place, the settings and the actions are.

* `Passed` — the records of a chain in which nothing is left to do.
* `walk_passes` — the records at the end of a walk that goes on.
* `Passed.rests` — such a chain is passed over.
* `walk_again` — walking a chain again changes nothing and calls nothing.
-/

namespace FlowEngine.Engine

open FlowEngine.Run FlowEngine.Flow

mutual

/-- Nothing is left to do in a chain. -/
def Passed (m : StepMap) : List Step → Prop
  | [] => True
  | step :: rest => StepPassed m step ∧ Passed m rest

/-- Nothing is left to do in a step. Of the sides of a branch only the one counts that its record
chooses, and no step inside a split or a loop. -/
def StepPassed (m : StepMap) : Step → Prop
  | .trigger _ _ => False
  | .action l _ => finished (m.get? l.name) = true
  | .split l _ _ => finished (m.get? l.name) = true
  | .loop l _ _ => finished (m.get? l.name) = true
  | .branch l _ onSuccess onFailure => finished (m.get? l.name) = true ∧
    (chosen? (m.get? l.name) = some true → Passed m onSuccess) ∧
    (chosen? (m.get? l.name) = some false → Passed m onFailure)

end

/-! ## Later records -/

section

variable {m m' : StepMap}

/-- A finished record stays as it is. -/
theorem Settles.of_finished {r r' : Option StepRecord} (h : Settles r r') (hr : finished r = true) :
    r' = r := by
  rcases h with h | ⟨hopen, -⟩
  · exact h
  · rw [hr] at hopen
    cases hopen

mutual

/-- What was passed stays passed while records settle. -/
theorem Passed.settles (h : ∀ n, Settles (m.get? n) (m'.get? n)) :
    ∀ chain, Passed m chain → Passed m' chain
  | [], _ => by
    rw [Passed]
    trivial
  | step :: rest, hp => by
    rw [Passed] at hp ⊢
    exact ⟨StepPassed.settles h step hp.1, Passed.settles h rest hp.2⟩

theorem StepPassed.settles (h : ∀ n, Settles (m.get? n) (m'.get? n)) :
    ∀ step, StepPassed m step → StepPassed m' step
  | .trigger _ _, hp => by
    rw [StepPassed] at hp
    exact hp.elim
  | .action l _, hp => by
    rw [StepPassed] at hp ⊢
    rwa [(h l.name).of_finished hp]
  | .split l _ _, hp => by
    rw [StepPassed] at hp ⊢
    rwa [(h l.name).of_finished hp]
  | .loop l _ _, hp => by
    rw [StepPassed] at hp ⊢
    rwa [(h l.name).of_finished hp]
  | .branch l _ onSuccess onFailure, hp => by
    rw [StepPassed] at hp ⊢
    obtain ⟨hf, htrue, hfalse⟩ := hp
    rw [(h l.name).of_finished hf]
    exact ⟨hf, fun hc => Passed.settles h onSuccess (htrue hc),
      fun hc => Passed.settles h onFailure (hfalse hc)⟩

end

end

/-! ## Passing over -/

section

variable {setup : Setup} {place : Place} {s : RunState}

mutual

/-- A chain in which nothing is left to do is passed over. -/
theorem Passed.rests (hv : s.verdict = .running) :
    ∀ chain, Passed s.steps chain → walk setup chain place s = Walk.ended s
  | [], _ => by rw [walk]
  | step :: rest, hp => by
    rw [Passed] at hp
    have hrun : s.verdict.isRunning = true := isRunning_iff.mpr hv
    rw [walk, StepPassed.rests hv step hp.1]
    change (if s.verdict.isRunning then walk setup rest place s else Walk.ended s) = _
    rw [if_pos hrun, Passed.rests hv rest hp.2]

theorem StepPassed.rests (hv : s.verdict = .running) :
    ∀ step, StepPassed s.steps step → walkStep setup step place s = Walk.ended s
  | .trigger _ _, hp => by
    rw [StepPassed] at hp
    exact hp.elim
  | .action l _, hp => by
    rw [StepPassed] at hp
    rw [walkStep, runAction]
    exact if_pos hp
  | .split l _ _, hp => by
    rw [StepPassed] at hp
    rw [walkStep, runSplit]
    exact if_pos hp
  | .loop l _ _, hp => by
    rw [StepPassed] at hp
    rw [walkStep, runLoop]
    exact if_pos hp
  | .branch l c onSuccess onFailure, hp => by
    rw [StepPassed] at hp
    obtain ⟨hf, htrue, hfalse⟩ := hp
    rw [walkStep, runBranch_of_finished hf]
    cases hc : chosen? (s.steps.get? l.name) with
    | none => rfl
    | some holds =>
      cases holds
      · exact Passed.rests hv onFailure (hfalse hc)
      · exact Passed.rests hv onSuccess (htrue hc)

end

end

/-! ## What a walk leaves behind -/

section

variable {setup : Setup} {place : Place} {name : String} {s s' : RunState} {t : Trace}

/-- The record of a step that was just written. -/
theorem finished_insert {m : StepMap} {r : StepRecord} (h : r.status.isFinished = true) :
    finished ((m.insert name r).get? name) = true := by
  rw [StepMap.get?_insert_self]
  exact h

/-- An action after which the walk goes on is finished. -/
theorem runAction_passes {a : Flow.Action} (hv : s'.verdict = .running)
    (hy : Job.Yields (runAction setup place name a s) t (.result (.ok s'))) :
    finished (s'.steps.get? name) = true := by
  rcases runAction_ends hy with ⟨hf, rfl⟩ | ⟨-, ⟨input, failure, duration, rfl⟩ |
    ⟨i, output, duration, hook, rfl, rfl⟩⟩
  · exact hf
  · rw [failedState_steps]
    exact finished_insert rfl
  · rcases hook with _ | pause | response
    · exact finished_insert rfl
    · cases hv
    · cases hv

/-- A loop after which the walk goes on is finished. -/
theorem runLoop_passes {settings : LoopSettings} {body : Body} (hv : s'.verdict = .running)
    (hy : Job.Yields (runLoop setup place name settings body s) t (.result (.ok s'))) :
    finished (s'.steps.get? name) = true := by
  rcases runLoop_ends hy with ⟨-, hdone⟩ | ⟨-, ⟨-, hfails⟩ | ⟨items, started, its, -, hy⟩⟩
  · obtain ⟨hf, rfl⟩ := hdone s' rfl
    exact hf
  · obtain ⟨input, message, rfl⟩ := hfails s' rfl
    cases hv
  · obtain ⟨traces, kids, maps, decisive, duration, hit, rfl⟩ := (walkItems_yields rfl hy).2 s' rfl
    obtain ⟨summary, item, index, hsteps, -, hnone, -⟩ :=
      closeLoop_eq (looping name items place s body) items duration maps decisive
    rw [hsteps]
    have hs : summary.status = .succeeded := hnone (closeLoop_running hit.decides hv)
    exact finished_insert (by rw [StepRecord.status, StepRecord.summary, hs]; rfl)

/-- A split after which the walk goes on is finished. -/
theorem runSplit_passes {settings : SplitSettings} {arms : List Arm} (hv : s'.verdict = .running)
    (hy : Job.Yields (runSplit setup place name settings (arms.map (Arm.path place)) s) t
      (.result (.ok s'))) : finished (s'.steps.get? name) = true := by
  rcases runSplit_ends hy with ⟨-, hdone⟩ | ⟨-, ⟨-, hfails⟩ | ⟨started, input, taken, hy⟩⟩
  · obtain ⟨hf, rfl⟩ := hdone s' rfl
    exact hf
  · obtain ⟨input, message, rfl⟩ := hfails s' rfl
    cases hv
  · obtain ⟨traces, kids, merged, halts, duration, hb, hmerge, rfl⟩ :=
      (walkPaths_yields hy).2 s' rfl
    obtain ⟨hsees, -⟩ := mergeBranches_sees .nil (by simpa using hb.length) hmerge
    obtain ⟨summary, hsteps, -, -, hnone, -⟩ :=
      closeSplit_eq name input taken duration merged halts
    rw [hsteps]
    have hs : summary.status = .succeeded := (hnone (closeSplit_running hsees hv).1).1
    exact finished_insert (by rw [StepRecord.status, StepRecord.summary, hs]; rfl)

/-- A branch is passed when the side is that its record chooses. -/
theorem StepPassed.of_side {l : Label} {c : ConditionSet} {onSuccess onFailure : List Step}
    {m m' : StepMap} {holds : Bool} (hc : chosen? (m.get? l.name) = some holds)
    (hm : Settles (m.get? l.name) (m'.get? l.name))
    (hp : Passed m' (if holds then onSuccess else onFailure)) :
    StepPassed m' (.branch l c onSuccess onFailure) := by
  have hf : finished (m.get? l.name) = true := finished_of_chosen hc
  rw [StepPassed, hm.of_finished hf, hc]
  cases holds
  · exact ⟨hf, nofun, fun _ => hp⟩
  · exact ⟨hf, fun _ => hp, nofun⟩

theorem passes_hereditary : Hereditary
    (fun chain => ∀ (place : Place) (s : RunState) (t : Trace) (s' : RunState), s.steps.Tidy →
      Job.Yields (walk setup chain place s) t (.result (.ok s')) → s'.verdict = .running →
        Passed s'.steps chain)
    fun step => ∀ (place : Place) (s : RunState) (t : Trace) (s' : RunState), s.steps.Tidy →
      Job.Yields (walkStep setup step place s) t (.result (.ok s')) → s'.verdict = .running →
        StepPassed s'.steps step where
  nil _ _ _ _ _ _ _ := by
    rw [Passed]
    trivial
  cons step rest hstep hrest place s t s' ht hy hv := by
    rw [walk_cons] at hy
    rcases Job.Yields.of_andThen hy with ⟨s₁, t₁, t₂, rfl, hy₁, hy₂⟩ | ⟨-, ho⟩
    · split_ifs at hy₂ with hrun
      · have h₁ := walkStep_changes setup step place s t₁ s₁ ht hy₁
        have h₂ := walk_changes setup rest place s₁ t₂ s' h₁.tidy hy₂
        have hpassed := hstep place s t₁ s₁ ht hy₁ (isRunning_iff.mp hrun)
        rw [Passed]
        -- the walk of the rest leaves the finished records of the first step alone
        exact ⟨hpassed.settles (h₂.settles hv) step, hrest place s₁ t₂ s' h₁.tidy hy₂ hv⟩
      · obtain ⟨-, rfl⟩ := Yields.of_ended hy₂
        exact absurd (isRunning_iff.mpr hv) hrun
    · exact absurd rfl (ho s')
  trigger _ _ _ _ _ _ _ hy _ := by
    rw [walkStep] at hy
    obtain ⟨-, ho | ho⟩ := Job.Yields.done_iff.mp hy <;> cases ho
  action l a _ _ _ _ _ hy hv := by
    rw [walkStep_action] at hy
    rw [StepPassed]
    exact runAction_passes hv hy
  branch l c onSuccess onFailure hsuccess hfailure place s t s' ht hy hv := by
    rw [walkStep_branch] at hy
    rcases runBranch_ends hy with ⟨-, hends⟩ | ⟨holds, s₁, hs₁, hchosen, hy⟩
    · rcases hends s' rfl with ⟨hf, hnone, rfl⟩ | ⟨-, input, message, rfl⟩
      · rw [StepPassed, hnone]
        exact ⟨hf, nofun, nofun⟩
      · cases hv
    have ht₁ : s₁.steps.Tidy := (side_entered hs₁).2 ht
    cases holds
    · have h := walk_changes setup onFailure place s₁ t s' ht₁ hy
      exact .of_side hchosen (h.settles hv l.name) (hfailure place s₁ t s' ht₁ hy hv)
    · have h := walk_changes setup onSuccess place s₁ t s' ht₁ hy
      exact .of_side hchosen (h.settles hv l.name) (hsuccess place s₁ t s' ht₁ hy hv)
  split l settings branches _ _ _ _ _ _ hy hv := by
    rw [walkStep_split] at hy
    rw [StepPassed]
    exact runSplit_passes hv hy
  loop l settings body _ _ _ _ _ _ hy hv := by
    rw [walkStep_loop] at hy
    rw [StepPassed]
    exact runLoop_passes hv hy

/-- A walk that goes on leaves nothing to do in its chain. -/
theorem walk_passes (chain : List Step) (place : Place) (s : RunState) (t : Trace) (s' : RunState)
    (ht : s.steps.Tidy) (hy : Job.Yields (walk setup chain place s) t (.result (.ok s')))
    (hv : s'.verdict = .running) : Passed s'.steps chain :=
  passes_hereditary.chain chain place s t s' ht hy hv

/-- Whoever walks a chain again that a walk went through to its end, at whatever place and with
whatever settings, actions and payload, gets the very same state, and no action is called. -/
theorem walk_again {chain : List Step} (ht : s.steps.Tidy)
    (h : (walk setup chain place s).Runs t (.result (.ok s'))) (hv : s'.verdict = .running)
    (setup' : Setup) (place' : Place) :
    (walk setup' chain place' s').Runs [] (.result (.ok s')) ∧
      ∀ t' o, (walk setup' chain place' s').Runs t' o →
        t' = [] ∧ (o = .pending ∨ o = .result (.ok s')) := by
  have hp : Passed s'.steps chain := walk_passes chain place s t s' ht h.yields hv
  rw [hp.rests hv chain]
  exact ⟨⟨_, .single (.done _), rfl⟩, fun t' o run => Job.Yields.done_iff.mp run.yields⟩

end

/-- The records of the errand are passed over even if no action is known. -/
theorem errand_walked_again :
    (∃ t, (walk ⟨posting, {}, none⟩ errand.rest Place.top errandAsked.resumed).Runs t
      (.result (.ok { errandDone with verdict := .running }))) ∧
    (walk ⟨⟨[], false⟩, {}, none⟩ errand.rest Place.top { errandDone with verdict := .running }).Runs
      [] (.result (.ok { errandDone with verdict := .running })) := by
  have hbegin : (start (answering runners) 0 (beginRun posting {} errand "run" none .null)
      ()).1.result? = some (.ok errandAsked) := by decide +kernel
  have hwalk : (start (answering runners) 0
      (walk ⟨posting, {}, none⟩ errand.rest Place.top errandAsked.resumed) ()).1.result? =
        some (.ok { errandDone with verdict := .running }) := by decide +kernel
  obtain ⟨t₀, begun⟩ := exists_runs_of_start 0 _ () hbegin
  obtain ⟨t, run⟩ := exists_runs_of_start 0 _ () hwalk
  obtain ⟨-, p, hw, -⟩ := (Returns.begin begun).waits rfl
  have htidy : errandAsked.resumed.steps.Tidy := hw.resumed.tidy
  exact ⟨⟨t, run⟩, (walk_again htidy run rfl ⟨⟨[], false⟩, {}, none⟩ Place.top).1⟩

end FlowEngine.Engine
