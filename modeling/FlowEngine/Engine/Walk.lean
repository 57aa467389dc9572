import FlowEngine.Engine.Action
import FlowEngine.Engine.Branch
import FlowEngine.Engine.Loop
import FlowEngine.Engine.Split

/-!
# Walking a chain

The steps of a chain are walked one after the other, until the verdict is anything but running. The
same walk begins a run and resumes it: finished steps are left alone, recorded decisions are kept.

* `walk` — walks a chain.
* `walkStep` — walks a single step.
-/

namespace FlowEngine.Engine

open FlowEngine.Run FlowEngine.Flow

mutual

/-- Walks the steps of a chain, as long as the run goes on. -/
def walk (setup : Setup) : List Step → Place → RunState → Walk
  | [], _, s => Walk.ended s
  | step :: rest, place, s =>
    (walkStep setup step place s).andThen fun s =>
      if s.verdict.isRunning then walk setup rest place s else Walk.ended s

/-- Walks a step. -/
def walkStep (setup : Setup) : Step → Place → RunState → Walk
  | .trigger label _, _, _ => .done (.error (.unexpectedTrigger label.name))
  | .action label a, place, s => runAction setup place label.name a s
  | .branch label c onSuccess onFailure, place, s =>
    let succeeds := walk setup onSuccess place
    let fails := walk setup onFailure place
    runBranch place label.name c (fun holds => if holds then succeeds else fails) s
  | .split label settings branches, place, s =>
    runSplit setup place label.name settings (paths setup branches place) s
  | .loop label settings body, place, s =>
    runLoop setup place label.name settings (walk setup body) s

/-- The branches of a split with their walks. -/
def paths (setup : Setup) : List (SplitBranch × List Step) → Place → List Path
  | [], _ => []
  | (b, steps) :: rest, place =>
    ⟨b, (descendants steps).map Step.name, walk setup steps place⟩ :: paths setup rest place

end

end FlowEngine.Engine
