import FlowEngine.Proofs.Agreement.Split

/-!
# What branches decide

An error of a branch is the result of its split, that of the first branch if several have one. If no
branch has an error, then the first branch that failed decides, or else the first one that stopped the
run, or else the first one that paused.

* `firstError?`, `decisive?` — what the results of branches decide.
* `mergeBranches_error`, `mergeBranches_decisive` — branches that are put together.
* `walkPaths_decided` — the walk of the branches that are taken.
-/

namespace FlowEngine.Engine

open FlowEngine.Run FlowEngine.Flow

/-- The error of a result. -/
def errorOf? : Result → Option Fault
  | .error e => some e
  | .ok _ => none

/-- The verdict of a result, if it has the status. -/
def verdictOf? (status : RunStatus) : Result → Option Verdict
  | .error _ => none
  | .ok s => if s.verdict.status = status then some s.verdict else none

/-- The first error of some results. -/
def firstError? (results : List Result) : Option Fault := results.findSome? errorOf?

/-- The verdict of the first result that has some status. -/
def firstVerdict? (status : RunStatus) (results : List Result) : Option Verdict :=
  results.findSome? (verdictOf? status)

/-- The verdict of the first result that failed, or else stopped the run, or else paused. -/
def decisive? (results : List Result) : Option Verdict :=
  ((firstVerdict? .failed results).or (firstVerdict? .succeeded results)).or
    (firstVerdict? .paused results)

/-! ## Putting branches together -/

/-- What is noted of a verdict. -/
theorem note_eq (halts : Halts) (index : Nat) (v : Verdict) :
    ((halts.note index v).failed.map Prod.snd =
        (halts.failed.map Prod.snd).or (if v.status = .failed then some v else none)) ∧
      ((halts.note index v).stopped.map Prod.snd =
        (halts.stopped.map Prod.snd).or (if v.status = .succeeded then some v else none)) ∧
      (halts.note index v).paused.map Prod.snd =
        (halts.paused.map Prod.snd).or (if v.status = .paused then some v else none) := by
  obtain ⟨failed, stopped, paused⟩ := halts
  cases v <;> cases failed <;> cases stopped <;> cases paused <;> exact ⟨rfl, rfl, rfl⟩

/-- What is noted after some more results. -/
structure Notes (halts : Halts) (results : List Result) (halts' : Halts) : Prop where
  failed : halts'.failed.map Prod.snd =
    (halts.failed.map Prod.snd).or (firstVerdict? .failed results)
  stopped : halts'.stopped.map Prod.snd =
    (halts.stopped.map Prod.snd).or (firstVerdict? .succeeded results)
  paused : halts'.paused.map Prod.snd =
    (halts.paused.map Prod.snd).or (firstVerdict? .paused results)

namespace Notes

variable {halts halts' : Halts} {results : List Result}

theorem nil (halts : Halts) : Notes halts [] halts := by
  constructor <;> exact (Option.or_none).symm

/-- The verdict of a result is noted before those of later ones. -/
theorem cons {index : Nat} {s : RunState} (h : Notes (halts.note index s.verdict) results halts') :
    Notes halts (.ok s :: results) halts' := by
  have first (status : RunStatus) : firstVerdict? status (.ok s :: results) =
      (if s.verdict.status = status then some s.verdict else none).or
        (firstVerdict? status results) := by
    unfold firstVerdict?
    rw [List.findSome?_cons, verdictOf?]
    split_ifs <;> rfl
  obtain ⟨hfailed, hstopped, hpaused⟩ := note_eq halts index s.verdict
  constructor <;> rw [first, ← Option.or_assoc]
  · rw [← hfailed, h.failed]
  · rw [← hstopped, h.stopped]
  · rw [← hpaused, h.paused]

theorem decisive (h : Notes Halts.none results halts') :
    halts'.decisive?.map Prod.snd = decisive? results := by
  unfold Halts.decisive? decisive?
  rw [Option.map_or, Option.map_or, h.failed, h.stopped, h.paused]
  rfl

end Notes

section

variable {base : StepMap} {index : Nat} {halts : Halts} {merged : RunState} {paths : List Path}
  {results : List Result}

/-- An error of a branch is all that is left. -/
theorem mergeBranches_error (length : results.length = paths.length) {e : Fault}
    (he : firstError? results = some e) :
    mergeBranches base index halts merged (paths.zip (results.map some)) = .error e := by
  induction results generalizing paths index halts merged with
  | nil => cases he
  | cons r results ih =>
    cases paths with
    | nil => cases length
    | cons path paths =>
      rw [List.map_cons, List.zip_cons_cons]
      rcases r with e' | s
      · obtain rfl : e' = e := Option.some.inj he
        rw [mergeBranches]
      · rw [mergeBranches_cons]
        exact ih (by simpa using length) he

/-- Branches without an error are put together, and their verdicts are noted. -/
theorem mergeBranches_decisive (length : results.length = paths.length)
    (he : firstError? results = none) : ∃ merged' halts',
      mergeBranches base index halts merged (paths.zip (results.map some)) = .ok (merged', halts') ∧
        merged'.verdict = merged.verdict ∧ Notes halts results halts' := by
  induction results generalizing paths index halts merged with
  | nil =>
    obtain rfl : paths = [] := List.length_eq_zero_iff.mp length.symm
    exact ⟨merged, halts, rfl, rfl, .nil halts⟩
  | cons r results ih =>
    cases paths with
    | nil => cases length
    | cons path paths =>
      rw [List.map_cons, List.zip_cons_cons]
      rcases r with e' | s
      · cases he
      · obtain ⟨merged', halts', hm, hverdict, hnotes⟩ := ih (by simpa using length) he
        rw [mergeBranches_cons]
        exact ⟨merged', halts', hm, hverdict.trans mergeOne_verdict, hnotes.cons⟩

end

/-! ## The walk -/

/-- The result of a split is what the results of its branches decide. -/
structure DecidedBy (results : List Result) (verdict : Verdict) (r : Result) : Prop where
  error : ∀ e, firstError? results = some e → r = .error e
  verdict : firstError? results = none →
    ∃ s, r = .ok s ∧ s.verdict = (decisive? results).getD verdict

theorem closeSplit_verdict (name : String) (input : Json) (taken : List String) (duration : Nat)
    (merged : RunState) (halts : Halts) :
    (closeSplit name input taken duration merged halts).verdict =
      (halts.decisive?.map Prod.snd).getD merged.verdict := by
  obtain ⟨_, -, -, -, hnone, hsome, -⟩ := closeSplit_eq name input taken duration merged halts
  cases hd : halts.decisive? with
  | none => exact (hnone hd).2
  | some d => exact hsome d.1 d.2 hd

/-- The branches that are taken are walked from the same records, and their results decide. -/
theorem walkPaths_decided {setup : Setup} {place : Place} {s : RunState} {name : String}
    {concurrency : Option Nat} {input : Json} {taken : List String} {arms : List Arm}
    {started : Reading Time.Instant} {t : Trace} {r : Result}
    (hy : Job.Yields (walkPaths setup name concurrency (arms.map (Arm.path place)) started input
      taken s) t (.result r)) :
    ∃ results, List.Forall₂ (fun (a : Arm) (result : Result) =>
        ∃ u, Job.Yields (a.body place (splitBase s name input taken)) u (.result result))
      (Arm.taken arms taken) results ∧ DecidedBy results s.verdict r := by
  rw [walkPaths_eq] at hy
  rcases Job.Yields.of_fan (fun _ => rfl) hy (by simp) with
    ⟨results, t₁, t₂, rfl, hlen, ⟨parts, -, ran, -⟩, hrest⟩ | ⟨ho, -⟩
  swap
  · cases ho
  refine ⟨results, List.forall₂_iff_get.mpr ⟨hlen.symm, fun i hi hi' => ?_⟩, ?_⟩
  · have hy := ran i _ (List.getElem?_eq_getElem hi')
    rw [Arm.visit, List.getElem?_eq_getElem hi] at hy
    exact ⟨_, hy⟩
  have hpaths : results.length = ((Arm.taken arms taken).map (Arm.path place)).length := by
    rw [List.length_map, hlen]
  constructor
  · intro e he
    rw [mergeBranches_error hpaths he] at hrest
    obtain ⟨-, ho | ho⟩ := Job.Yields.done_iff.mp hrest
    · cases ho
    · exact Outcome.result.inj ho
  · intro he
    obtain ⟨merged, halts, hm, hverdict, hnotes⟩ := mergeBranches_decisive hpaths he
    rw [hm] at hrest
    obtain ⟨-, ho⟩ | ⟨stopped, hrest⟩ := Job.Yields.of_clock hrest
    · cases ho
    obtain ⟨-, ho | ho⟩ := Job.Yields.done_iff.mp hrest
    · cases ho
    refine ⟨_, Outcome.result.inj ho, ?_⟩
    rw [closeSplit_verdict, hnotes.decisive, hverdict]
    rfl

end FlowEngine.Engine
