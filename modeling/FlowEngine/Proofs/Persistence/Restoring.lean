import FlowEngine.Block.Core
import FlowEngine.Cli.Command
import FlowEngine.Proofs.Persistence.Files
import FlowEngine.Proofs.Persistence.Runs
import FlowEngine.Proofs.Requests.Selection
import Mathlib

/-!
# What is left of a persisted run

The document of a run is read as the run, without a stop response that is null. The text is read with
every number rounded once more, unless it is nested too deep.

* `RunState.unsucceeded_persisted` — a run that has not succeeded.
* `RunState.succeeded_persisted` — a run that has succeeded, and what it shows as its result.
* `RunState.paused_stored` — a paused run that is written to a file.
-/

namespace FlowEngine.Run

open FlowEngine.Engine FlowEngine.Flow FlowEngine.Store

variable {s : RunState} {response : Option Json}

/-! ## What is restored -/

theorem Verdict.restored_of_status {v : Verdict} (h : v.status ≠ .succeeded) : v.restored = v := by
  cases v with
  | succeeded response => exact absurd rfl h
  | _ => rfl

/-- A response that is read is null only if it was null. -/
theorem Verdict.restored_reread (v : Verdict) :
    (v.mapValues Json.reread).restored = v.restored.mapValues Json.reread := by
  rcases v with _ | (_ | response) | p | ⟨step, message⟩ <;> try rfl
  cases response <;> rfl

namespace RunState

theorem restored_of_status (h : s.status ≠ .succeeded) : s.restored = s := by
  unfold restored
  rw [Verdict.restored_of_status h]

theorem restored_reread (s : RunState) :
    (s.mapValues Json.reread).restored = s.restored.mapValues Json.reread :=
  congrArg (fun v => { s.mapValues Json.reread with verdict := v }) s.verdict.restored_reread

/-- What is shown as the result of a run that is read is what its result is read as. -/
theorem finalOutput?_reread (h : StepRecord.RepresentableIn s.steps) :
    Cli.finalOutput? (s.mapValues Json.reread) = (Cli.finalOutput? s).map Json.reread := by
  have hlast := StepRecord.RepresentableIn.lastOutput_reread h
  obtain ⟨runId, projectId, entry, verdict, steps⟩ := s
  rcases verdict with _ | (_ | response) | p | ⟨step, message⟩
  case succeeded.some => rfl
  all_goals exact hlast

end RunState

/-! ## Runs that have not succeeded -/

/-- A run that has not succeeded is read from its document as it was, with the steps of every map in the
same order. From its text it is read unless it is nested too deep, with its numbers rounded again: it is
the same run if they are the same numbers. -/
theorem RunState.unsucceeded_persisted (h : s.Representable) (hs : s.status ≠ .succeeded) :
    ofJson? s.toJson = some s ∧
      ofText? s.toText =
        (if s.toJson.depth ≤ Json.maxDepth then some (s.mapValues Json.reread) else none) ∧
      (s.toJson.depth ≤ Json.maxDepth → s.toJson.reread = s.toJson → ofText? s.toText = some s) := by
  have hrestored := restored_of_status hs
  have hdocument := ofJson?_toJson h
  have htext := ofText?_toText h
  rw [hrestored] at hdocument
  rw [restored_reread, hrestored] at htext
  refine ⟨hdocument, htext, fun hdepth hsame => ?_⟩
  -- a document decides its run, so that the run is the same if the document is
  have hreread := ofJson?_toJson h.reread
  rw [toJson_reread, hsame, hdocument, restored_reread, hrestored] at hreread
  rw [htext, if_pos hdepth, hreread]

/-- A paused run with records of all kinds. The inner loop has not yet reached its second item. -/
def survey : RunState where
  runId := "run"
  projectId := some "north"
  entry := .resume
  verdict := .paused (.delay ⟨1767225600, 500000000⟩)
  steps := [("start",
      .action ⟨.succeeded, .obj [], none, none⟩ (.arr [.int 2, .float ⟨0x3FE0000000000000⟩])),
    ("look", .action ⟨.failed, .obj [("at", .str "map")], some "closed", some 5⟩ .null),
    ("check", .branch ⟨.succeeded, .null, none, some 0⟩ true),
    ("fan", .split ⟨.running, .null, none, none⟩ ["left", "right"]),
    ("each", .loop ⟨.paused, .obj [("items", .arr [.str "a"])], none, some 12⟩ (.str "a") 0
      [[("again", .loop ⟨.paused, .null, none, some 12⟩ (.int (-1)) 1
        [[("rest", .action ⟨.paused, .obj [], none, some 3⟩ (.str "soon"))], []])]])]

theorem survey_representable : survey.Representable where
  verdict := ⟨by decide, .inl (by decide)⟩
  steps := by
    simp [survey, StepMap.Representable, StepMap.names, StepRecord.RepresentableIn,
      StepRecord.RepresentableAll, StepRecord.Representable, Summary.representable_iff, Json.Canonical,
      Json.CanonicalElements, Json.CanonicalMembers, Json.InRange]
    decide

/-- The paused run is read from its document and from its text. -/
theorem survey_persisted : RunState.ofJson? survey.toJson = some survey ∧
    RunState.ofText? survey.toText = some survey := by
  obtain ⟨hdocument, -, htext⟩ := RunState.unsucceeded_persisted survey_representable (by decide)
  exact ⟨hdocument, htext (by decide) (by decide +kernel)⟩

/-- A paused run that holds a number whose digits are read as its neighbour. -/
def drifting : RunState where
  runId := "run"
  projectId := none
  entry := .begin
  verdict := .paused (.webhook "approve" .null)
  steps := [("start", .action ⟨.succeeded, .obj [], none, none⟩ (.float ⟨0x3DFC78B05F741A78⟩)),
    ("ask", .action ⟨.paused, .obj [], none, some 0⟩ .null)]

theorem drifting_representable : drifting.Representable where
  verdict := trivial
  steps := by
    simp [drifting, StepMap.Representable, StepMap.names, StepRecord.RepresentableIn,
      StepRecord.Representable, Summary.representable_iff, Json.Canonical, Json.CanonicalMembers]
    decide

/-- It is read from its text with that neighbour. -/
theorem drifting_drifts : RunState.ofText? drifting.toText ≠ some drifting := by
  rw [RunState.ofText?_toText drifting_representable, if_pos (by decide)]
  decide +kernel

/-! ## Runs that have succeeded -/

/-- A run that has succeeded is read from its document as it was, unless it was stopped with null: then
it is read as if it had not been stopped. From its text it is read unless it is nested too deep, and what
it shows as its result is the result of what is restored, with its numbers rounded again. -/
theorem RunState.succeeded_persisted (h : s.Representable) (hs : s.verdict = .succeeded response) :
    ofJson? s.toJson = some s.restored ∧
      ofText? s.toText =
        (if s.toJson.depth ≤ Json.maxDepth then some (s.restored.mapValues Json.reread) else none) ∧
      Cli.finalOutput? (s.restored.mapValues Json.reread) =
        (Cli.finalOutput? s.restored).map Json.reread ∧
      (response ≠ some .null → s.restored = s) ∧
      (response = some .null → s.restored = { s with verdict := .succeeded none }) := by
  have hverdict : s.restored = { s with verdict := .succeeded (response.filter (· ≠ .null)) } := by
    rw [restored, hs]
    rfl
  refine ⟨ofJson?_toJson h, ?_, finalOutput?_reread h.steps.2, fun hnull => ?_, fun hnull => ?_⟩
  · rw [ofText?_toText h, restored_reread]
  · have hkept : response.filter (· ≠ .null) = response := by
      rcases response with _ | response
      · rfl
      · exact Option.filter_some_pos (by simpa using hnull)
    rw [hverdict, hkept, ← hs]
  · rw [hverdict, hnull]
    rfl

/-- What the actions of the core block answer at a fixed time. -/
def coreAnswers (c : Block.Call) : Option Block.Reply :=
  match c.target with
  | .block _ action => Block.coreReply ⟨⟨0, 0⟩, "request"⟩ action c.request
  | .code => none

/-- A flow that is stopped in one branch while the other one goes on. -/
def closing (input : Json) : Version where
  id := "closing"
  displayName := "Closing"
  first := .trigger ⟨"start", "Start"⟩ .empty
  rest := [.split ⟨"fan", "Fan"⟩ ⟨.allMatches, none⟩
    [(⟨"left", .condition, always⟩,
      [.action ⟨"stop", "Stop"⟩ ⟨.block "core" "stop", input, .none⟩]),
    (⟨"right", .condition, always⟩,
      [.action ⟨"tell", "Tell"⟩ ⟨.block "core" "echo", .obj [], .none⟩])]]

/-- The flow at its end. -/
def closed (input response : Json) : RunState where
  runId := "run"
  projectId := none
  entry := .begin
  verdict := .succeeded (some response)
  steps := [("start", .action ⟨.succeeded, .obj [], none, none⟩ .null),
    ("fan", .split ⟨.succeeded, .obj [("executionType", .str "EXECUTE_ALL_MATCH")], none, some 0⟩
      ["left", "right"]),
    ("stop", .action ⟨.succeeded, input, none, some 0⟩ response),
    ("tell", .action ⟨.succeeded, .obj [], none, some 0⟩ (.obj []))]

theorem closed_representable {input response : Json} (hinput : input.Canonical)
    (hresponse : response.Canonical) : (closed input response).Representable where
  verdict := by
    rintro _ ⟨⟩
    exact hresponse
  steps := by
    simp [closed, StepMap.Representable, StepMap.names, StepRecord.RepresentableIn,
      StepRecord.Representable, Summary.representable_iff, Json.Canonical, Json.CanonicalMembers,
      hinput, hresponse]

/-- A run that was stopped with a text shows it before and after it was persisted. -/
theorem closed_persisted :
    (∃ t, Returns (closing (.obj [("response", .str "bye")])) t
      (closed (.obj [("response", .str "bye")]) (.str "bye"))) ∧
    ∃ s, RunState.ofText? (closed (.obj [("response", .str "bye")]) (.str "bye")).toText = some s ∧
      s.verdict = .succeeded (some (.str "bye")) ∧ Cli.finalOutput? s = some (.str "bye") := by
  have hbegin : (start (answering coreAnswers) 0 (beginRun Block.coreRegistry {}
      (closing (.obj [("response", .str "bye")])) "run" none .null) ()).1.result? =
        some (.ok (closed (.obj [("response", .str "bye")]) (.str "bye"))) := by decide +kernel
  have hrepresentable : (closed (.obj [("response", .str "bye")]) (.str "bye")).Representable :=
    closed_representable ⟨by simp, trivial, trivial⟩ trivial
  obtain ⟨-, htext, -, hkept, -⟩ := RunState.succeeded_persisted hrepresentable rfl
  rw [hkept (by decide), if_pos (by decide)] at htext
  exact ⟨(exists_runs_of_start 0 _ () hbegin).imp fun t run => .begin run, _, htext, rfl, rfl⟩

/-- A run that was stopped with null does not: it shows the output of another step. -/
theorem closed_restored : (∃ t, Returns (closing (.obj [])) t (closed (.obj []) .null)) ∧
    RunState.ofJson? (closed (.obj []) .null).toJson ≠ some (closed (.obj []) .null) ∧
    Cli.finalOutput? (closed (.obj []) .null) = some .null ∧
    ∃ s, RunState.ofText? (closed (.obj []) .null).toText = some s ∧
      s.verdict = .succeeded none ∧ Cli.finalOutput? s = some (.obj []) := by
  have hbegin : (start (answering coreAnswers) 0 (beginRun Block.coreRegistry {}
      (closing (.obj [])) "run" none .null) ()).1.result? = some (.ok (closed (.obj []) .null)) := by
    decide +kernel
  have hrepresentable : (closed (.obj []) .null).Representable :=
    closed_representable ⟨by simp, trivial⟩ trivial
  have htext := RunState.ofText?_toText hrepresentable
  rw [if_pos (by decide)] at htext
  refine ⟨(exists_runs_of_start 0 _ () hbegin).imp fun t run => .begin run, ?_, rfl, _, htext, rfl, rfl⟩
  rw [RunState.ofJson?_toJson hrepresentable]
  decide

/-! ## Runs in files -/

/-- A paused run that was stored can be loaded if its document is not nested too deep, and otherwise it
cannot. No more than thirty loops and no values too deep for the levels around them are few enough; with
one value that is too deep the file is rejected. -/
theorem RunState.paused_stored {t t' : Tree} {path : String} (h : s.Representable) (hs : s.status = .paused)
    (hstore : (Tree.memory.storeRun path s).run t = (.ok (), t')) :
    ((Tree.memory.loadRun path).run t').1 =
        (if s.toJson.depth ≤ Json.maxDepth then .ok (s.mapValues Json.reread)
          else .error (.parsing path)) ∧
      ((∀ levels j, s.Holds levels j → levels + j.depth ≤ Json.maxDepth) →
        StepRecord.loopsIn s.steps ≤ 30 → s.toJson.depth ≤ Json.maxDepth) ∧
      (∀ levels j, s.Holds levels j → Json.maxDepth < levels + j.depth →
        Json.maxDepth < s.toJson.depth) := by
  refine ⟨?_, fun hvalues hloops => ?_, fun levels j hj hdeep => Nat.lt_of_lt_of_le hdeep hj.depth_le⟩
  · have hrestored := restored_of_status (s := s) (by rw [hs]; decide)
    rw [Tree.loadRun_storeRun h hstore, restored_reread, hrestored]
  · refine depth_toJson_le hvalues ?_
    rw [Json.maxDepth]
    omega

/-- A file system with nothing in it takes a run. -/
theorem storeRun_empty (s : RunState) :
    (Tree.memory.storeRun "run" s).run ⟨[], []⟩ = (.ok (), ⟨[(["run"], s.toText)], []⟩) := by
  have hnames : pathNames "run" = ["run"] := by cbv
  have hslash : "run".endsWith "/" = false := by cbv
  refine Tree.storeRun_of_write (by cbv) ?_
  rw [Tree.write, hnames, hslash]
  rfl

/-- The paused run with records of all kinds is loaded as it was. -/
theorem survey_stored : ∃ t, (Tree.memory.storeRun "run" survey).run ⟨[], []⟩ = (.ok (), t) ∧
    ((Tree.memory.loadRun "run").run t).1 = .ok survey := by
  refine ⟨_, storeRun_empty survey, ?_⟩
  obtain ⟨hload, -⟩ := RunState.paused_stored survey_representable rfl (storeRun_empty survey)
  have hsame : survey.mapValues Json.reread = survey := by decide +kernel
  rw [hload, if_pos (by decide), hsame]

/-- A value is read from the command line as from any other text. -/
theorem argumentValue_pretty {j : Json} (h : j.Canonical) (hdepth : j.depth ≤ Json.maxDepth) :
    Cli.argumentValue j.pretty = j.reread := by
  rw [Cli.argumentValue, Json.readValue?, Json.read?_pretty h.writable, if_pos hdepth]
  exact Json.canonical_eq _ h.reread

/-- A list in lists. -/
def nested : Nat → Json
  | 0 => .arr []
  | n + 1 => .arr [nested n]

theorem nested_canonical : ∀ n, (nested n).Canonical
  | 0 => trivial
  | n + 1 => ⟨nested_canonical n, trivial⟩

theorem nested_reread (n : Nat) : (nested n).reread = nested n := by
  induction n with
  | zero => rfl
  | succ n ih => rw [nested, Json.reread, Json.rereadElements, Json.rereadElements, ih]

theorem nested_depth (n : Nat) : (nested n).depth = n + 1 := by
  induction n with
  | zero => rfl
  | succ n ih => rw [nested, Json.depth, Json.depthElements, Json.depthElements, ih, Nat.max_zero]

/-- A flow that asks for an approval. -/
def asking : Version where
  id := "asking"
  displayName := "Asking"
  first := .trigger ⟨"start", "Start"⟩ .empty
  rest := [.action ⟨"ask", "Ask"⟩ ⟨.block "core" "approval", .obj [], .none⟩]

/-- The flow while it waits. -/
def asked (payload : Json) : RunState where
  runId := "run"
  projectId := none
  entry := .begin
  verdict := .paused (.webhook "request" (.obj []))
  steps := [("start", .action ⟨.succeeded, .obj [], none, none⟩ payload),
    ("ask", .action ⟨.paused, .obj [], none, some 0⟩
      (.obj [("approvalLink", .str "http://localhost:8080/runs/run/requests/request?action=approve"),
        ("disapprovalLink",
          .str "http://localhost:8080/runs/run/requests/request?action=disapprove")]))]

theorem asked_representable {payload : Json} (h : payload.Canonical) : (asked payload).Representable where
  verdict := ⟨by simp, trivial⟩
  steps := by
    have hlinks : "approvalLink" < "disapprovalLink" := by cbv
    simp [asked, StepMap.Representable, StepMap.names, StepRecord.RepresentableIn,
      StepRecord.Representable, Summary.representable_iff, Json.Canonical, Json.CanonicalMembers, h,
      hlinks, -String.lt_iff_ltb]

/-- A payload is accepted that is nested two levels less deep than what can be read. The run that waits
with it is stored, and cannot be loaded. -/
theorem asked_stored : Cli.argumentValue (nested 124).pretty = nested 124 ∧
    (∃ t, Returns asking t (asked (nested 124))) ∧
    ∃ t, (Tree.memory.storeRun "run" (asked (nested 124))).run ⟨[], []⟩ = (.ok (), t) ∧
      ((Tree.memory.loadRun "run").run t).1 = .error (.parsing "run") := by
  have hbegin : (start (answering coreAnswers) 0 (beginRun Block.coreRegistry {} asking "run" none
      (nested 124)) ()).1.result? = some (.ok (asked (nested 124))) := by decide +kernel
  have hpayload : Cli.argumentValue (nested 124).pretty = nested 124 := by
    rw [argumentValue_pretty (nested_canonical 124) (by rw [nested_depth]; decide), nested_reread]
  have hdeep : ¬(asked (nested 124)).toJson.depth ≤ Json.maxDepth := by
    -- the payload stands in the record of the trigger
    have hholds : (asked (nested 124)).Holds 3 (nested 124) := .record (.head _) (.output _ _)
    have hdepth := hholds.depth_le
    rw [nested_depth] at hdepth
    exact Nat.not_le.mpr hdepth
  refine ⟨hpayload, (exists_runs_of_start 0 _ () hbegin).imp fun t run => .begin run, _,
    storeRun_empty _, ?_⟩
  rw [Tree.loadRun_storeRun (asked_representable (nested_canonical 124)) (storeRun_empty _),
    if_neg hdeep]

end FlowEngine.Run
