import FlowEngine.Proofs.Persistence.Records
import FlowEngine.Proofs.Time.Timestamps
import FlowEngine.Run.Context

/-!
# Persisted runs

A run is read from its document, and it wraps the values that it holds: those of a record stand three
levels deep, and four levels deeper with every loop around the record.

* `RunState.Representable` — a run whose values are in canonical form, whose numbers have 64 bits, and
  whose instants have dates.
* `RunState.restored` — a run without a stop response that is null.
* `RunState.ofJson?_toJson` — the document of such a run is read as what is restored of it.
* `RunState.Holds` — a value of a run, and how many levels are around it in the document of the run.
* `RunState.Holds.depth_le` — the document is nested as deep as each of them requires.
* `RunState.depth_toJson_le` — and no deeper than they and the loops require.
-/

namespace FlowEngine.Run

variable {s : RunState} {v : Verdict} {p : Pause}

/-! ## Pauses -/

/-- A response in canonical form, or an instant that has a date. -/
def Pause.Representable : Pause → Prop
  | webhook _ response => response.Canonical
  | delay t => t.Representable

/-- A pause is read from its document. -/
theorem Pause.ofJson?_toJson (o : Json.Origin) (h : p.Representable) :
    Pause.ofJson? o p.toJson = some p := by
  cases p with
  | webhook requestId response =>
    have htag := Json.tagged?_between o kinds "type" "WEBHOOK" []
      [("requestId", .str requestId), ("response", response)] (by simp) (by simp)
    have hfields := Json.fields?_known ["requestId", "response"]
      [("requestId", .str requestId), ("response", response)] (by simp) (by simp)
    have hrequest : Json.Fields.required [("requestId", .str requestId), ("response", response)]
        "requestId" Json.asString? = some requestId :=
      Json.required_of_lookup (by simp) (show Json.asString? (.str requestId) = some requestId from rfl)
    refine (Json.bind_of_some htag).trans ((Json.bind_of_some hfields).trans ?_)
    refine (Json.bind_of_some hrequest).trans ?_
    exact Json.bind_of_some (Json.defaulted_of_lookup (by simp [List.lookup_cons])
      (Json.asValue?_canonical h))
  | delay t =>
    have htag := Json.tagged?_between o kinds "type" "DELAY" []
      [("resumeDateTime", .str t.toTimestamp)] (by simp) (by simp)
    have hfields := Json.fields?_known ["resumeDateTime"] [("resumeDateTime", .str t.toTimestamp)]
      (by simp) (by simp)
    have hlookup : List.lookup "resumeDateTime" [("resumeDateTime", .str t.toTimestamp)] =
        some (Json.str t.toTimestamp) := by simp
    refine (Json.bind_of_some htag).trans ((Json.bind_of_some hfields).trans ?_)
    refine Json.required_of_lookup hlookup ?_
    exact (Json.bind_of_some rfl).trans
      (congrArg (Option.map delay) (Time.Timestamp.readLenient?_toTimestamp h))

/-! ## Verdicts -/

/-- What a verdict holds is representable. -/
def Verdict.Representable : Verdict → Prop
  | running | failed _ _ => True
  | succeeded response => ∀ j ∈ response, j.Canonical
  | paused p => p.Representable

/-- What is left of a verdict when it is persisted: a stop response that is null is none. -/
def Verdict.restored : Verdict → Verdict
  | succeeded response => succeeded (response.filter (· ≠ .null))
  | v => v

/-- A stop response that is null is read as if there was none. -/
theorem optional_stopResponse {response : Option Json} (h : ∀ j ∈ response, j.Canonical) :
    Json.Fields.optional (Json.optionalMember "stopResponse" id response) "stopResponse" Json.asValue? =
      some (response.filter (· ≠ .null)) := by
  rcases response with _ | response
  · rfl
  · -- the member is written, but a null in it is read like a member that is absent
    by_cases hnull : response = .null
    · rw [hnull]
      rfl
    · rw [Option.filter_some, if_pos (decide_eq_true hnull)]
      have hlookup : (Json.optionalMember "stopResponse" id (some response)).lookup "stopResponse" =
          (some response).map id := by simp [Json.optionalMember]
      exact Json.optional_of_lookup hlookup (by simpa using hnull)
        (by rintro _ ⟨⟩; exact Json.asValue?_canonical (h response rfl))

/-- A verdict is read from its document. -/
theorem Verdict.ofJson?_toJson (h : v.Representable) : Verdict.ofJson? v.toJson = some v.restored := by
  cases v with
  | running =>
    have htag := Json.tagged?_between .text [] "status" "RUNNING" [] [] (by simp) (by simp)
    exact (Json.bind_of_some htag).trans rfl
  | succeeded response =>
    have htag := Json.tagged?_between .text [] "status" "SUCCEEDED" []
      (Json.optionalMember "stopResponse" id response) (by simp)
      (by cases response <;> simp [Json.optionalMember])
    have hfields := Json.fields?_known ["stopResponse"] (Json.optionalMember "stopResponse" id response)
      (by cases response <;> simp [Json.optionalMember]) (by cases response <;> simp [Json.optionalMember])
    refine (Json.bind_of_some htag).trans ((Json.bind_of_some hfields).trans ?_)
    exact congrArg (Option.map succeeded) (optional_stopResponse h)
  | paused p =>
    have htag := Json.tagged?_between .text [] "status" "PAUSED" [] [("pauseMetadata", p.toJson)]
      (by simp) (by simp)
    have hfields := Json.fields?_known ["pauseMetadata"] [("pauseMetadata", p.toJson)] (by simp) (by simp)
    refine (Json.bind_of_some htag).trans ((Json.bind_of_some hfields).trans ?_)
    exact congrArg (Option.map paused)
      (Json.required_of_lookup (by simp) (Pause.ofJson?_toJson (.kept true) h))
  | failed step message =>
    have htag := Json.tagged?_between .text [] "status" "FAILED" []
      [("failedStep", .str step), ("errorMessage", .str message)] (by simp) (by simp)
    have hfields := Json.fields?_known ["failedStep", "errorMessage"]
      [("failedStep", .str step), ("errorMessage", .str message)] (by simp) (by simp)
    have htext (text : String) : Json.asString? (.str text) = some text := rfl
    refine (Json.bind_of_some htag).trans ((Json.bind_of_some hfields).trans ?_)
    refine (Json.bind_of_some (Json.required_of_lookup (by simp) (htext step))).trans ?_
    exact Json.bind_of_some (Json.required_of_lookup (by simp [List.lookup_cons]) (htext message))

/-! ## Runs -/

/-- The verdict and the records of a run are representable. -/
structure RunState.Representable (s : RunState) : Prop where
  verdict : s.verdict.Representable
  steps : s.steps.Representable

/-- What is left of a run when it is persisted. -/
def RunState.restored (s : RunState) : RunState := { s with verdict := s.verdict.restored }

namespace RunState

/-- The members of a persisted run. -/
def members (s : RunState) : List (String × Json) :=
  ("runId", .str s.runId) :: Json.optionalMember "projectId" .str s.projectId ++
    [("executionType", .str s.entry.name), ("verdict", s.verdict.toJson), ("steps", s.steps.toJson)]

theorem names_members (s : RunState) :
    (∀ m ∈ s.members, m.1 ∈ fieldNames) ∧ (s.members.map Prod.fst).Nodup := by
  obtain ⟨runId, projectId, entry, verdict, steps⟩ := s
  cases projectId <;> simp [members, fieldNames, Json.optionalMember]

theorem lookup_members (s : RunState) : s.members.lookup "runId" = some (.str s.runId) ∧
    s.members.lookup "projectId" = s.projectId.map .str ∧
      s.members.lookup "executionType" = some (.str s.entry.name) ∧
        s.members.lookup "verdict" = some s.verdict.toJson ∧
          s.members.lookup "steps" = some s.steps.toJson := by
  obtain ⟨runId, projectId, entry, verdict, steps⟩ := s
  cases projectId <;> simp [members, Json.optionalMember, List.lookup_cons]

/-- A run is read from its document, with its steps in the same order at every level. -/
theorem ofJson?_toJson (h : s.Representable) : ofJson? s.toJson = some s.restored := by
  obtain ⟨hrunId, hprojectId, hentry, hverdict, hsteps⟩ := lookup_members s
  have hfields := Json.fields?_known _ _ (names_members s).1 (names_members s).2
  have hrunId : Json.Fields.required _ "runId" Json.asString? = some s.runId :=
    Json.required_of_lookup hrunId rfl
  have hprojectId : Json.Fields.optional _ "projectId" Json.asString? = some s.projectId :=
    Json.optional_of_lookup hprojectId (fun _ _ => by rintro ⟨⟩) fun _ _ => rfl
  have hentry : Json.Fields.defaulted _ "executionType" .begin
      (fun j => do Entry.ofName? (← j.formName? .text)) = some s.entry :=
    Json.defaulted_of_lookup hentry (by cases s.entry <;> rfl)
  refine (Json.bind_of_some hfields).trans ((Json.bind_of_some hrunId).trans ?_)
  refine (Json.bind_of_some hprojectId).trans ((Json.bind_of_some hentry).trans ?_)
  refine (Json.bind_of_some (Json.defaulted_of_lookup hverdict
    (Verdict.ofJson?_toJson h.verdict))).trans ?_
  exact Json.bind_of_some (Json.defaulted_of_lookup hsteps (StepMap.ofJson?_toJson h.steps))

end RunState

/-! ## Values of records -/

open Json (depthMembers depthElements)

variable {n levels : Nat} {j : Json} {name : String}

namespace StepRecord

/-- A value of a record, and how many levels are around it in the document of the record. -/
inductive Holds : StepRecord → Nat → Json → Prop
  | input (r : StepRecord) : Holds r 1 r.summary.input
  | output (s : Summary) (output : Json) : Holds (.action s output) 1 output
  | item (s : Summary) (item : Json) (index : Nat) (iterations : List StepMap) :
    Holds (.loop s item index iterations) 2 item
  | within {s : Summary} {item : Json} {index : Nat} {iterations : List StepMap} {steps : StepMap}
    {name : String} {r : StepRecord} {levels : Nat} {j : Json} (hsteps : steps ∈ iterations)
    (hr : (name, r) ∈ steps) (h : Holds r levels j) :
    Holds (.loop s item index iterations) (levels + 4) j

mutual

/-- How many loops are nested in a record, with the record. -/
def loops : StepRecord → Nat
  | loop _ _ _ iterations => loopsAll iterations + 1
  | action _ _ | branch _ _ | split _ _ => 0

/-- How many loops are nested in iterations. -/
def loopsAll : List (List (String × StepRecord)) → Nat
  | [] => 0
  | steps :: rest => max (loopsIn steps) (loopsAll rest)

/-- How many loops are nested in a map. -/
def loopsIn : List (String × StepRecord) → Nat
  | [] => 0
  | (_, r) :: rest => max (loops r) (loopsIn rest)

end

theorem depth_le_membersJson {r : StepRecord} : ∀ {steps : List (String × StepRecord)},
    (name, r) ∈ steps → r.toJson.depth ≤ depthMembers (membersJson steps)
  | _ :: _, .head _ => Nat.le_max_left _ _
  | _ :: _, .tail _ h => Nat.le_trans (depth_le_membersJson h) (Nat.le_max_right _ _)

theorem depth_le_iterationsJson {steps : StepMap} : ∀ {iterations : List (List (String × StepRecord))},
    steps ∈ iterations →
      depthMembers (membersJson steps) + 1 ≤ depthElements (iterationsJson iterations)
  | _ :: _, .head _ => Nat.le_max_left _ _
  | _ :: _, .tail _ h => Nat.le_trans (depth_le_iterationsJson h) (Nat.le_max_right _ _)

/-- A record is nested as deep as each of its values requires. -/
theorem Holds.depth_le {r : StepRecord} (h : r.Holds levels j) : levels + j.depth ≤ r.toJson.depth := by
  induction h with
  | input r =>
    rw [depth_toJson]
    omega
  | output s output =>
    rw [depth_toJson]
    dsimp only
    omega
  | item s item index iterations =>
    rw [depth_toJson]
    dsimp only
    omega
  | within hsteps hr _ ih =>
    -- around the inner record are its map, the list of maps, the output and the outer record
    have hrecord := depth_le_membersJson hr
    have hmap := depth_le_iterationsJson hsteps
    rw [depth_toJson]
    dsimp only
    omega

mutual

/-- A record is nested no deeper than its values and its loops require. -/
theorem depth_toJson_le : ∀ {r : StepRecord} {n : Nat},
    (∀ levels j, r.Holds levels j → levels + j.depth ≤ n) → 4 * r.loops + 2 ≤ n →
      r.toJson.depth ≤ n
  | .action s output, n, h, _ => by
    have hinput := h _ _ (.input _)
    have houtput := h _ _ (.output s output)
    rw [depth_toJson]
    dsimp only
    omega
  | .branch s holds, n, h, hn => by
    have hinput := h _ _ (.input _)
    rw [depth_toJson]
    dsimp only
    omega
  | .split s taken, n, h, hn => by
    have hinput := h _ _ (.input _)
    rw [depth_toJson]
    dsimp only
    omega
  | .loop s item index iterations, n, h, hn => by
    have hinput := h _ _ (.input _)
    have hitem := h _ _ (.item s item index iterations)
    rw [loops] at hn
    have hiterations : depthElements (iterationsJson iterations) ≤ n - 3 := by
      refine iterationsJson_depth_le (fun steps hsteps name r hr levels j hj => ?_) (by omega)
      have := h _ _ (.within hsteps hr hj)
      omega
    rw [depth_toJson]
    dsimp only
    omega

theorem iterationsJson_depth_le : ∀ {iterations : List (List (String × StepRecord))} {n : Nat},
    (∀ steps ∈ iterations, ∀ name r, (name, r) ∈ steps → ∀ levels j, r.Holds levels j →
      levels + 1 + j.depth ≤ n) → 4 * loopsAll iterations + 3 ≤ n →
        depthElements (iterationsJson iterations) ≤ n
  | [], _, _, _ => Nat.zero_le _
  | steps :: iterations, n, h, hn => by
    rw [loopsAll] at hn
    have hsteps : depthMembers (membersJson steps) ≤ n - 1 := by
      refine membersJson_depth_le (fun name r hr levels j hj => ?_) (by omega)
      have := h _ List.mem_cons_self name r hr levels j hj
      omega
    have hrest : depthElements (iterationsJson iterations) ≤ n :=
      iterationsJson_depth_le (fun steps hsteps => h _ (List.mem_cons_of_mem _ hsteps)) (by omega)
    rw [iterationsJson, depthElements, Json.depth]
    omega

theorem membersJson_depth_le : ∀ {steps : List (String × StepRecord)} {n : Nat},
    (∀ name r, (name, r) ∈ steps → ∀ levels j, r.Holds levels j → levels + j.depth ≤ n) →
      4 * loopsIn steps + 2 ≤ n → depthMembers (membersJson steps) ≤ n
  | [], _, _, _ => Nat.zero_le _
  | (name, r) :: steps, n, h, hn => by
    rw [loopsIn] at hn
    exact Nat.max_le.mpr ⟨depth_toJson_le (h name r List.mem_cons_self) (by omega),
      membersJson_depth_le (fun _ _ hr => h _ _ (List.mem_cons_of_mem _ hr)) (by omega)⟩

end

end StepRecord

/-! ## Values of runs -/

/-- The depth of the document of a verdict. -/
theorem Verdict.depth_toJson (v : Verdict) : v.toJson.depth = match v with
    | running | succeeded none | failed _ _ => 1
    | succeeded (some response) => response.depth + 1
    | paused (.webhook _ response) => response.depth + 2
    | paused (.delay _) => 2 := by
  rcases v with _ | (_ | response) | (⟨requestId, response⟩ | t) | ⟨step, message⟩ <;>
    simp [toJson, Pause.toJson, Json.depth, depthMembers, Json.optionalMember]

namespace RunState

/-- A value of a run, and how many levels are around it in the document of the run. -/
inductive Holds (s : RunState) : Nat → Json → Prop
  | record {name : String} {r : StepRecord} {levels : Nat} {j : Json} (hr : (name, r) ∈ s.steps)
    (h : r.Holds levels j) : Holds s (levels + 2) j
  | stopped {response : Json} (h : s.verdict = .succeeded (some response)) : Holds s 2 response
  | paused {requestId : String} {response : Json} (h : s.verdict = .paused (.webhook requestId response)) :
    Holds s 3 response

/-- The depth of the document of a run. -/
theorem depth_toJson (s : RunState) :
    s.toJson.depth = max s.verdict.toJson.depth (depthMembers (StepRecord.membersJson s.steps) + 1) + 1 := by
  obtain ⟨runId, projectId, entry, verdict, steps⟩ := s
  cases projectId <;> simp [toJson, Json.depth, depthMembers, Json.optionalMember, StepMap.toJson]

/-- A run is nested as deep as each of its values requires. -/
theorem Holds.depth_le (h : s.Holds levels j) : levels + j.depth ≤ s.toJson.depth := by
  rw [RunState.depth_toJson, Verdict.depth_toJson]
  cases h with
  | record hr h =>
    have hrecord := h.depth_le
    have hmap := StepRecord.depth_le_membersJson hr
    omega
  | stopped h =>
    rw [h]
    dsimp only
    omega
  | paused h =>
    rw [h]
    dsimp only
    omega

/-- A run is nested no deeper than its values and its loops require. -/
theorem depth_toJson_le (h : ∀ levels j, s.Holds levels j → levels + j.depth ≤ n)
    (hn : 4 * StepRecord.loopsIn s.steps + 4 ≤ n) : s.toJson.depth ≤ n := by
  -- the run and the map of its steps are two levels, the run and its verdict are two others
  have hsteps : depthMembers (StepRecord.membersJson s.steps) ≤ n - 2 := by
    refine StepRecord.membersJson_depth_le (fun name r hr levels j hj => ?_) (by omega)
    have := h _ _ (.record hr hj)
    omega
  have hverdict : s.verdict.toJson.depth ≤ n - 1 := by
    rw [Verdict.depth_toJson]
    split
    case h_4 response hv =>
      have := h _ _ (.stopped hv)
      omega
    case h_5 requestId response hv =>
      have := h _ _ (.paused hv)
      omega
    all_goals omega
  rw [RunState.depth_toJson]
  omega

end RunState

end FlowEngine.Run
