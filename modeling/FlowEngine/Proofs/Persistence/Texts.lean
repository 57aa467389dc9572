import FlowEngine.Proofs.Persistence.Runs

/-!
# Texts of persisted runs

* `RunState.mapValues` — a run with every value changed by a function.
* `RunState.ofText?_toText` — the text of a run is read, unless it is nested too deep, with every number
  rounded again.
-/

namespace FlowEngine.Run

variable (f : Json → Json)

/-! ## Changing values -/

/-- A summary with another input. -/
def Summary.mapValues (s : Summary) : Summary := { s with input := f s.input }

namespace StepRecord

mutual

/-- A record with other values. -/
def mapValues : StepRecord → StepRecord
  | action s output => action (s.mapValues f) (f output)
  | branch s holds => branch (s.mapValues f) holds
  | split s taken => split (s.mapValues f) taken
  | loop s item index iterations =>
    loop (s.mapValues f) (f item) index (mapValuesAll iterations)

/-- Iterations with other values. -/
def mapValuesAll : List (List (String × StepRecord)) → List (List (String × StepRecord))
  | [] => []
  | steps :: rest => mapValuesIn steps :: mapValuesAll rest

/-- A map with other values. -/
def mapValuesIn : List (String × StepRecord) → List (String × StepRecord)
  | [] => []
  | (name, r) :: rest => (name, mapValues r) :: mapValuesIn rest

end

end StepRecord

/-- A pause with another response. -/
def Pause.mapValues : Pause → Pause
  | webhook requestId response => webhook requestId (f response)
  | delay t => delay t

/-- A verdict with other values. -/
def Verdict.mapValues : Verdict → Verdict
  | succeeded response => succeeded (response.map f)
  | paused p => paused (p.mapValues f)
  | v => v

/-- A run with other values: the same steps in the same order. -/
def RunState.mapValues (s : RunState) : RunState :=
  { s with verdict := s.verdict.mapValues f, steps := StepRecord.mapValuesIn f s.steps }

/-! ## Documents with other values -/

namespace StepRecord

theorem summaryMembers_reread (s : Summary) :
    summaryMembers (s.mapValues Json.reread) = Json.rereadMembers (summaryMembers s) := by
  obtain ⟨status, input, error, duration⟩ := s
  cases error <;> cases duration <;> rfl

mutual

/-- What the document of a record is read as is the document of the record with other values. -/
theorem toJson_reread : ∀ r : StepRecord, (r.mapValues Json.reread).toJson = r.toJson.reread
  | .action s output => by
    rw [mapValues, toJson, toJson, summaryMembers_reread, Json.reread, Json.rereadMembers_append]
    rfl
  | .branch s holds => by
    rw [mapValues, toJson, toJson, summaryMembers_reread, Json.reread, Json.rereadMembers_append]
    rfl
  | .split s taken => by
    rw [mapValues, toJson, toJson, summaryMembers_reread, Json.reread, Json.rereadMembers_append]
    simp only [Json.rereadMembers, Json.reread, (Json.reread_texts taken).2]
  | .loop s item index iterations => by
    rw [mapValues, toJson, toJson, summaryMembers_reread, Json.reread, Json.rereadMembers_append,
      iterationsJson_reread iterations]
    rfl

theorem iterationsJson_reread : ∀ iterations : List (List (String × StepRecord)),
    iterationsJson (mapValuesAll Json.reread iterations) = Json.rereadElements (iterationsJson iterations)
  | [] => rfl
  | steps :: iterations => by
    rw [mapValuesAll, iterationsJson, iterationsJson, Json.rereadElements, Json.reread,
      membersJson_reread steps, iterationsJson_reread iterations]

theorem membersJson_reread : ∀ steps : List (String × StepRecord),
    membersJson (mapValuesIn Json.reread steps) = Json.rereadMembers (membersJson steps)
  | [] => rfl
  | (name, r) :: steps => by
    rw [mapValuesIn, membersJson, membersJson, Json.rereadMembers, toJson_reread r,
      membersJson_reread steps]

end

end StepRecord

theorem Pause.toJson_reread (p : Pause) : (p.mapValues Json.reread).toJson = p.toJson.reread := by
  cases p <;> rfl

theorem Verdict.toJson_reread (v : Verdict) : (v.mapValues Json.reread).toJson = v.toJson.reread := by
  cases v with
  | succeeded response => cases response <;> rfl
  | paused p =>
    rw [mapValues, toJson, toJson, p.toJson_reread]
    rfl
  | _ => rfl

/-- What the document of a run is read as is the document of the run with other values. -/
theorem RunState.toJson_reread (s : RunState) : (s.mapValues Json.reread).toJson = s.toJson.reread := by
  have hsteps := StepRecord.membersJson_reread s.steps
  have hverdict := s.verdict.toJson_reread
  obtain ⟨runId, projectId, entry, verdict, steps⟩ := s
  rw [mapValues, toJson, toJson, StepMap.toJson, hsteps, hverdict]
  cases projectId <;> rfl

/-! ## Runs that have texts -/

namespace StepRecord

theorem summaryMembers_writable {s : Summary} (h : s.Representable) :
    Json.WritableMembers (summaryMembers s) := by
  obtain ⟨hinput, hduration⟩ := h
  obtain ⟨status, input, error, duration⟩ := s
  have hvalue := Json.Canonical.writable hinput
  rcases duration with _ | duration
  · cases error <;> simp [summaryMembers, Json.optionalMember, Json.WritableMembers, Json.Writable, hvalue]
  · have hlt := hduration duration rfl
    have hrange : Json.Writable (.ofNat duration) := by
      change Json.InRange (duration : Int)
      omega
    cases error <;>
      simp [summaryMembers, Json.optionalMember, Json.WritableMembers, Json.Writable, hvalue, hrange]

mutual

theorem Representable.writable : ∀ {r : StepRecord}, Representable r → Json.Writable r.toJson
  | .action s output, h =>
    (Json.writableMembers_append _ _).mpr
      ⟨summaryMembers_writable h.1, trivial, Json.Canonical.writable h.2, trivial⟩
  | .branch s holds, h =>
    (Json.writableMembers_append _ _).mpr ⟨summaryMembers_writable h, trivial, trivial, trivial⟩
  | .split s taken, h =>
    (Json.writableMembers_append _ _).mpr
      ⟨summaryMembers_writable h, trivial, (Json.reread_texts taken).1, trivial⟩
  | .loop s item index iterations, h => by
    have hrange : Json.InRange (index : Int) := by
      have := h.2.2.1
      omega
    exact (Json.writableMembers_append _ _).mpr ⟨summaryMembers_writable h.1, trivial,
      ⟨Json.Canonical.writable h.2.1, hrange, iterationsJson_writable h.2.2.2, trivial⟩, trivial⟩

theorem iterationsJson_writable : ∀ {iterations : List (List (String × StepRecord))},
    RepresentableAll iterations → Json.WritableElements (iterationsJson iterations)
  | [], _ => trivial
  | _ :: _, h => ⟨membersJson_writable h.1.2, iterationsJson_writable h.2⟩

theorem membersJson_writable : ∀ {steps : List (String × StepRecord)}, RepresentableIn steps →
    Json.WritableMembers (membersJson steps)
  | [], _ => trivial
  | (_, _) :: _, h => ⟨Representable.writable h.1, membersJson_writable h.2⟩

end

end StepRecord

theorem Pause.Representable.writable {p : Pause} (h : p.Representable) : Json.Writable p.toJson := by
  cases p with
  | webhook requestId response => exact ⟨trivial, trivial, Json.Canonical.writable h, trivial⟩
  | delay t => exact ⟨trivial, trivial, trivial⟩

theorem Verdict.Representable.writable {v : Verdict} (h : v.Representable) : Json.Writable v.toJson := by
  cases v with
  | running => exact ⟨trivial, trivial⟩
  | succeeded response =>
    cases response with
    | none => exact ⟨trivial, trivial⟩
    | some response => exact ⟨trivial, Json.Canonical.writable (h response rfl), trivial⟩
  | paused p => exact ⟨trivial, Pause.Representable.writable h, trivial⟩
  | failed step message => exact ⟨trivial, trivial, trivial, trivial⟩

/-! ## Other values that are representable -/

theorem Summary.Representable.reread {s : Summary} (h : s.Representable) :
    (s.mapValues Json.reread).Representable := ⟨h.input.reread, h.duration⟩

namespace StepRecord

theorem mapValuesIn_eq_map (steps : StepMap) :
    mapValuesIn f steps = steps.map fun x => (x.1, x.2.mapValues f) := by
  induction steps with
  | nil => rfl
  | cons x steps ih => exact congrArg ((x.1, x.2.mapValues f) :: ·) ih

theorem names_mapValuesIn (steps : StepMap) :
    (mapValuesIn f steps).map Prod.fst = steps.map Prod.fst := by
  rw [mapValuesIn_eq_map, List.map_map]
  rfl

mutual

theorem Representable.reread : ∀ {r : StepRecord}, Representable r →
    Representable (r.mapValues Json.reread)
  | .action _ _, h => ⟨Summary.Representable.reread h.1, h.2.reread⟩
  | .branch _ _, h => Summary.Representable.reread h
  | .split _ _, h => Summary.Representable.reread h
  | .loop _ _ _ _, h =>
    ⟨Summary.Representable.reread h.1, h.2.1.reread, h.2.2.1, RepresentableAll.reread h.2.2.2⟩

theorem RepresentableAll.reread : ∀ {iterations : List (List (String × StepRecord))},
    RepresentableAll iterations → RepresentableAll (mapValuesAll Json.reread iterations)
  | [], _ => trivial
  | steps :: _, h => ⟨⟨(names_mapValuesIn _ steps).symm ▸ h.1.1, RepresentableIn.reread h.1.2⟩,
    RepresentableAll.reread h.2⟩

theorem RepresentableIn.reread : ∀ {steps : List (String × StepRecord)}, RepresentableIn steps →
    RepresentableIn (mapValuesIn Json.reread steps)
  | [], _ => trivial
  | (_, _) :: _, h => ⟨Representable.reread h.1, RepresentableIn.reread h.2⟩

end

/-! ## Outputs of records that are read again -/

/-- What other steps see as the output of a record that is read is what its output is read as. -/
theorem Representable.output_reread {r : StepRecord} (h : r.Representable) :
    (r.mapValues Json.reread).output = r.output.reread := by
  cases r with
  | action s output => rfl
  | branch s holds => rfl
  | split s taken =>
    exact congrArg (fun texts => Json.obj [("takenBranches", .arr texts)])
      (Json.reread_texts taken).2.symm
  | loop s item index iterations =>
    have hloop : loopJson item.reread index (mapValuesAll Json.reread iterations) =
        (loopJson item index iterations).reread := by
      rw [loopJson, iterationsJson_reread]
      rfl
    have hwritable : Json.Writable (loopJson item index iterations) := by
      have hmembers := Representable.writable h
      rw [toJson] at hmembers
      exact ((Json.writableMembers_append _ _).mp hmembers).2.2.1
    exact (congrArg Json.canonical hloop).trans (Json.canonical_reread hwritable)

theorem RepresentableIn.of_mem {name : String} {r : StepRecord} : ∀ {steps : List (String × StepRecord)},
    RepresentableIn steps → (name, r) ∈ steps → r.Representable
  | _ :: _, h, .head _ => h.1
  | _ :: _, h, .tail _ hr => of_mem h.2 hr

/-- The output of the last record of a map that is read. -/
theorem RepresentableIn.lastOutput_reread {steps : StepMap} (h : RepresentableIn steps) :
    (mapValuesIn Json.reread steps).getLast?.map (fun x => x.2.output) =
      (steps.getLast?.map fun x => x.2.output).map Json.reread := by
  rw [mapValuesIn_eq_map, List.getLast?_map]
  cases hlast : steps.getLast? with
  | none => rfl
  | some x => exact congrArg some (h.of_mem (List.mem_of_getLast? hlast)).output_reread

end StepRecord

namespace RunState

variable {s : RunState}

theorem Representable.reread (h : s.Representable) : (s.mapValues Json.reread).Representable where
  verdict := by
    obtain ⟨hverdict, -⟩ := h
    obtain ⟨runId, projectId, entry, verdict, steps⟩ := s
    cases verdict with
    | running => trivial
    | succeeded response =>
      intro j hj
      obtain ⟨i, hi, rfl⟩ := Option.map_eq_some_iff.mp hj
      exact (hverdict i hi).reread
    | paused p =>
      cases p with
      | webhook requestId response => exact Json.Canonical.reread hverdict
      | delay t => exact hverdict
    | failed step message => trivial
  steps := by
    obtain ⟨hnd, hsteps⟩ := h.steps
    refine ⟨?_, StepRecord.RepresentableIn.reread hsteps⟩
    rwa [StepMap.names, ← StepRecord.names_mapValuesIn Json.reread s.steps] at hnd

theorem writable_members (h : s.Representable) : Json.WritableMembers s.members := by
  have hverdict := h.verdict.writable
  have hsteps : Json.Writable s.steps.toJson := StepRecord.membersJson_writable h.steps.2
  obtain ⟨runId, projectId, entry, verdict, steps⟩ := s
  cases projectId with
  | none => exact ⟨trivial, trivial, hverdict, hsteps, trivial⟩
  | some projectId => exact ⟨trivial, trivial, trivial, hverdict, hsteps, trivial⟩

/-- The text of a run is read if it is not nested too deep. Its numbers are rounded again, and a stop
response that is null is lost. -/
theorem ofText?_toText (h : s.Representable) : ofText? s.toText =
    if s.toJson.depth ≤ Json.maxDepth then some (s.mapValues Json.reread).restored else none := by
  -- the text is that of the members, and what is read is the document of a run again
  have hread := Json.readRecord?_pretty (writable_members h) (names_members s).1
  rw [ofText?, toText]
  change (Json.readRecord? fieldNames (Json.obj s.members).pretty >>= ofJson?) = _
  rw [hread]
  change _ = if (Json.obj s.members).depth ≤ Json.maxDepth then _ else none
  split_ifs
  · refine Eq.trans ?_ (ofJson?_toJson h.reread)
    rw [toJson_reread]
    rfl
  · rfl

end RunState

end FlowEngine.Run
