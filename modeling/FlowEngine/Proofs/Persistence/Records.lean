import FlowEngine.Run.Record
import FlowEngine.Proofs.Documents.Decoding
import Mathlib.Tactic.MkIffOfInductiveProp

/-!
# Persisted records

* `StepRecord.Representable`, `StepMap.Representable` — records that hold values in canonical form and
  numbers of 64 bits, in maps without repeated names, at any depth.
* `StepRecord.ofJsonWithin?_toJson` — such a record is read from its document, within any depth that
  the document does not exceed.
* `StepMap.ofJson?_toJson` — a map of them is, in the same order.
-/

namespace FlowEngine.Run

open Json (EntryOf)

/-- A value in canonical form and a duration of 64 bits. -/
@[mk_iff]
structure Summary.Representable (s : Summary) : Prop where
  input : s.input.Canonical
  duration : ∀ d ∈ s.duration, d < 2 ^ 64

namespace StepRecord

mutual

/-- A record whose values are in canonical form and whose numbers have 64 bits. -/
def Representable : StepRecord → Prop
  | action s output => s.Representable ∧ output.Canonical
  | branch s _ | split s _ => s.Representable
  | loop s item index iterations =>
    s.Representable ∧ item.Canonical ∧ index < 2 ^ 64 ∧ RepresentableAll iterations

/-- The maps of all iterations are representable. -/
def RepresentableAll : List (List (String × StepRecord)) → Prop
  | [] => True
  | steps :: rest => ((steps.map Prod.fst).Nodup ∧ RepresentableIn steps) ∧ RepresentableAll rest

/-- The records of a map are representable. -/
def RepresentableIn : List (String × StepRecord) → Prop
  | [] => True
  | (_, r) :: rest => Representable r ∧ RepresentableIn rest

end

end StepRecord

/-- No name is repeated, and the records are representable. -/
def StepMap.Representable (steps : StepMap) : Prop :=
  steps.names.Nodup ∧ StepRecord.RepresentableIn steps

namespace StepRecord

variable {o : Json.Origin} {s : Summary} {kind : String} {value : Json}

/-! ## Members -/

/-- The names of the members that every record has. -/
def summaryNames : List String := ["status", "input", "errorMessage", "duration"]

theorem names_summaryMembers (s : Summary) :
    (∀ m ∈ summaryMembers s, m.1 ∈ summaryNames) ∧ ((summaryMembers s).map Prod.fst).Nodup := by
  obtain ⟨status, input, error, duration⟩ := s
  rcases error with _ | error <;> rcases duration with _ | duration <;>
    simp [summaryMembers, summaryNames, Json.optionalMember]

theorem lookup_summaryMembers (s : Summary) :
    (summaryMembers s).lookup "status" = some (.str s.status.name) ∧
      (summaryMembers s).lookup "input" = some s.input ∧
        (summaryMembers s).lookup "errorMessage" = s.error.map .str ∧
          (summaryMembers s).lookup "duration" = s.duration.map .ofNat := by
  obtain ⟨status, input, error, duration⟩ := s
  rcases error with _ | error <;> rcases duration with _ | duration <;>
    simp [summaryMembers, Json.optionalMember, List.lookup_cons]

/-- The summary is read from the members of a record. -/
theorem summaryOf?_members (h : s.Representable) {others : List (String × Json)}
    (ho : ∀ m ∈ others, m.1 ∉ summaryNames) :
    summaryOf? o (.obj (summaryMembers s ++ others)) = some s := by
  have hfields : Json.objectFields? summaryNames (.obj (summaryMembers s ++ others)) =
      some (summaryMembers s) :=
    Json.knownMembers?_between [] _ _ (by simp) (names_summaryMembers s).1 ho
      (names_summaryMembers s).2
  obtain ⟨hstatus, hinput, herror, hduration⟩ := lookup_summaryMembers s
  have hstatus : Json.Fields.required _ "status" (fun j => do StepStatus.ofName? (← j.formName? o)) =
      some s.status := Json.required_of_lookup hstatus (StepStatus.ofName?_name s.status)
  have hinput : Json.Fields.defaulted _ "input" .null Json.asValue? = some s.input :=
    Json.defaulted_of_lookup hinput (Json.asValue?_canonical h.input)
  have herror : Json.Fields.optional _ "errorMessage" Json.asString? = some s.error :=
    Json.optional_of_lookup herror (fun _ _ => by rintro ⟨⟩) fun _ _ => rfl
  have hduration := Json.optional_of_lookup hduration (fun _ _ => by rintro ⟨⟩)
    fun d hd => Json.asNat64?_ofNat (h.duration d hd)
  rw [summaryOf?]
  change (Json.objectFields? summaryNames _ >>= _) = _
  rw [hfields]
  simp only [Option.bind_eq_bind, Option.bind_some] at hstatus ⊢
  rw [hstatus, hinput, herror, hduration]
  rfl

/-- The kind of a record, and its members without it. -/
theorem tagged?_members {name : String} (hname : name ≠ "type") :
    Json.tagged? (.kept true) "type" kinds
        (.obj (summaryMembers s ++ [("type", .str kind), (name, value)])) =
      some (kind, .obj (summaryMembers s ++ [(name, value)])) := by
  refine Json.tagged?_between (.kept true) kinds _ _ _ _ (fun m hm h => ?_) (by simpa using hname)
  exact absurd ((names_summaryMembers s).1 m hm) (by rw [h]; decide)

/-- The member of the kind of a record. -/
theorem objectFields?_members {name : String} (hname : name ∉ summaryNames) :
    Json.objectFields? [name] (.obj (summaryMembers s ++ [(name, value)])) = some [(name, value)] := by
  refine Json.knownMembers?_between _ [(name, value)] [] (fun m hm h => ?_) (by simp) (by simp) (by simp)
  rw [List.mem_singleton] at h
  exact hname (h ▸ (names_summaryMembers s).1 m hm)

/-! ## Kinds -/

theorem action_toJson (h : Representable (action s value)) (fuel : Nat) :
    ofJsonWithin? (fuel + 1) o (toJson (action s value)) = some (action s value) := by
  rw [toJson, ofJsonWithin?, summaryOf?_members h.1 (by simp [summaryNames])]
  simp only [Option.bind_eq_bind, Option.bind_some, tagged?_members (show "output" ≠ "type" by decide),
    objectFields?_members (show "output" ∉ summaryNames by decide)]
  rw [Json.defaulted_of_lookup (by simp) (Json.asValue?_canonical h.2)]
  rfl

theorem branch_toJson (h : s.Representable) (holds : Bool) (fuel : Nat) :
    ofJsonWithin? (fuel + 1) o (toJson (branch s holds)) = some (branch s holds) := by
  rw [toJson, ofJsonWithin?, summaryOf?_members h (by simp [summaryNames])]
  simp only [Option.bind_eq_bind, Option.bind_some,
    tagged?_members (show "conditionEvaluation" ≠ "type" by decide),
    objectFields?_members (show "conditionEvaluation" ∉ summaryNames by decide)]
  rw [Json.required_of_lookup (by simp) (show Json.asBool? (.bool holds) = some holds from rfl)]
  rfl

theorem split_toJson (h : s.Representable) (taken : List String) (fuel : Nat) :
    ofJsonWithin? (fuel + 1) o (toJson (split s taken)) = some (split s taken) := by
  have htaken : Json.asList? Json.asString? (.arr (taken.map .str)) = some taken := by
    refine Json.asList?_elements ?_
    rw [List.forall₂_map_left_iff, List.forall₂_same]
    exact fun _ _ => rfl
  rw [toJson, ofJsonWithin?, summaryOf?_members h (by simp [summaryNames])]
  simp only [Option.bind_eq_bind, Option.bind_some,
    tagged?_members (show "takenBranches" ≠ "type" by decide),
    objectFields?_members (show "takenBranches" ∉ summaryNames by decide)]
  rw [Json.defaulted_of_lookup (by simp) htaken]
  rfl

/-- How the output of a loop is read. -/
def loopOf? (fuel : Nat) (s : Summary) (j : Json) : Option StepRecord := do
  let fs ← j.fields? ["item", "index", "iterations"]
  let item ← fs.defaulted "item" .null Json.asValue?
  let index ← fs.defaulted "index" 0 Json.asNat64?
  let iterations ← fs.defaulted "iterations" []
    (Json.asList? (Json.asMap? (ofJsonWithin? fuel (.kept true))))
  some (loop s item index iterations)

theorem ofJsonWithin?_loop {j j' : Json} {fs : Json.Fields} (fuel : Nat) (hs : summaryOf? o j = some s)
    (hkind : j.tagged? (.kept true) "type" kinds = some ("LOOP_ON_ITEMS", j'))
    (hfields : j'.objectFields? ["output"] = some fs) :
    ofJsonWithin? (fuel + 1) o j = fs.defaulted "output" (loop s .null 0 []) (loopOf? fuel s) := by
  rw [ofJsonWithin?, hs, Option.bind_eq_bind, Option.bind_some, hkind, Option.bind_eq_bind,
    Option.bind_some]
  change (j'.objectFields? ["output"] >>= _) = _
  rw [hfields]
  rfl

theorem loopOf?_loopJson {item : Json} {index : Nat} {iterations : List StepMap} {fuel : Nat}
    (hitem : item.Canonical) (hindex : index < 2 ^ 64)
    (hits : Json.asList? (Json.asMap? (ofJsonWithin? fuel (.kept true)))
      (.arr (iterationsJson iterations)) = some iterations) :
    loopOf? fuel s (loopJson item index iterations) = some (loop s item index iterations) := by
  obtain ⟨fs, hfs⟩ : ∃ fs : Json.Fields, fs = [("item", item), ("index", .ofNat index),
    ("iterations", .arr (iterationsJson iterations))] := ⟨_, rfl⟩
  have hfields : Json.fields? ["item", "index", "iterations"] (.obj fs) = some fs :=
    Json.fields?_known _ _ (by simp [hfs]) (by simp [hfs])
  rw [loopJson, ← hfs, loopOf?]
  refine (Json.bind_of_some hfields).trans ?_
  refine (Json.bind_of_some (Json.defaulted_of_lookup (by simp [hfs])
    (Json.asValue?_canonical hitem))).trans ?_
  refine (Json.bind_of_some (Json.defaulted_of_lookup (by simp [hfs, List.lookup_cons])
    (Json.asNat64?_ofNat hindex))).trans ?_
  exact Json.bind_of_some (Json.defaulted_of_lookup (by simp [hfs, List.lookup_cons]) hits)

theorem loop_toJson {item : Json} {index : Nat} {iterations : List StepMap}
    (h : Representable (loop s item index iterations)) {fuel : Nat}
    (hits : Json.asList? (Json.asMap? (ofJsonWithin? fuel (.kept true)))
      (.arr (iterationsJson iterations)) = some iterations) :
    ofJsonWithin? (fuel + 1) o (toJson (loop s item index iterations)) =
      some (loop s item index iterations) := by
  rw [toJson, ofJsonWithin?_loop fuel (summaryOf?_members h.1 (by simp [summaryNames]))
    (tagged?_members (by decide)) (objectFields?_members (by decide))]
  exact Json.defaulted_of_lookup (by simp [loopJson]) (loopOf?_loopJson h.2.1 h.2.2.1 hits)

/-! ## Nesting -/

theorem depth_summaryMembers (s : Summary) : Json.depthMembers (summaryMembers s) = s.input.depth := by
  obtain ⟨status, input, error, duration⟩ := s
  cases error <;> cases duration <;> exact Nat.max_zero _

/-- The depth of the document of a record. -/
theorem depth_toJson (r : StepRecord) : r.toJson.depth = max r.summary.input.depth (match r with
    | action _ output => output.depth
    | branch _ _ => 0
    | split _ _ => 1
    | loop _ item _ iterations =>
      max item.depth (Json.depthElements (iterationsJson iterations) + 1) + 1) + 1 := by
  cases r <;> rw [toJson, Json.depth, Json.depthMembers_append, depth_summaryMembers] <;>
    simp [Json.depthMembers, Json.depth, Json.ofNat, Json.depth_texts, summary]

mutual

/-- A record is read from its document. -/
theorem ofJsonWithin?_toJson : ∀ (r : StepRecord), Representable r → ∀ (fuel : Nat) (o : Json.Origin),
    (toJson r).depth < fuel → ofJsonWithin? fuel o (toJson r) = some r
  | r, _, 0, _, hfuel => absurd hfuel (Nat.not_lt_zero _)
  | .action _ _, h, fuel + 1, _, _ => action_toJson h fuel
  | .branch _ holds, h, fuel + 1, _, _ => branch_toJson h holds fuel
  | .split _ taken, h, fuel + 1, _, _ => split_toJson h taken fuel
  | .loop s item index iterations, h, fuel + 1, o, hfuel => by
    -- the records in an iteration are read with what is left of the fuel
    rw [depth_toJson] at hfuel
    dsimp only at hfuel
    exact loop_toJson h (Json.asList?_elements
      (iterationsJson_decode iterations h.2.2.2 fuel (by omega)))

/-- The maps of iterations are read from their documents. -/
theorem iterationsJson_decode : ∀ (iterations : List (List (String × StepRecord))),
    RepresentableAll iterations → ∀ fuel, Json.depthElements (iterationsJson iterations) ≤ fuel →
      List.Forall₂ (fun j steps => Json.asMap? (ofJsonWithin? fuel (.kept true)) j = some steps)
        (iterationsJson iterations) iterations
  | [], _, _, _ => .nil
  | steps :: iterations, h, fuel, hfuel => by
    rw [iterationsJson, Json.depthElements, Nat.max_le, Json.depth] at hfuel
    exact .cons (Json.asMap?_members (membersJson_decode steps h.1.2 fuel (by omega)) h.1.1)
      (iterationsJson_decode iterations h.2 fuel hfuel.2)

/-- The records of a map are read from its members. -/
theorem membersJson_decode : ∀ (steps : List (String × StepRecord)), RepresentableIn steps →
    ∀ fuel, Json.depthMembers (membersJson steps) < fuel →
      List.Forall₂ (EntryOf (ofJsonWithin? fuel (.kept true))) (membersJson steps) steps
  | [], _, _, _ => .nil
  | (name, r) :: steps, h, fuel, hfuel => by
    rw [membersJson, Json.depthMembers, Nat.max_lt] at hfuel
    exact .cons ⟨rfl, ofJsonWithin?_toJson r h.1 fuel (.kept true) hfuel.1⟩
      (membersJson_decode steps h.2 fuel hfuel.2)

end

end StepRecord

/-- A map of records is read from its document, in the same order. -/
theorem StepMap.ofJson?_toJson {steps : StepMap} (h : steps.Representable) :
    StepMap.ofJson? steps.toJson = some steps := by
  have hentries : ∀ steps : StepMap, StepRecord.RepresentableIn steps →
      List.Forall₂ (EntryOf StepRecord.ofJson?) (StepRecord.membersJson steps) steps := by
    intro steps
    induction steps with
    | nil => exact fun _ => .nil
    | cons x steps ih =>
      intro h
      have hrecord := StepRecord.ofJsonWithin?_toJson x.2 h.1 _ .text (Nat.lt_succ_self _)
      exact .cons ⟨rfl, hrecord⟩ (ih h.2)
  exact Json.asMap?_members (hentries steps h.2) h.1

end FlowEngine.Run
