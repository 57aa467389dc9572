import FlowEngine.Proofs.Expr.Documents
import FlowEngine.Proofs.Template.Resolution

/-!
# References

An expression can begin with the name of a step, go through iterations of loops to a step inside, and
end with a path into its output. In the body of a loop, templates refer to the item and the index of the
innermost iteration by names of their own, and to those of every loop around it by the name of the loop.

* `Hop`, `referencePath` — how a reference to an output is written.
* `recordAt?` — the record that is referred to.
* `Reads` — what is read: the part of the output, or null if something is missing on the way.
* `references_read` — references resolve to what they read.
* `Resolves.item`, `Resolves.index` — the innermost iteration.
* `Resolves.itemOf`, `Resolves.indexOf` — the iteration that the record of a loop shows.
* `Resolves.record` — a step as a whole.
-/

namespace FlowEngine.Template

open FlowEngine.Expr FlowEngine.Run
open FlowEngine.Flow (isStepName)

/-! ## References -/

/-- From a loop to a step in one of its iterations. -/
structure Hop where
  iteration : Nat
  step : String
  deriving DecidableEq, Inhabited

/-- A hop in a document: from what is recorded of a loop to what is recorded of the step. -/
def Hop.inside (h : Hop) : List Accessor :=
  [.dot "iterations", .index h.iteration, .dot h.step]

/-- The index of a hop has 128 bits, and its step has the name of one. -/
def Hop.WellFormed (h : Hop) : Prop :=
  h.iteration < 0x100000000000000000000000000000000 ∧ isStepName h.step = true

/-- Hops as they are written, the output of a loop before each. -/
def hopsPath (hops : List Hop) : List Accessor := hops.flatMap fun h => .dot "output" :: h.inside

/-- Hops, and a path into the output of the last step. -/
def referencePath (hops : List Hop) (p : List Accessor) : List Accessor :=
  hopsPath hops ++ .dot "output" :: p

/-- The record of the step of a hop, from the iterations of a loop. -/
def Hop.record? (h : Hop) (its : List StepMap) : Option StepRecord :=
  its[h.iteration]? >>= fun m => m.get? h.step

/-- The record at the end of hops, all of them from loops. -/
def recordAt? : Option StepRecord → List Hop → Option StepRecord
  | r, [] => r
  | some (.loop _ _ _ its), h :: hops => recordAt? (h.record? its) hops
  | _, _ :: _ => none

/-- What is read behind a record that may be missing. -/
inductive Reads : Option StepRecord → List Hop → List Accessor → Json → Prop
  /-- There is no such step. -/
  | missing (hops p) : Reads none hops p .null
  /-- The output of the step has a part at the end of the path, or there is nothing. -/
  | output {v : Json} {p} (s) (canonical : v.Canonical) (plain : ¬ v.IndexesText p) :
    Reads (some (.action s v)) [] p ((v.at? p).getD .null)
  /-- The iteration of a loop may be missing, or the step in it. -/
  | iteration {its : List StepMap} {h : Hop} {hops p j} (s item index)
    (rest : Reads (h.record? its) hops p j) :
    Reads (some (.loop s item index its)) (h :: hops) p j
  /-- Hops from a step that is no loop lead into its output. -/
  | inside {v : Json} {h : Hop} {hops p} (s) (canonical : v.Canonical)
    (plain : ¬ v.IndexesText (h.inside ++ referencePath hops p)) :
    Reads (some (.action s v)) (h :: hops) p ((v.at? (h.inside ++ referencePath hops p)).getD .null)
  /-- A branch has no iterations. -/
  | branch (s holds h hops p) : Reads (some (.branch s holds)) (h :: hops) p .null
  /-- A split has no iterations. -/
  | split (s taken h hops p) : Reads (some (.split s taken)) (h :: hops) p .null

/-- What is read behind a record that is found. -/
theorem Reads.of_recordAt? {s : Summary} {v : Json} {p : List Accessor} (canonical : v.Canonical)
    (plain : ¬ v.IndexesText p) {hops : List Hop} {r : Option StepRecord}
    (h : recordAt? r hops = some (.action s v)) : Reads r hops p ((v.at? p).getD .null) := by
  induction hops generalizing r with
  | nil =>
    cases h
    exact .output s canonical plain
  | cons hop hops ih =>
    cases r with
    | none => cases h
    | some r =>
      cases r with
      | loop summary item index its => exact .iteration summary item index (ih h)
      | action summary output => cases h
      | branch summary holds => cases h
      | split summary taken => cases h

/-! ## Records as values -/

/-- A value in the place of a record: that of the record, or one without an output. -/
def Stands (r : Option StepRecord) (w : Value) : Prop :=
  match r with
  | some r => w = recordValue r
  | none => (Accessor.dot "output").get w = .undefined

theorem lookup_stepValues (steps : StepMap) (name : String) :
    (stepValues steps).lookup name = (steps.get? name).map recordValue := by
  induction steps with
  | nil => rfl
  | cons x steps ih =>
    obtain ⟨k, r⟩ := x
    rw [stepValues, StepMap.get?, List.lookup_cons, List.lookup_cons]
    cases name == k with
    | true => rfl
    | false => exact ih

theorem getElem?_iterationValues (its : List StepMap) (n : Nat) :
    (iterationValues its)[n]? = (its[n]?).map fun m =>
      .record (stepValues m) [] .undefined (StepMap.toJson m).canonical := by
  induction its generalizing n with
  | nil => rfl
  | cons m its ih =>
    cases n with
    | zero => rfl
    | succ n => exact ih n

/-- From the value of a loop a hop leads to that of the step, or to nothing. -/
theorem follow_hop (h : Hop) (s : Summary) (item : Json) (index : Nat) (its : List StepMap) :
    Stands (h.record? its) (follow (recordValue (.loop s item index its)) (.dot "output" :: h.inside)) := by
  have hiteration : follow (recordValue (.loop s item index its))
      [.dot "output", .dot "iterations", .index h.iteration] =
        ((iterationValues its)[h.iteration]?).getD .undefined := by
    change ((Value.at? (iterationValues its) (.int (.ofLiteral h.iteration) h.iteration)).getD
      .undefined) = _
    rw [Value.at?_int]
  change Stands _ ((Accessor.dot h.step).get (follow (recordValue (.loop s item index its))
      [.dot "output", .dot "iterations", .index h.iteration]))
  rw [hiteration, getElem?_iterationValues, Hop.record?]
  cases its[h.iteration]? with
  | none => rfl
  | some m =>
    change Stands (m.get? h.step) (((stepValues m).lookup h.step).or _ |>.getD .undefined)
    rw [lookup_stepValues]
    cases m.get? h.step with
    | none => rfl
    | some r => rfl

theorem follow_append (v : Value) (p q : List Accessor) : follow v (p ++ q) = follow (follow v p) q :=
  List.foldl_append

theorem follow_cons (v : Value) (a : Accessor) (p : List Accessor) :
    follow v (a :: p) = follow (a.get v) p :=
  rfl

theorem referencePath_cons (h : Hop) (hops : List Hop) (p : List Accessor) :
    referencePath (h :: hops) p = .dot "output" :: (h.inside ++ referencePath hops p) := by
  simp [referencePath, hopsPath]

/-- Nothing is under a name in a document that is no object with that name. -/
theorem follow_noMember {j : Json} {name : String} (h : j.member? name = none) (p : List Accessor) :
    follow (.ofJson j) (.dot name :: p) = .undefined := by
  rw [follow_cons, Accessor.get_ofJson (by simp), Accessor.in?, h]
  exact follow_undefined p

/-- What a reference leads to is what it reads. -/
theorem Reads.follow {r : Option StepRecord} {hops : List Hop} {p : List Accessor} {j : Json}
    (h : Reads r hops p j) {w : Value} (hw : Stands r w) :
    (follow w (referencePath hops p)).toJson = j := by
  induction h generalizing w with
  | missing hops p =>
    have hpath : ∃ rest, referencePath hops p = .dot "output" :: rest := by
      cases hops with
      | nil => exact ⟨_, rfl⟩
      | cons h hops => exact ⟨_, referencePath_cons h hops p⟩
    obtain ⟨rest, hrest⟩ := hpath
    rw [hrest, follow_cons, show (Accessor.dot "output").get w = .undefined from hw, follow_undefined]
    rfl
  | output s canonical plain =>
    rw [show w = _ from hw]
    exact Json.toJson_follow canonical plain
  | iteration s item index rest ih =>
    rename_i its h hops p j
    rw [show w = _ from hw, referencePath_cons, ← List.cons_append, follow_append]
    exact ih (follow_hop h s item index its)
  | inside s canonical plain =>
    rw [show w = _ from hw, referencePath_cons]
    exact Json.toJson_follow canonical plain
  | branch s holds h hops p =>
    have hmember : (StepRecord.output (.branch s holds)).member? "iterations" = none := rfl
    have houtput := follow_noMember hmember (.index h.iteration :: .dot h.step :: referencePath hops p)
    rw [show w = _ from hw, referencePath_cons]
    exact congrArg Value.toJson houtput
  | split s taken h hops p =>
    have hmember : (StepRecord.output (.split s taken)).member? "iterations" = none := rfl
    have houtput := follow_noMember hmember (.index h.iteration :: .dot h.step :: referencePath hops p)
    rw [show w = _ from hw, referencePath_cons]
    exact congrArg Value.toJson houtput

/-! ## Names in scope -/

section

variable {scope : Scope} {now : Time.Instant} {root : String}

/-- In a scope the name of a step stands for its innermost record. -/
theorem value?_of_ne (hitem : root ≠ "item") (hindex : root ≠ "index") :
    scope.value? root = (scope.step? root).map recordValue := by
  unfold Scope.value?
  split
  · exact absurd rfl hitem
  · exact absurd rfl hindex
  · rfl

/-- A name without a record is a function or nothing, and neither has an output. -/
theorem stands_value (hitem : root ≠ "item") (hindex : root ≠ "index") :
    Stands (scope.step? root) ((scope.names now).value root) := by
  have hlookup : (scope.names now).lookup root = (scope.step? root).map recordValue :=
    value?_of_ne hitem hindex
  rw [Names.value, hlookup]
  cases scope.step? root with
  | some r => rfl
  | none =>
    rw [Option.map_none]
    dsimp only
    cases Function.named? root with
    | none => rfl
    | some f => rfl

theorem constant?_of_keywords (h : root ∉ keywords) : constant? root = none := by
  unfold constant?
  split
  all_goals first | rfl | exact absurd (by decide) h

end

/-! ## Paths in tokens -/

section

variable {root : String} {path : List Accessor} {a : Accessor} {c : Char}

theorem mem_chars_name (h : isStepName root = true) (hc : c ∈ root.toList) : inName c = true := by
  obtain ⟨d, ds, hn, -, hall⟩ := exists_of_isStepName h
  exact hall c (hn ▸ hc)

/-- No part of a path has a brace that closes a token. -/
theorem brace_not_mem_chars (ha : a.WellFormed) : '\x7d' ∉ a.chars := by
  intro hbrace
  cases a with
  | dot name =>
    rcases List.mem_cons.mp hbrace with h | h
    · cases h
    · exact absurd (mem_chars_name ha h) (by decide)
  | key name =>
    simp only [Accessor.chars, List.cons_append, List.mem_cons, List.mem_append, List.mem_flatMap,
      List.not_mem_nil, or_false] at hbrace
    rcases hbrace with h | h | (⟨d, -, h⟩ | h) | h
    · cases h
    · cases h
    · unfold escapeKey at h
      split_ifs at h with h₁ h₂ h₃ h₄
      · exact absurd h (by decide)
      · exact absurd h (by decide)
      · exact absurd h (by decide)
      · exact absurd h (by decide)
      · exact h₄ (List.mem_singleton.mp h).symm
    · cases h
    · cases h
  | index n =>
    have hds : Json.Digits (Nat.toDigits 10 n) := .toDigits n
    rcases List.mem_cons.mp hbrace with h | h
    · cases h
    · rcases List.mem_append.mp h with h | h
      · exact absurd (hds _ h) (by decide)
      · exact absurd (List.mem_singleton.mp h) (by decide)

theorem brace_not_mem_pathText (hroot : isStepName root = true) (hpath : ∀ a ∈ path, a.WellFormed) :
    '\x7d' ∉ (pathText root path).toList := by
  intro hbrace
  rw [pathText, String.toList_ofList, List.mem_append, pathChars, List.mem_flatMap] at hbrace
  rcases hbrace with h | ⟨a, ha, h⟩
  · exact absurd (mem_chars_name hroot h) (by decide)
  · exact brace_not_mem_chars (hpath a ha) h

/-- The last character of a path is no blank. -/
theorem getLast?_pathChars (hpath : ∀ a ∈ path, a.WellFormed) :
    ∀ d ∈ (pathChars path).getLast?, Text.isBlank d = false := by
  intro d hd
  induction path using List.reverseRecOn with
  | nil => cases hd
  | append_singleton path a =>
    have ha : a.WellFormed := hpath a (by simp)
    rw [pathChars, List.flatMap_append, List.flatMap_singleton] at hd
    cases a with
    | dot name =>
      obtain ⟨c, cs, hn, -, hall⟩ := exists_of_isStepName ha
      rw [Accessor.chars, hn, List.getLast?_append_of_ne_nil _ (by simp), List.getLast?_cons_cons] at hd
      exact isBlank_of_inName (hall d (List.mem_of_getLast? hd))
    | key name =>
      rw [Accessor.chars, ← List.cons_append, List.getLast?_append_of_ne_nil _ (by simp),
        List.getLast?_concat] at hd
      cases hd
      rfl
    | index n =>
      rw [Accessor.chars, ← List.cons_append, List.getLast?_append_of_ne_nil _ (by simp),
        List.getLast?_concat] at hd
      cases hd
      rfl

/-- Trimming leaves a text that neither begins nor ends with a blank. -/
theorem trim_of_ends {cs : List Char} (hfirst : ∀ c ∈ cs.head?, Text.isBlank c = false)
    (hlast : ∀ c ∈ cs.getLast?, Text.isBlank c = false) : Text.trim cs = cs := by
  have hdrop (l : List Char) (hl : ∀ c ∈ l.head?, Text.isBlank c = false) :
      l.dropWhile Text.isBlank = l := by
    cases l with
    | nil => rfl
    | cons c l => exact List.dropWhile_cons_of_neg (by simp [hl c (by simp)])
  have hend : cs.reverse.dropWhile Text.isBlank = cs.reverse :=
    hdrop _ (by rwa [List.head?_reverse])
  rw [Text.trim, Text.trimStart, hdrop cs hfirst, Text.trimEnd, hend, List.reverse_reverse]

/-- A path has no blanks around it. -/
theorem trimText_pathText (hroot : isStepName root = true) (hpath : ∀ a ∈ path, a.WellFormed) :
    Text.trimText (pathText root path) = pathText root path := by
  obtain ⟨c, cs, hn, -, hall⟩ := exists_of_isStepName hroot
  have htrim : Text.trim (root.toList ++ pathChars path) = root.toList ++ pathChars path := by
    refine trim_of_ends ?_ ?_
    · intro d hd
      rw [hn] at hd
      cases hd
      exact isBlank_of_inName (hall c List.mem_cons_self)
    · intro d hd
      rw [List.getLast?_append] at hd
      cases hlast : (pathChars path).getLast? with
      | some x =>
        rw [hlast] at hd
        exact getLast?_pathChars hpath d (hlast ▸ hd)
      | none =>
        rw [hlast, hn] at hd
        exact isBlank_of_inName (hall d (List.mem_of_getLast? hd))
  rw [Text.trimText, pathText, String.toList_ofList, htrim]

/-- A path as an expression has the value that it leads to. -/
theorem evaluate_pathText (names : Names) (hroot : isStepName root = true) (hkeyword : root ∉ keywords)
    (hpath : ∀ a ∈ path, a.WellFormed) :
    evaluate names (pathText root path) = .ok (follow (names.value root) path).toJson := by
  have hne : pathText root path ≠ "" := by
    intro hempty
    obtain ⟨c, cs, hn, -⟩ := exists_of_isStepName hroot
    have hlist := congrArg String.toList hempty
    rw [pathText, String.toList_ofList, hn] at hlist
    cases hlist
  have hnot : root ≠ "not" := by
    rintro rfl
    exact hkeyword (by decide)
  have hread : readTerm (pathText root path) = .ok (pathTerm root path) := by
    rw [readTerm, read_path hroot (constant?_of_keywords hkeyword) hnot hpath]
    rfl
  have hvalue : valueOf names (pathText root path) = .ok (follow (names.value root) path) := by
    rw [valueOf, hread]
    change ((pathTerm root path).eval names).mapError _ = _
    rw [eval_path]
    rfl
  rw [evaluate, trimText_pathText hroot hpath]
  simp only [if_neg hne, hvalue]
  rfl

/-- A path as a token resolves to what it leads to. -/
theorem resolve_pathText (names : Names) (hroot : isStepName root = true) (hkeyword : root ∉ keywords)
    (hpath : ∀ a ∈ path, a.WellFormed) :
    resolve names (.str (tokenText (pathText root path))) =
      .ok (follow (names.value root) path).toJson := by
  rw [resolve, resolveText_tokenText (brace_not_mem_pathText hroot hpath),
    evaluate_pathText names hroot hkeyword hpath]

end

/-! ## References -/

section

variable {scope : Scope} {now : Time.Instant} {root : String} {hops : List Hop} {p : List Accessor}

theorem wellFormed_hopsPath (hhops : ∀ h ∈ hops, h.WellFormed) : ∀ a ∈ hopsPath hops, a.WellFormed := by
  intro a ha
  obtain ⟨h, hmem, ha⟩ := List.mem_flatMap.mp ha
  obtain ⟨hiteration, hstep⟩ := hhops h hmem
  simp only [Hop.inside, List.mem_cons, List.not_mem_nil, or_false] at ha
  rcases ha with rfl | rfl | rfl | rfl
  · exact (by decide : isStepName "output" = true)
  · exact (by decide : isStepName "iterations" = true)
  · exact hiteration
  · exact hstep

theorem wellFormed_append {path path' : List Accessor} (h : ∀ a ∈ path, a.WellFormed)
    (h' : ∀ a ∈ path', a.WellFormed) : ∀ a ∈ path ++ path', a.WellFormed := by
  intro a ha
  rcases List.mem_append.mp ha with ha | ha
  · exact h a ha
  · exact h' a ha

theorem wellFormed_referencePath (hhops : ∀ h ∈ hops, h.WellFormed) (hp : ∀ a ∈ p, a.WellFormed) :
    ∀ a ∈ referencePath hops p, a.WellFormed := by
  refine wellFormed_append (wellFormed_hopsPath hhops) ?_
  intro a ha
  rcases List.mem_cons.mp ha with rfl | ha
  · exact (by decide : isStepName "output" = true)
  · exact hp a ha

/-- Hops lead to the record at their end. -/
theorem stands_hopsPath {r : Option StepRecord} {w : Value} (hw : Stands r w) {found : StepRecord}
    (h : recordAt? r hops = some found) : follow w (hopsPath hops) = recordValue found := by
  induction hops generalizing r w with
  | nil =>
    cases h
    exact hw
  | cons hop hops ih =>
    cases r with
    | none => cases h
    | some r =>
      cases r with
      | loop s item index its =>
        have hpath : hopsPath (hop :: hops) = (.dot "output" :: hop.inside) ++ hopsPath hops := rfl
        rw [hpath, follow_append]
        rw [show w = _ from hw]
        exact ih (follow_hop hop s item index its) h
      | action s v => cases h
      | branch s holds => cases h
      | split s taken => cases h

/-- The names of the fields that every record lists. -/
def listedNames : List String := ["output", "input", "status", "errorMessage", "duration"]

/-- A path that begins with no field of a record. -/
def Unlisted : List Accessor → Prop
  | .dot name :: _ | .key name :: _ => name ∉ listedNames
  | _ => True

/-- What is not defined reads like what is missing. -/
theorem getD_filter_isDefined (o : Option Value) :
    (o.filter Value.isDefined).getD .undefined = o.getD .undefined := by
  cases o with
  | none => rfl
  | some v => cases v <;> rfl

/-- A record passes lookups of other names than those of its fields on to what is in it. -/
theorem item?_unlisted {name : String} (h : name ∉ listedNames) (s : Summary) (output inner : Value)
    (json : Json) : ((Value.record (listedFields s output) [] inner json).item? (.str name)).getD
      .undefined = (inner.item? (.str name)).getD .undefined := by
  have hlisted : (listedFields s output).lookup name = none := by
    simp only [listedNames, List.mem_cons, List.not_mem_nil, or_false, not_or] at h
    simp [listedFields, h]
  rw [Value.item?, hlisted, List.lookup_nil, Option.none_or, Option.none_or, getD_filter_isDefined]

/-- What is no field of a record of an action is looked up in its output. -/
theorem get_record {a : Accessor} (h : Unlisted [a]) (s : Summary) (v : Json) :
    a.get (recordValue (.action s v)) = a.get (.ofJson v) := by
  cases a with
  | dot name =>
    have hmap : (Value.ofJson v).field? name = (Value.ofJson v).item? (.str name) := by
      cases v <;> rfl
    rw [Accessor.get, Accessor.get, hmap]
    exact item?_unlisted h s _ (.ofJson v) v
  | key name => exact item?_unlisted h s _ (.ofJson v) v
  | index n => exact getD_filter_isDefined _

/-- Behind a step, and not behind a field of its record, a path leads into its output. -/
theorem follow_record (h : Unlisted p) (s : Summary) {v : Json} (canonical : v.Canonical) :
    (follow (recordValue (.action s v)) p).toJson =
      (follow (recordValue (.action s v)) (.dot "output" :: p)).toJson := by
  have houtput : (Accessor.dot "output").get (recordValue (.action s v)) = .ofJson v := rfl
  rw [follow_cons, houtput]
  cases p with
  | nil => exact (toJson_recordValue (.action s v)).trans (Value.toJson_ofJson v canonical).symm
  | cons a p =>
    have ha : Unlisted [a] := by cases a <;> exact h
    rw [follow_cons, get_record ha, follow_cons]

/-- In any scope a reference resolves without an error. Behind a step of an action that is found in the
scope or in iterations of loops, it gives the part of the output at the end of the path, or null; it
gives null as well if a step, an iteration or a part is missing on the way. Unless the path begins with
a field of records, `output` before it can be left out. -/
theorem references_read (scope : Scope) (now : Time.Instant) {root : String} {hops : List Hop}
    {p : List Accessor} (hroot : isStepName root = true) (hkeyword : root ∉ keywords)
    (hitem : root ≠ "item") (hindex : root ≠ "index") (hhops : ∀ h ∈ hops, h.WellFormed)
    (hp : ∀ a ∈ p, a.WellFormed) :
    (∃ j, resolve (scope.names now) (.str (tokenText (pathText root (referencePath hops p)))) = .ok j) ∧
    (∀ s v, recordAt? (scope.step? root) hops = some (.action s v) → v.Canonical →
      (¬ v.IndexesText p →
        resolve (scope.names now) (.str (tokenText (pathText root (referencePath hops p)))) =
          .ok ((v.at? p).getD .null)) ∧
      (Unlisted p →
        resolve (scope.names now) (.str (tokenText (pathText root (hopsPath hops ++ p)))) =
          resolve (scope.names now) (.str (tokenText (pathText root (referencePath hops p)))))) ∧
    ∀ j, Reads (scope.step? root) hops p j →
      resolve (scope.names now) (.str (tokenText (pathText root (referencePath hops p)))) = .ok j := by
  have hstands : Stands (scope.step? root) ((scope.names now).value root) := stands_value hitem hindex
  have hfull := resolve_pathText (scope.names now) hroot hkeyword (wellFormed_referencePath hhops hp)
  have hreads (j : Json) (h : Reads (scope.step? root) hops p j) :
      resolve (scope.names now) (.str (tokenText (pathText root (referencePath hops p)))) = .ok j := by
    rw [hfull, h.follow hstands]
  refine ⟨⟨_, hfull⟩, fun s v hrecord canonical => ⟨fun plain => ?_, fun unlisted => ?_⟩, hreads⟩
  · exact hreads _ (.of_recordAt? canonical plain hrecord)
  · have hshort := resolve_pathText (scope.names now) hroot hkeyword
      (wellFormed_append (wellFormed_hopsPath hhops) hp)
    have hrecord := stands_hopsPath hstands hrecord
    rw [hshort, hfull, referencePath, follow_append, follow_append, hrecord,
      follow_record unlisted s canonical]

end

/-! ## An example -/

/-- What a page holds. -/
def pageOutput : Json := .obj [("lines", .arr [.int 3, .str "end"])]

/-- The scope behind a loop over chapters, in the first of which a page was read. -/
def bookScope : Scope :=
  .ofSteps [("book", .loop ⟨.succeeded, .null, none, none⟩ (.str "one") 0
    [[("page", .action ⟨.succeeded, .obj [], none, none⟩ pageOutput)]])]

/-- To the page of a chapter. -/
def pageOf (chapter : Nat) : List Hop := [⟨chapter, "page"⟩]

/-- To a line of a page. -/
def lineOf (n : Nat) : List Accessor := [.dot "lines", .index n]

/-- A line is found with or without `output` before it, and in a chapter that is missing it is null. -/
theorem book_read :
    pathText "book" (referencePath (pageOf 0) (lineOf 1)) =
      "book.output.iterations[0].page.output.lines[1]" ∧
    resolve (bookScope.names ⟨0, 0⟩)
      (.str (tokenText (pathText "book" (referencePath (pageOf 0) (lineOf 1))))) = .ok (.str "end") ∧
    resolve (bookScope.names ⟨0, 0⟩)
      (.str (tokenText (pathText "book" (hopsPath (pageOf 0) ++ lineOf 1)))) = .ok (.str "end") ∧
    resolve (bookScope.names ⟨0, 0⟩)
      (.str (tokenText (pathText "book" (referencePath (pageOf 7) (lineOf 1))))) = .ok .null := by
  have hbook : isStepName "book" = true ∧ "book" ∉ keywords := by decide
  have hlines : ∀ a ∈ lineOf 1, a.WellFormed := by decide
  have hpage (chapter : Nat) (h : chapter < 8) : ∀ h ∈ pageOf chapter, h.WellFormed := by
    intro hop hmem
    cases List.mem_singleton.mp hmem
    have hname : isStepName "page" = true := by decide
    exact ⟨Nat.lt_trans h (by decide), hname⟩
  have hcanonical : pageOutput.Canonical := by
    simp [pageOutput, Json.Canonical, Json.CanonicalMembers, Json.CanonicalElements, Json.InRange]
  have hplain : ¬ pageOutput.IndexesText (lineOf 1) := by
    simp [pageOutput, lineOf, Json.IndexesText, Accessor.in?, Json.member?]
  have hunlisted : "lines" ∉ listedNames := by decide
  obtain ⟨-, hfound, -⟩ := references_read bookScope ⟨0, 0⟩ hbook.1 hbook.2 (by decide) (by decide)
    (hpage 0 (by decide)) hlines
  obtain ⟨-, -, hmissing⟩ := references_read bookScope ⟨0, 0⟩ hbook.1 hbook.2 (by decide) (by decide)
    (hpage 7 (by decide)) hlines
  obtain ⟨hfull, hshort⟩ := hfound _ _ rfl hcanonical
  have hend := hfull hplain
  refine ⟨by decide +kernel, hend, ?_, hmissing _ (.iteration _ _ _ (.missing _ _))⟩
  rw [hshort hunlisted]
  exact hend

/-- The scope behind a step with a list. -/
def listScope : Scope := .ofSteps [("s", .action ⟨.succeeded, .obj [], none, none⟩ (.arr [.int 1]))]

/-- A part of a list whose index has more than 128 bits is not null but an error. -/
theorem wide_index_fails : ¬ ∀ n,
    resolve (listScope.names ⟨0, 0⟩) (.str (tokenText (pathText "s" [.dot "output", .index n]))) =
      .ok (((Json.arr [.int 1]).at? [.index n]).getD .null) := by
  intro h
  have hn := h 0x100000000000000000000000000000000
  have htext : pathText "s" [.dot "output", .index 0x100000000000000000000000000000000] =
      "s.output[340282366920938463463374607431768211456]" := by decide +kernel
  have hread : (readTerm "s.output[340282366920938463463374607431768211456]").toOption = none := by
    decide +kernel
  have htrim : Text.trimText "s.output[340282366920938463463374607431768211456]" =
      "s.output[340282366920938463463374607431768211456]" := by decide +kernel
  rw [htext, resolve, resolveText_tokenText (by decide +kernel), evaluate, htrim,
    if_neg (by decide +kernel), valueOf] at hn
  cases hterm : readTerm "s.output[340282366920938463463374607431768211456]" with
  | error f => rw [hterm] at hn; cases hn
  | ok e => rw [hterm] at hread; cases hread

/-! ## References to loops -/

/-- A name with a path resolves to a document. -/
def Resolves (names : Names) (root : String) (path : List Accessor) (j : Json) : Prop :=
  resolve names (.str (tokenText (pathText root path))) = .ok j

/-- A name of a step: it is no other name in a scope, and none of the language. -/
structure Nameable (root : String) : Prop where
  name : isStepName root = true
  keyword : root ∉ keywords
  item : root ≠ "item"
  index : root ≠ "index"

variable {scope : Scope} {now : Time.Instant} {root : String} {path : List Accessor} {c : Cursor}
  {r : StepRecord} {s : Summary} {j : Json} {n : Nat} {its : List StepMap}

theorem toJson_ofNat (h : n < 0x10000000000000000) : (Value.ofNat n).toJson = .int n := by
  have hrange : Json.InRange n := ⟨by omega, by omega⟩
  rw [Value.ofNat, Value.toJson, Value.intJson, if_pos hrange]

/-- A name in scope gives what its value leads to. -/
theorem Resolves.of_lookup {v : Value} (hroot : isStepName root = true)
    (hkeyword : root ∉ keywords) (hpath : ∀ a ∈ path, a.WellFormed) (hv : scope.value? root = some v)
    (hj : (follow v path).toJson = j) : Resolves (scope.names now) root path j := by
  have hvalue : (scope.names now).value root = v := by
    have hlookup : (scope.names now).lookup root = some v := hv
    rw [Names.value, hlookup]
  rw [Resolves, resolve_pathText _ hroot hkeyword hpath, hvalue, hj]

/-! ## The innermost iteration -/

theorem Resolves.item (hc : scope.cursor? = some c) (h : c.item.Canonical) :
    Resolves (scope.names now) "item" [] c.item := by
  have hvalue : scope.value? "item" = some (.ofJson c.item) := by
    unfold Scope.value?
    rw [hc]
    rfl
  exact .of_lookup (by decide) (by decide) (by simp) hvalue (Value.toJson_ofJson _ h)

theorem Resolves.index (hc : scope.cursor? = some c) (h : c.index < 0x10000000000000000) :
    Resolves (scope.names now) "index" [] (.int c.index) := by
  have hvalue : scope.value? "index" = some (.ofNat c.index) := by
    unfold Scope.value?
    rw [hc]
    rfl
  exact .of_lookup (by decide) (by decide) (by simp) hvalue (toJson_ofNat h)

/-! ## Steps -/

/-- A step that is seen gives its output. -/
theorem Resolves.record (hroot : Nameable root) (hr : scope.step? root = some r) :
    Resolves (scope.names now) root [] r.output := by
  have hvalue : scope.value? root = some (recordValue r) := by
    rw [value?_of_ne hroot.item hroot.index, hr]
    rfl
  exact .of_lookup hroot.name hroot.keyword (by simp) hvalue (toJson_recordValue r)

/-- A loop passes lookups of other names than those of its fields on to its output. -/
theorem get_loop {name : String} (h : name ∉ listedNames) (s : Summary) (j : Json) (n : Nat)
    (its : List StepMap) : (Accessor.dot name).get (recordValue (.loop s j n its)) =
      follow (recordValue (.loop s j n its)) [.dot "output", .dot name] := by
  rw [recordValue]
  exact item?_unlisted h s _ _ (StepRecord.loop s j n its).output

/-- Behind the name of a loop that is seen stands the item that its record shows. -/
theorem Resolves.itemOf (hroot : Nameable root) (hr : scope.step? root = some (.loop s j n its))
    (h : j.Canonical) : Resolves (scope.names now) root [.dot "item"] j := by
  have hvalue : scope.value? root = some (recordValue (.loop s j n its)) := by
    rw [value?_of_ne hroot.item hroot.index, hr]
    rfl
  have hname : "item" ∉ listedNames := by decide
  have hitem : follow (recordValue (.loop s j n its)) [.dot "item"] = .ofJson j :=
    (get_loop hname s j n its).trans rfl
  refine .of_lookup hroot.name hroot.keyword (by decide) hvalue ?_
  rw [hitem, Value.toJson_ofJson j h]

/-- Behind the name of a loop that is seen stands the index that its record shows. -/
theorem Resolves.indexOf (hroot : Nameable root) (hr : scope.step? root = some (.loop s j n its))
    (h : n < 0x10000000000000000) : Resolves (scope.names now) root [.dot "index"] (.int n) := by
  have hvalue : scope.value? root = some (recordValue (.loop s j n its)) := by
    rw [value?_of_ne hroot.item hroot.index, hr]
    rfl
  have hname : "index" ∉ listedNames := by decide
  have hindex : follow (recordValue (.loop s j n its)) [.dot "index"] = .ofNat n :=
    (get_loop hname s j n its).trans rfl
  refine .of_lookup hroot.name hroot.keyword (by decide) hvalue ?_
  rw [hindex, toJson_ofNat h]

end FlowEngine.Template
