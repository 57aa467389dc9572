import FlowEngine.Proofs.Expr.Names
import FlowEngine.Template.Condition
import Mathlib.Data.List.DropRight
import Mathlib.Data.List.Induction

/-!
# Truth of expressions

A template writes the value of an expression as a document; a condition asks whether the value itself
counts as true. These are two ways to look at one value, and they do not always agree.

* `Json.isTrue` — whether a document counts as true.
* `Value.Strays` — the values that do not count as their documents do; `Value.isTrue_eq_iff`.
* `recordValue_strays` — among records, those of actions whose output does not count as true.
* `expression_truth` — an expression counts as its document does unless its value strays; a condition
  that names a step holds whatever the output of the step is.
-/

namespace FlowEngine

/-! ## Truth of documents -/

namespace Json

/-- Whether a document counts as true: all do but null, false, zero, and what is empty. -/
def isTrue : Json → Bool
  | null => false
  | bool b => b
  | int i => i != 0
  | float x => !x.isZero
  | str s => s != ""
  | arr elements => !elements.isEmpty
  | obj members => !members.isEmpty

theorem insertMember_ne_nil (name : String) (value : Json) (members : List (String × Json)) :
    insertMember name value members ≠ [] := by
  cases members with
  | nil => simp [insertMember]
  | cons m members => rw [insertMember]; split_ifs <;> simp

theorem sortMembers_eq_nil {members : List (String × Json)} :
    sortMembers members = [] ↔ members = [] := by
  refine ⟨fun h => ?_, by rintro rfl; rfl⟩
  cases members using List.reverseRecOn with
  | nil => rfl
  | append_singleton members m =>
    rw [sortMembers, List.foldl_append] at h
    exact absurd h (insertMember_ne_nil _ _ _)

theorem isEmpty_sortMembers (members : List (String × Json)) :
    (sortMembers members).isEmpty = members.isEmpty := by
  rw [Bool.eq_iff_iff, List.isEmpty_iff, List.isEmpty_iff, sortMembers_eq_nil]

theorem isEmpty_canonicalMembers (members : List (String × Json)) :
    (canonicalMembers members).isEmpty = members.isEmpty := by
  cases members <;> rfl

end Json

/-! ## Truth of values -/

namespace Expr.Value

/-- The values that do not count as their documents do: numbers that no document can hold, sequences
of unknown length without an item, and records whose document is empty while they list fields, or
the other way round. -/
def Strays : Value → Prop
  | int _ i => ¬ Json.InRange i
  | float x => x.isFinite = false
  | lazySeq sized items => sized = false ∧ items = []
  | record listed _ _ json => json.isTrue = listed.isEmpty
  | _ => False

theorem isEmpty_toElements (items : List Value) : (toElements items).isEmpty = items.isEmpty := by
  cases items <;> rfl

theorem isEmpty_toMembers (entries : List (Value × Value)) :
    (toMembers entries).isEmpty = entries.isEmpty := by
  cases entries <;> rfl

theorem isFinite_of_isZero {x : Binary64} (h : x.isZero = true) : x.isFinite = true := by
  simp only [Binary64.isZero, decide_eq_true_eq] at h
  simp [Binary64.isFinite, h, Binary64.infinityBits]

/-- A value counts as its document does unless it strays. -/
theorem isTrue_eq_iff (v : Value) : v.isTrue = v.toJson.isTrue ↔ ¬ v.Strays := by
  cases v with
  | int w i =>
    by_cases hi : Json.InRange i
    · rw [toJson, intJson, if_pos hi]
      simp [isTrue, Json.isTrue, Strays, hi]
    · have hne : i ≠ 0 := by rintro rfl; exact hi (by decide)
      rw [toJson, intJson, if_neg hi]
      simp [isTrue, Json.isTrue, Strays, hi, hne]
  | float x =>
    cases hx : x.isFinite with
    | true => simp [isTrue, toJson, floatJson, hx, Json.isTrue, Strays]
    | false =>
      have hne : x.isZero = false :=
        Bool.eq_false_iff.mpr fun h => by rw [isFinite_of_isZero h] at hx; cases hx
      simp [isTrue, toJson, floatJson, hx, Json.isTrue, Strays, hne]
  | lazySeq sized items =>
    rw [isTrue, toJson, Json.isTrue, isEmpty_toElements, Strays]
    cases sized <;> cases items <;> simp
  | record listed hidden inner json =>
    rw [isTrue, toJson, Strays]
    cases json.isTrue <;> cases listed <;> simp
  | seq items => simp [isTrue, toJson, Json.isTrue, isEmpty_toElements, Strays]
  | map entries =>
    simp [isTrue, toJson, Json.isTrue, Json.isEmpty_sortMembers, isEmpty_toMembers, Strays]
  | function f => cases f <;> simp [isTrue, toJson, functionText, Json.isTrue, Strays]
  | undefined => simp [isTrue, toJson, Json.isTrue, Strays]
  | none => simp [isTrue, toJson, Json.isTrue, Strays]
  | bool b => simp [isTrue, toJson, Json.isTrue, Strays]
  | str s => simp [isTrue, toJson, Json.isTrue, Strays]

/-- A document that can stand in a run does not stray. -/
theorem not_strays_ofJson {j : Json} (h : j.Canonical) : ¬ (ofJson j).Strays := by
  cases j with
  | int i => exact not_not_intro (h : Json.InRange i)
  | float x =>
    have h : x.isFinite = true := h
    simp [ofJson, Strays, h]
  | null => exact id
  | bool b => exact id
  | str s => exact id
  | arr elements => exact id
  | obj members => exact id

end Expr.Value

namespace Template

open FlowEngine.Expr FlowEngine.Run
open FlowEngine.Flow (isStepName ConditionSet ConditionSet.isEmpty)

/-! ## Truth of records -/

/-- The output of a step that is no action has members. -/
theorem isTrue_output_of_ne_action {r : StepRecord} (h : ∀ s output, r ≠ .action s output) :
    r.output.isTrue = true := by
  cases r with
  | action s output => exact absurd rfl (h s output)
  | branch s holds => rfl
  | split s taken => rfl
  | loop s item index iterations =>
    rw [StepRecord.output, StepRecord.loopJson, Json.canonical, Json.isTrue,
      Json.isEmpty_sortMembers, Json.isEmpty_canonicalMembers]
    rfl

theorem isTrue_recordValue (r : StepRecord) : (recordValue r).isTrue = true := by
  cases r <;> rfl

theorem toJson_recordValue (r : StepRecord) : (recordValue r).toJson = r.output := by
  cases r <;> rfl

theorem strays_iff_of_record (r : StepRecord) : (recordValue r).Strays ↔ r.output.isTrue = false := by
  have h := Value.isTrue_eq_iff (recordValue r)
  rw [isTrue_recordValue, toJson_recordValue] at h
  cases hr : r.output.isTrue <;> simp_all

/-- The records that stray are those of actions whose output does not count as true. -/
theorem recordValue_strays (r : StepRecord) :
    (recordValue r).Strays ↔ ∃ s output, r = .action s output ∧ output.isTrue = false := by
  rw [strays_iff_of_record]
  refine ⟨fun h => ?_, ?_⟩
  · by_contra hno
    have hne : ∀ s output, r ≠ .action s output := fun s output hr =>
      hno ⟨s, output, hr, by rw [hr] at h; exact h⟩
    rw [isTrue_output_of_ne_action hne] at h
    cases h
  · rintro ⟨s, output, rfl, h⟩
    exact h

theorem membersJson_isEmpty (steps : StepMap) :
    (StepRecord.membersJson steps).isEmpty = steps.isEmpty := by
  cases steps <;> rfl

/-- What an iteration of a loop has recorded does not stray. -/
theorem not_strays_iteration {iterations : List StepMap} {v : Value}
    (h : v ∈ iterationValues iterations) : ¬ v.Strays := by
  induction iterations with
  | nil => cases h
  | cons steps rest ih =>
    rw [iterationValues, List.mem_cons] at h
    rcases h with rfl | h
    · rw [Value.Strays, StepMap.toJson, Json.canonical, Json.isTrue, Json.isEmpty_sortMembers,
        Json.isEmpty_canonicalMembers, membersJson_isEmpty]
      cases steps <;> simp [stepValues]
    · exact ih h

/-- The output of a loop does not stray. -/
theorem not_strays_output (s : Summary) (item : Json) (index : Nat) (iterations : List StepMap) :
    ∃ v, (recordValue (.loop s item index iterations)).field? "output" = some v ∧
      v.toJson = (StepRecord.loop s item index iterations).output ∧ ¬ v.Strays := by
  refine ⟨_, rfl, rfl, ?_⟩
  have htrue : (StepRecord.loop s item index iterations).output.isTrue = true :=
    isTrue_output_of_ne_action fun _ _ h => by cases h
  simp [Value.Strays, htrue]

/-! ## Trimming -/

section

variable {cs : List Char}

theorem trimEnd_trimEnd (cs : List Char) : Text.trimEnd (Text.trimEnd cs) = Text.trimEnd cs := by
  rw [Text.trimEnd, Text.trimEnd, List.reverse_reverse, List.dropWhile_idempotent]

/-- Trimming the end leaves the first character, if any is left. -/
theorem trimStart_trimEnd (h : Text.trimStart cs = cs) :
    Text.trimStart (Text.trimEnd cs) = Text.trimEnd cs := by
  cases cs with
  | nil => rfl
  | cons c cs =>
    have hc : Text.isBlank c = false := by
      by_contra hblank
      have := List.length_dropWhile_le Text.isBlank cs
      rw [Text.trimStart, List.dropWhile_cons_of_pos (by simpa using hblank)] at h
      have := congrArg List.length h
      simp at this
      omega
    rw [Text.trimEnd, List.reverse_cons, List.dropWhile_append]
    split
    · simp [Text.trimStart, hc]
    · simp [Text.trimStart, hc]

theorem trim_trim (cs : List Char) : Text.trim (Text.trim cs) = Text.trim cs := by
  have h : Text.trimStart (Text.trimStart cs) = Text.trimStart cs :=
    List.dropWhile_idempotent _ _
  rw [Text.trim, Text.trim, trimStart_trimEnd h, trimEnd_trimEnd]

theorem trim_eq_self (h : ∀ c ∈ cs, Text.isBlank c = false) : Text.trim cs = cs := by
  have hstart : Text.trimStart cs = cs := List.dropWhile_eq_self_iff.mpr fun hl => by simp [h]
  have hend : cs.reverse.dropWhile Text.isBlank = cs.reverse :=
    List.dropWhile_eq_self_iff.mpr fun hl =>
      Bool.not_eq_true _ ▸ h _ (List.mem_reverse.mp (List.getElem_mem hl))
  rw [Text.trim, hstart, Text.trimEnd, hend, List.reverse_reverse]

end

/-! ## Truth of expressions -/

/-- The value of an expression without braces; the empty one has none. -/
def expressionValue (names : Names) (expression : String) : Except Failure Value :=
  let e := Text.trimText expression
  if e = "" then .ok .none else valueOf names e

/-- No braces stand around an expression. -/
def Bare (expression : String) : Prop := onlyToken? (Text.trim expression.toList) = none

instance (expression : String) : Decidable (Bare expression) := inferInstanceAs (Decidable (_ = _))

variable {names : Names} {e n : String} {j : Json}

theorem evaluate_eq (names : Names) (e : String) :
    evaluate names e = (expressionValue names e).map Value.toJson := by
  simp only [evaluate, expressionValue]
  split_ifs <;> rfl

theorem evaluateBool_eq (names : Names) (h : Bare e) :
    evaluateBool names e = (expressionValue names e).map Value.isTrue := by
  have htext : conditionText e = Text.trimText e := by
    rw [conditionText, h, Option.getD_none, expressionOf, trim_trim, Text.trimText]
  simp only [evaluateBool, expressionValue, htext]
  split_ifs <;> rfl

/-! ## Names of steps -/

theorem cut?_of_not_mem {d : Char} {ds cs : List Char} (h : d ∉ cs) : Text.cut? (d :: ds) cs = none := by
  induction cs with
  | nil => rfl
  | cons c cs ih =>
    rw [List.mem_cons, not_or] at h
    rw [Text.cut?, if_neg (by simp [List.isPrefixOf, h.1]), ih h.2]
    rfl

theorem pieces_of_not_mem {cs : List Char} (h : '\x7b' ∉ cs) : pieces cs = plainPiece cs := by
  cases cs with
  | nil => rfl
  | cons c cs =>
    rw [pieces, List.length_cons, piecesWithin, cutToken?, opening, cut?_of_not_mem h]
    rfl

theorem bare_of_not_mem (h : '\x7b' ∉ Text.trim e.toList) : Bare e := by
  rw [Bare, onlyToken?, pieces_of_not_mem h, plainPiece]
  split_ifs <;> rfl

/-- No character of a name is a blank. -/
theorem isBlank_of_inName {c : Char} (h : inName c = true) : Text.isBlank c = false := by
  have hrange := range_of_inName h
  refine Bool.eq_false_iff.mpr fun hblank => ?_
  simp only [Text.isBlank, Text.inIntervals, List.any_cons, List.any_nil, Bool.or_false,
    Bool.or_eq_true, Bool.and_eq_true, decide_eq_true_eq] at hblank
  omega

theorem trim_of_isStepName (h : isStepName n = true) : Text.trim n.toList = n.toList := by
  obtain ⟨c, cs, hn, -, hall⟩ := exists_of_isStepName h
  rw [hn]
  exact trim_eq_self fun d hd => isBlank_of_inName (hall d hd)

theorem bare_of_isStepName (h : isStepName n = true) : Bare n := by
  obtain ⟨c, cs, hn, -, hall⟩ := exists_of_isStepName h
  refine bare_of_not_mem fun hbrace => ?_
  rw [trim_of_isStepName h, hn] at hbrace
  exact absurd (hall _ hbrace) (by decide)

/-- As an expression, the name of a step gives the value in scope. -/
theorem expressionValue_name {v : Value} (h : isStepName n = true) (hconstant : constant? n = none)
    (hn : n ≠ "not") (hv : names.lookup n = some v) : expressionValue names n = .ok v := by
  have htrim : Text.trimText n = n := by
    rw [Text.trimText, trim_of_isStepName h, String.ofList_toList]
  have hne : n ≠ "" := by rintro rfl; cases h
  have hterm : readTerm n = .ok (.name 1 n) := by rw [readTerm, read_name h hconstant hn]; rfl
  have hvalue : Term.eval names (.name 1 n) = .ok v := by rw [Term.eval, Names.value, hv]
  simp only [expressionValue, htrim, if_neg hne, valueOf, hterm]
  change (Term.eval names (.name 1 n)).mapError (Failure.ofLocated n) = .ok v
  rw [hvalue]
  rfl

/-- A condition that consists of an expression asks whether this counts as true. -/
theorem conditionsHold_expression (names : Names) (e : String) :
    conditionsHold names ⟨[], some e⟩ = evaluateBool names e := by
  simp only [conditionsHold, ConditionSet.isEmpty, Option.isNone_some, Bool.false_and, List.filter_nil,
    List.isEmpty_nil, Bool.false_eq_true, if_false, if_true]
  generalize evaluateBool names e = b
  rfl

/-- An expression without braces that has a document counts as that document does unless its value
strays. Documents, outputs of loops, and iterations do not stray. A step name gives the output of the
step as its document; its value strays just if the step is an action whose output does not count as
true, and a condition that consists of it always holds. -/
theorem expression_truth (scope : Scope) (now : Time.Instant) :
    (∀ e j, Bare e → evaluate (scope.names now) e = .ok j →
      ∃ v, expressionValue (scope.names now) e = .ok v ∧ v.toJson = j ∧
        ∃ b, evaluateBool (scope.names now) e = .ok b ∧ (b = j.isTrue ↔ ¬ v.Strays)) ∧
    (∀ j : Json, j.Canonical → ¬ (Value.ofJson j).Strays) ∧
    (∀ s item index iterations, ∃ v,
      (recordValue (.loop s item index iterations)).field? "output" = some v ∧
        v.toJson = (StepRecord.loop s item index iterations).output ∧ ¬ v.Strays) ∧
    (∀ iterations, ∀ v ∈ iterationValues iterations, ¬ v.Strays) ∧
    ∀ n r, isStepName n = true → constant? n = none → n ≠ "not" →
      scope.value? n = some (recordValue r) →
        expressionValue (scope.names now) n = .ok (recordValue r) ∧
          ((recordValue r).Strays ↔ ∃ s output, r = .action s output ∧ output.isTrue = false) ∧
          evaluate (scope.names now) n = .ok r.output ∧
          conditionsHold (scope.names now) ⟨[], some n⟩ = .ok true := by
  refine ⟨fun e j bare h => ?_, fun j h => Value.not_strays_ofJson h, not_strays_output,
    fun iterations v h => not_strays_iteration h, fun n r hn hconstant hnot hr => ?_⟩
  · rw [evaluate_eq] at h
    cases hv : expressionValue (scope.names now) e with
    | error f => rw [hv] at h; cases h
    | ok v =>
      rw [hv] at h
      cases h
      refine ⟨v, rfl, rfl, v.isTrue, ?_, v.isTrue_eq_iff⟩
      rw [evaluateBool_eq _ bare, hv]
      rfl
  · have hv : expressionValue (scope.names now) n = .ok (recordValue r) :=
      expressionValue_name hn hconstant hnot hr
    refine ⟨hv, recordValue_strays r, ?_, ?_⟩
    · rw [evaluate_eq, hv, ← toJson_recordValue]
      rfl
    · rw [conditionsHold_expression, evaluateBool_eq _ (bare_of_isStepName hn), hv,
        ← isTrue_recordValue r]
      rfl

/-! ## An example -/

/-- The scope behind a step that has found nothing. -/
def searched : Scope :=
  .ofSteps [("search", .action ⟨.succeeded, .null, none, none⟩ (.arr []))]

/-- What the step has found counts as true if the step is named, and not if its output is. -/
theorem search_counts : Bare "search.output" ∧ isStepName "search" = true ∧
    constant? "search" = none ∧ "search" ≠ "not" ∧
    evaluate (searched.names ⟨0, 0⟩) "search.output" = .ok (.arr []) ∧
    evaluateBool (searched.names ⟨0, 0⟩) "search.output" = .ok false ∧
    (∃ v, expressionValue (searched.names ⟨0, 0⟩) "search.output" = .ok v ∧ ¬ v.Strays) ∧
    evaluate (searched.names ⟨0, 0⟩) "search" = .ok (.arr []) ∧
    conditionsHold (searched.names ⟨0, 0⟩) ⟨[], some "search"⟩ = .ok true := by
  have hbare : Bare "search.output" := by decide +kernel
  have hvalue : evaluate (searched.names ⟨0, 0⟩) "search.output" = .ok (.arr []) := by decide +kernel
  obtain ⟨houtput, -, -, -, hname⟩ := expression_truth searched ⟨0, 0⟩
  have htruth : evaluateBool (searched.names ⟨0, 0⟩) "search.output" = .ok false := by decide +kernel
  obtain ⟨v, hv, -, b, hb, hstrays⟩ := houtput _ _ hbare hvalue
  obtain rfl : b = false := Except.ok.inj (hb.symm.trans htruth)
  obtain ⟨-, -, hdocument, hholds⟩ := hname "search" _ (by decide) (by decide) (by decide) rfl
  exact ⟨hbare, by decide, by decide, by decide, hvalue, htruth, ⟨v, hv, hstrays.mp rfl⟩, hdocument,
    hholds⟩

/-- So the truth of an expression is not always that of its document. -/
theorem search_counts_unlike_output : ¬ ∀ (scope : Scope) (now : Time.Instant) (e : String) (j : Json),
    Bare e → evaluate (scope.names now) e = .ok j →
      evaluateBool (scope.names now) e = .ok j.isTrue := by
  intro h
  have := h searched ⟨0, 0⟩ "search" (.arr []) (by decide +kernel) (by decide +kernel)
  exact absurd this (by decide +kernel)

end Template

end FlowEngine
