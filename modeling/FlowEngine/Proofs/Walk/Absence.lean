import FlowEngine.Engine.Walk
import FlowEngine.Flow.Encode
import FlowEngine.Proofs.Template.Checks
import FlowEngine.Proofs.Template.Conditions
import FlowEngine.Proofs.Template.References

/-!
# Absent operands

A comparison whose first operand is absent — null, or the empty text — has an answer that depends on the
operator alone, or on whether the text of the second operand is empty. The comparisons that take a list
are the exception: for them null is the empty list, and the empty text is none. So a branch whose
conditions are on absent data takes a side, unless it comes to such a comparison of the empty text.

* `absentHolds`, `compare_of_absent` — what a comparison says of an absent operand.
* `Lacks`, `Stumbles` — a set of conditions on absent data, and a condition that asks for a list and is
  given the empty text.
* `conditionsHold_of_lacks`, `conditionsHold_of_stumbles` — how such a set is evaluated.
* `runBranch_of_lacks` — a branch records its decision, and the side is walked.
* `absence_decided` — sets of conditions, and branches with them.
-/

namespace FlowEngine

/-! ## Lower case -/

namespace Text

theorem lowerChar_ne_nil (c : Char) : lowerChar c ≠ [] := by
  unfold lowerChar
  split_ifs <;> simp

theorem lower_eq_nil {cs : List Char} : lower cs = [] ↔ cs = [] := by
  cases cs with
  | nil => simp [lower, lowerAfter]
  | cons c cs =>
    rw [lower, lowerAfter]
    split_ifs <;> simp [lowerChar_ne_nil]

/-- No character disappears in lower case. -/
theorem lowerText_eq_empty {s : String} : lowerText s = "" ↔ s = "" := by
  rw [lowerText, ← String.toList_inj, String.toList_ofList, String.toList_empty, lower_eq_nil,
    ← String.toList_inj, String.toList_empty]

end Text

/-! ## Comparisons -/

/-- The comparisons that take a list. -/
def Flow.Operator.onList : Flow.Operator → Bool
  | .listIsEmpty | .listIsNotEmpty | .listContains => true
  | _ => false

namespace Template

open FlowEngine.Flow FlowEngine.Expr

variable {names : Names} {e : String} {j first second : Json} {c : Condition} {s : ConditionSet}

/-- What a comparison says of an absent operand: it is the empty text, no number, neither true nor
false, the empty list, and does not exist. -/
def absentHolds (operator : Operator) (second : Json) : Bool :=
  match operator with
  | .textContains | .textExactlyMatches | .textStartsWith | .textEndsWith => operandText second == ""
  | .textDoesNotContain | .textDoesNotExactlyMatch => operandText second != ""
  | .doesNotExist | .listIsEmpty => true
  | .textMatchesRegex | .numberIsGreaterThan | .numberIsLessThan | .numberIsEqualTo
  | .booleanIsTrue | .booleanIsFalse | .exists | .listIsNotEmpty | .listContains => false

theorem isPresent_eq_false : isPresent j = false ↔ j = .null ∨ j = .str "" := by
  cases j <;> simp [isPresent]

theorem casedText_eq_empty {caseSensitive : Bool} :
    casedText caseSensitive j = "" ↔ operandText j = "" := by
  unfold casedText
  split_ifs
  · rfl
  · exact Text.lowerText_eq_empty

/-- An absent operand has no text to compare. -/
theorem compareTexts_of_absent {caseSensitive : Bool} {relation : List Char → List Char → Bool}
    (h : isPresent first = false) : compareTexts caseSensitive first second relation =
      .ok (relation [] (casedText caseSensitive second).toList) := by
  have htext : operandText first = "" := by
    rcases isPresent_eq_false.mp h with rfl | rfl <;> rfl
  rw [compareTexts, casedText_eq_empty.mpr htext, String.toList_empty]

theorem compareNumbers_of_absent {relation : Binary64 → Binary64 → Bool}
    (h : isPresent first = false) : compareNumbers first second relation = .ok false := by
  simp [compareNumbers, numbers, h, bind, Except.bind]

theorem truth?_of_absent (h : isPresent j = false) : truth? j = .ok none := by
  simp [truth?, h]

/-- Whether the second operand's text is empty decides how it compares with the empty text. -/
theorem isEmpty_casedText (caseSensitive : Bool) (j : Json) :
    (casedText caseSensitive j).toList.isEmpty = (operandText j == "") := by
  rw [Bool.eq_iff_iff, List.isEmpty_iff, String.toList_eq_nil_iff, beq_iff_eq, casedText_eq_empty]

/-- A comparison of an absent operand has an answer, unless it asks for a list and the operand is the
empty text. -/
theorem compare_of_absent {operator : Operator} {caseSensitive : Bool}
    (hpattern : operator ≠ .textMatchesRegex) (h : isPresent first = false) :
    compare operator caseSensitive first second =
      if operator.onList = true ∧ first = .str "" then .error (.typeMismatch "list" "string")
      else .ok (absentHolds operator second) := by
  have hempty := isEmpty_casedText caseSensitive second
  generalize htext : (casedText caseSensitive second).toList = text at hempty
  cases operator with
  | textMatchesRegex => exact absurd rfl hpattern
  | numberIsGreaterThan | numberIsLessThan | numberIsEqualTo =>
    rw [compare, compareNumbers_of_absent h]
    rfl
  | booleanIsTrue | booleanIsFalse =>
    rw [compare, truth?_of_absent h]
    rfl
  | «exists» | doesNotExist =>
    rw [compare, h]
    rfl
  | listIsEmpty | listIsNotEmpty | listContains =>
    rcases isPresent_eq_false.mp h with rfl | rfl <;> rfl
  | textContains | textDoesNotContain | textExactlyMatches | textDoesNotExactlyMatch
  | textStartsWith | textEndsWith =>
    rw [compare, compareTexts_of_absent h, htext, if_neg (by simp [Operator.onList]), absentHolds]
    cases text <;> simp_all [Text.occursIn, List.isSuffixOf, bne]

/-! ## Conditions on absent data -/

/-- A condition other than a pattern whose first operand resolves to nothing, and whose second operand
resolves. -/
structure Lacking (names : Names) (c : Condition) : Prop where
  noPattern : c.operator ≠ .textMatchesRegex
  first : ∃ j, resolve names c.first = .ok j ∧ isPresent j = false
  second : ∃ k, resolve names c.second = .ok k

/-- A set of conditions without expression all of which are on absent data. -/
structure Lacks (names : Names) (s : ConditionSet) : Prop where
  noExpression : s.expression = none
  conditions : ∀ g ∈ s.groups, ∀ c ∈ g, Lacking names c

/-- A condition that asks for a list and is given the empty text. -/
def Stumbles (names : Names) (c : Condition) : Prop :=
  c.operator.onList = true ∧ resolve names c.first = .ok (.str "")

theorem Lacking.holds (h : Lacking names c) (hc : ¬ Stumbles names c) {k : Json}
    (hk : resolve names c.second = .ok k) :
    conditionHolds names c = .ok (absentHolds c.operator k) := by
  obtain ⟨j, hj, habsent⟩ := h.first
  have hfirst : ¬ (c.operator.onList = true ∧ j = .str "") := fun ⟨hlist, heq⟩ =>
    hc ⟨hlist, by rw [hj, heq]⟩
  rw [conditionHolds, hj, hk]
  change (compare c.operator c.caseSensitive j k).mapError Failure.error = _
  rw [compare_of_absent h.noPattern habsent, if_neg hfirst]
  rfl

theorem Lacking.fails (h : Lacking names c) (hc : Stumbles names c) :
    conditionHolds names c = .error (.error (.typeMismatch "list" "string")) := by
  obtain ⟨k, hk⟩ := h.second
  rw [conditionHolds, hc.2, hk]
  change (compare c.operator c.caseSensitive (.str "") k).mapError Failure.error = _
  rw [compare_of_absent h.noPattern rfl, if_pos ⟨hc.1, rfl⟩]
  rfl

theorem Reaches.exists_mem (h : Reaches names s (.condition c)) : ∃ g ∈ s.groups, c ∈ g := by
  cases h with
  | condition group inside => exact ⟨_, List.mem_of_mem_filter group.mem, inside.mem⟩

theorem Lacks.lacking (h : Lacks names s) (hc : Reaches names s (.condition c)) : Lacking names c := by
  obtain ⟨g, hg, hc⟩ := hc.exists_mem
  exact h.conditions g hg c hc

/-- A set of conditions on absent data says whether it is met, unless it comes to one that stumbles. -/
theorem conditionsHold_of_lacks (h : Lacks names s)
    (hs : ∀ c, Reaches names s (.condition c) → ¬ Stumbles names c) :
    conditionsHold names s = .ok (decide (Met names s)) := by
  refine conditionsHold_of_answers fun k hk => ?_
  cases k with
  | expression e =>
    have noExpression := h.noExpression
    cases hk with
    | alone given => cases noExpression.symm.trans given
    | expression given => cases noExpression.symm.trans given
  | condition c =>
    have hc := h.lacking hk
    obtain ⟨k, hsecond⟩ := hc.second
    exact ⟨_, hc.holds (hs c hk) hsecond⟩

theorem conditionsHold_of_stumbles (h : Lacks names s) (hc : Reaches names s (.condition c))
    (hs : Stumbles names c) :
    conditionsHold names s = .error (.error (.typeMismatch "list" "string")) :=
  conditionsHold_of_failure hc ((h.lacking hc).fails hs)

/-! ## Their templates -/

mutual

/-- The value of a document has no expressions that are not in the document. -/
theorem mem_tokens_of_canonical : ∀ j : Json, e ∈ tokens j.canonical → e ∈ tokens j
  | .null, h | .bool _, h | .int _, h | .str _, h => h
  | .float x, h => by
    rw [Json.canonical] at h
    split_ifs at h <;> exact h
  | .arr elements, h => mem_tokens_of_canonicalElements elements h
  | .obj members, h => by
    obtain ⟨m, hm, h⟩ := mem_tokensOfMembers.mp h
    exact mem_tokens_of_canonicalMembers members
      (mem_tokensOfMembers.mpr ⟨m, Json.mem_of_mem_sortMembers hm, h⟩)

theorem mem_tokens_of_canonicalElements : ∀ js : List Json,
    e ∈ tokensOfAll (Json.canonicalElements js) → e ∈ tokensOfAll js
  | [], h => h
  | j :: rest, h => by
    rcases List.mem_append.mp h with h | h
    · exact List.mem_append_left _ (mem_tokens_of_canonical j h)
    · exact List.mem_append_right _ (mem_tokens_of_canonicalElements rest h)

theorem mem_tokens_of_canonicalMembers : ∀ ms : List (String × Json),
    e ∈ tokensOfMembers (Json.canonicalMembers ms) → e ∈ tokensOfMembers ms
  | [], h => h
  | (_, j) :: rest, h => by
    rcases List.mem_append.mp h with h | h
    · exact List.mem_append_left _ (mem_tokens_of_canonical j h)
    · exact List.mem_append_right _ (mem_tokens_of_canonicalMembers rest h)

end

/-- The name of an operator is no template. -/
theorem tokens_operatorName (operator : Operator) : tokens (.str operator.name) = [] := by
  cases operator <;> rfl

/-- The expressions of a set of conditions are those of the operands. -/
theorem exists_of_mem_tokens_members (hs : s.expression = none) (h : e ∈ tokens (.obj s.members)) :
    ∃ g ∈ s.groups, ∃ c ∈ g, e ∈ tokens c.first ∨ e ∈ tokens c.second := by
  rw [tokens, ConditionSet.members, hs] at h
  split_ifs at h
  · cases h
  obtain ⟨m, hm, h⟩ := mem_tokensOfMembers.mp h
  obtain rfl := List.mem_singleton.mp hm
  obtain ⟨_, hgroup, h⟩ := mem_tokensOfAll.mp h
  obtain ⟨g, hg, rfl⟩ := List.mem_map.mp hgroup
  obtain ⟨_, hcondition, h⟩ := mem_tokensOfAll.mp h
  obtain ⟨c, hc, rfl⟩ := List.mem_map.mp hcondition
  refine ⟨g, hg, c, hc, ?_⟩
  rw [Condition.toJson, tokens, tokensOfMembers, tokensOfMembers, tokensOfMembers,
    tokens_operatorName] at h
  simpa [tokens, tokensOfMembers] using h

theorem evaluate_of_resolve {k : Json} (h : resolve names j = .ok k) (he : e ∈ tokens j) :
    ∃ v, evaluate names e = .ok v := by
  cases hfirst : firstFailure? names (tokens j) with
  | some f => cases h.symm.trans (resolve_error j hfirst)
  | none =>
    obtain ⟨value, hvalue⟩ := exists_hasValues hfirst
    exact ⟨_, hvalue e he⟩

/-- If all operands resolve, so does the set of conditions as a whole. -/
theorem resolve_members_of_lacks (h : Lacks names s) :
    ∃ k, resolve names (Json.obj s.members).canonical = .ok k := by
  cases hr : resolve names (Json.obj s.members).canonical with
  | ok k => exact ⟨k, rfl⟩
  | error f =>
    obtain ⟨e, he, hfails⟩ := exists_of_firstFailure? (resolve_eq_error_iff.mp hr)
    obtain ⟨g, hg, c, hc, hmem⟩ :=
      exists_of_mem_tokens_members h.noExpression (mem_tokens_of_canonical _ he)
    have hlacking := h.conditions g hg c hc
    have hv : ∃ v, evaluate names e = .ok v := by
      obtain ⟨j, hj, -⟩ := hlacking.first
      obtain ⟨k, hk⟩ := hlacking.second
      exact hmem.elim (evaluate_of_resolve hj) (evaluate_of_resolve hk)
    obtain ⟨v, hv⟩ := hv
    cases hv.symm.trans hfails

end Template

end FlowEngine

namespace FlowEngine.Engine

open FlowEngine.Flow FlowEngine.Run FlowEngine.Template
open FlowEngine.Expr (Names)

variable {names : Names} {s : ConditionSet}

theorem conditionInput_of_lacks (h : Lacks names s) : ∃ input,
    resolve names (Json.obj s.members).canonical = .ok input ∧ conditionInput names s = .ok input := by
  obtain ⟨input, hinput⟩ := resolve_members_of_lacks h
  refine ⟨input, hinput, ?_⟩
  unfold conditionInput
  dsimp only
  rw [hinput]

/-- The conditions of a set are on absent data, and it comes to none that asks for a list and is given
the empty text. -/
structure Steady (names : Names) (s : ConditionSet) : Prop where
  lacks : Lacks names s
  sure : ∀ c, Reaches names s (.condition c) → ¬ Stumbles names c

/-- A branch on absent data that has no record yet records its decision and what its conditions have
been resolved to, and goes on with the side. -/
theorem runBranch_of_lacks {place : Place} {name : String} (side : Bool → RunState → Walk)
    {st : RunState} (hfresh : st.steps.get? name = none)
    (h : ∀ now, Steady (place.names st now) s) : ∃ input : Time.Instant → Json,
      (∀ now, resolve (place.names st now) (Json.obj s.members).canonical = .ok (input now)) ∧
      runBranch place name s side st = .clock fun started => .clock fun stopped =>
        let holds := decide (Met (place.names st started.now) s)
        side holds (st.upsert name
          (.branch ⟨.succeeded, input started.now, none, some (elapsed started stopped)⟩ holds)) := by
  choose input hresolve hinput using fun now => conditionInput_of_lacks (h now).lacks
  refine ⟨input, hresolve, ?_⟩
  rw [runBranch, hfresh]
  refine congrArg Job.clock (funext fun started => ?_)
  dsimp only
  rw [hinput, conditionsHold_of_lacks (h _).lacks (h _).sure]
  rfl

/-- A set of conditions on absent data says whether it is met, unless it comes to a condition that asks
for a list and is given the empty text. Each other condition has the outcome that its operator has for
an absent operand. So a branch records its decision and takes a side. -/
theorem absence_decided (s : ConditionSet) :
    (∀ names, Lacks names s → ∀ g ∈ s.groups, ∀ c ∈ g, ¬ Stumbles names c →
      ∃ second, resolve names c.second = .ok second ∧
        conditionHolds names c = .ok (absentHolds c.operator second)) ∧
    (∀ names, Lacks names s → (∀ c, Reaches names s (.condition c) → ¬ Stumbles names c) →
      conditionsHold names s = .ok (decide (Met names s))) ∧
    (∀ names, Lacks names s → ∀ c, Reaches names s (.condition c) → Stumbles names c →
      conditionsHold names s = .error (.error (.typeMismatch "list" "string"))) ∧
    ∀ setup label onSuccess onFailure place st, st.steps.get? label.name = none →
      (∀ now, Steady (place.names st now) s) → ∃ input : Time.Instant → Json,
        (∀ now, resolve (place.names st now) (Json.obj s.members).canonical = .ok (input now)) ∧
        walkStep setup (.branch label s onSuccess onFailure) place st =
          .clock fun started => .clock fun stopped =>
            let holds := decide (Met (place.names st started.now) s)
            walk setup (if holds then onSuccess else onFailure) place (st.upsert label.name
              (.branch ⟨.succeeded, input started.now, none, some (elapsed started stopped)⟩ holds)) := by
  refine ⟨fun names h g hg c hc hs => ?_, fun names => conditionsHold_of_lacks,
    fun names h c hc hs => conditionsHold_of_stumbles h hc hs,
    fun setup label onSuccess onFailure place st hfresh h => ?_⟩
  · have hlacking := h.conditions g hg c hc
    obtain ⟨second, hsecond⟩ := hlacking.second
    exact ⟨second, hsecond, hlacking.holds hs hsecond⟩
  · obtain ⟨input, hresolve, hrun⟩ := runBranch_of_lacks
      (fun holds => if holds then walk setup onSuccess place else walk setup onFailure place) hfresh h
    refine ⟨input, hresolve, ?_⟩
    rw [walkStep, hrun]
    refine congrArg Job.clock (funext fun started => congrArg Job.clock (funext fun stopped => ?_))
    dsimp only
    split_ifs <;> rfl

/-! ## An example

A branch asks for an order that there is none of. -/

/-- A part of the order. -/
def orderPart (name : String) : Json := .str (tokenText (Expr.pathText "order" [.dot name]))

/-- The amount is large. -/
def largeAmount : Condition := ⟨orderPart "amount", .numberIsGreaterThan, .int 100, false⟩

/-- There are no items. -/
def noItems : Condition := ⟨orderPart "items", .listIsEmpty, .null, false⟩

/-- One of these. -/
def orderChecks : ConditionSet := ⟨[[largeAmount], [noItems]], none⟩

/-- The action of a reminder is known. -/
def reminding : Setup := ⟨⟨[⟨"mail", "send", "Sends."⟩], false⟩, {}, none⟩

/-- What is done then. -/
def remind : Step := .action ⟨"remind", "Remind"⟩ ⟨.block "mail" "send", .null, .none⟩

theorem resolve_orderPart {name : String} (hname : isStepName name = true) (now : Time.Instant) :
    resolve (Place.top.names (.empty "run") now) (orderPart name) = .ok .null := by
  have hpath : ∀ a ∈ [Expr.Accessor.dot name], a.WellFormed := by
    intro a ha
    cases List.mem_singleton.mp ha
    exact hname
  rw [orderPart, resolve_pathText _ (by decide) (by decide) hpath]
  rfl

/-- The run before it begins, at any time. -/
def orderNames (now : Time.Instant) : Names := Place.top.names (.empty "run") now

theorem orderChecks_null (now : Time.Instant) :
    ∀ g ∈ orderChecks.groups, ∀ c ∈ g, resolve (orderNames now) c.first = .ok .null := by
  intro g hg c hc
  simp only [orderChecks, List.mem_cons, List.not_mem_nil, or_false] at hg
  rcases hg with rfl | rfl <;> cases List.mem_singleton.mp hc
  · exact resolve_orderPart (by decide) now
  · exact resolve_orderPart (by decide) now

theorem orderChecks_steady (now : Time.Instant) : Steady (orderNames now) orderChecks := by
  have hnull := orderChecks_null now
  refine ⟨⟨rfl, fun g hg c hc => ?_⟩, fun c hc hstumbles => ?_⟩
  · have hfirst := hnull g hg c hc
    simp only [orderChecks, List.mem_cons, List.not_mem_nil, or_false] at hg
    rcases hg with rfl | rfl <;> cases List.mem_singleton.mp hc
    · exact ⟨by decide, ⟨_, hfirst, rfl⟩, _, rfl⟩
    · exact ⟨by decide, ⟨_, hfirst, rfl⟩, _, rfl⟩
  · obtain ⟨g, hg, hc⟩ := hc.exists_mem
    cases (hnull g hg c hc).symm.trans hstumbles.2

/-- The amount is not large, but there are no items: the branch takes the side on which is reminded. -/
theorem orderChecks_remind :
    conditionsHold (orderNames ⟨0, 0⟩) orderChecks = .ok true ∧
    ∃ input : Time.Instant → Json,
      walkStep reminding (.branch ⟨"check", "Check"⟩ orderChecks [remind] [])
          Place.top (.empty "run") = .clock fun started => .clock fun stopped =>
        walk reminding [remind] Place.top ((RunState.empty "run").upsert "check"
          (.branch ⟨.succeeded, input started.now, none, some (elapsed started stopped)⟩ true)) := by
  obtain ⟨hconditions, hset, -, hbranch⟩ := absence_decided orderChecks
  have hmet (now : Time.Instant) : Met (orderNames now) orderChecks := by
    have hgroup : [noItems] ∈ orderChecks.groups := List.mem_cons_of_mem _ List.mem_cons_self
    have hitems : conditionHolds (orderNames now) noItems = .ok true := by
      obtain ⟨second, -, holds⟩ := hconditions _ (orderChecks_steady now).lacks _ hgroup noItems
        List.mem_cons_self fun hstumbles => by
          cases (orderChecks_null now _ hgroup _ List.mem_cons_self).symm.trans hstumbles.2
      exact holds
    refine ⟨rfl, .inr ⟨[noItems], hgroup, fun c hc => ?_⟩, fun e he => by cases he⟩
    cases List.mem_singleton.mp hc
    exact hitems
  obtain ⟨input, -, hwalk⟩ := hbranch reminding ⟨"check", "Check"⟩ [remind] []
    Place.top (.empty "run") rfl orderChecks_steady
  have hsteady := orderChecks_steady ⟨0, 0⟩
  refine ⟨?_, input, hwalk.trans ?_⟩
  · rw [hset _ hsteady.lacks hsteady.sure, decide_eq_true (hmet ⟨0, 0⟩)]
  · refine congrArg Job.clock (funext fun started => congrArg Job.clock (funext fun stopped => ?_))
    have htrue := decide_eq_true (hmet started.now)
    unfold orderNames at htrue
    dsimp only
    rw [htrue]
    rfl

/-- The items of an order are the empty text. -/
def emptyItems : ConditionSet := ⟨[[⟨.str "", .listIsEmpty, .null, false⟩]], none⟩

/-- Though it is absent, it is not the empty list, and the branch would fail. -/
theorem emptyItems_stumbles : Lacks (orderNames ⟨0, 0⟩) emptyItems ∧
    conditionsHold (orderNames ⟨0, 0⟩) emptyItems =
      .error (.error (.typeMismatch "list" "string")) ∧
    ¬ ∀ names s, Lacks names s → ∃ holds, conditionsHold names s = .ok holds := by
  have htext : resolve (orderNames ⟨0, 0⟩) (.str "") = .ok (.str "") := rfl
  have hlacks : Lacks (orderNames ⟨0, 0⟩) emptyItems := by
    refine ⟨rfl, fun g hg c hc => ?_⟩
    cases List.mem_singleton.mp hg
    cases List.mem_singleton.mp hc
    exact ⟨by decide, ⟨_, htext, rfl⟩, _, rfl⟩
  have hfails : conditionsHold (orderNames ⟨0, 0⟩) emptyItems =
      .error (.error (.typeMismatch "list" "string")) := by
    refine conditionsHold_of_stumbles hlacks (c := ⟨.str "", .listIsEmpty, .null, false⟩) ?_ ⟨rfl, htext⟩
    exact .condition (behind_cons_iff.mpr (.inl rfl)) (behind_cons_iff.mpr (.inl rfl))
  refine ⟨hlacks, hfails, fun h => ?_⟩
  obtain ⟨holds, hok⟩ := h _ _ hlacks
  cases hok.symm.trans hfails

end FlowEngine.Engine
