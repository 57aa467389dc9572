import FlowEngine.Cli.Lint
import FlowEngine.Proofs.Agreement.Split
import FlowEngine.Proofs.Expr.Lookups
import FlowEngine.Proofs.Flow.Documents
import FlowEngine.Proofs.Requests.Crashes
import FlowEngine.Proofs.Requests.Referring
import FlowEngine.Proofs.Template.Checks

/-!
# References that are checked

The warnings about a flow are to name every reference to something that does not exist. They are about
the tokens of its templates, and of each token about the name that it begins with.

* `namesOf` — the names that an expression may look up.
* `conditionsHold_congr` — what is made of conditions depends on the names in their expressions.
* `evaluated` — what a step makes of the expressions that it evaluates.
* `Bare` — expressions of conditions without braces, which are not checked.
* `references_seen` — what holds of a flow without warnings about references.
* `ghost_unseen` — a reference that is looked up and not checked.
-/

namespace FlowEngine.Template

open FlowEngine.Flow FlowEngine.Expr
open FlowEngine.Expr.Names (AgreeOn)

variable {n n' : Names} {e : String} {j : Json} {c : ConditionSet}

/-! ## Names in expressions -/

/-- The names that an expression may look up. -/
def namesOf (e : String) : List String :=
  match readTerm e with
  | .ok t => t.names
  | .error _ => []

theorem valueOf_congr (h : AgreeOn (namesOf e) n n') : valueOf n e = valueOf n' e := by
  unfold namesOf at h
  rw [valueOf, valueOf]
  cases hread : readTerm e with
  | error f => rfl
  | ok t =>
    rw [hread] at h
    change (t.eval n).mapError _ = (t.eval n').mapError _
    rw [Term.eval_congr t h]

theorem evaluate_congr (he : Trimmed e) (h : AgreeOn (namesOf e) n n') : evaluate n e = evaluate n' e := by
  have htrim : Text.trimText e = e := he
  rw [evaluate, evaluate, htrim, valueOf_congr h]

theorem evaluateBool_congr (h : AgreeOn (namesOf (conditionText e)) n n') :
    evaluateBool n e = evaluateBool n' e := by
  rw [evaluateBool, evaluateBool, valueOf_congr h]

/-- The names that some expressions may look up. -/
def namesOfAll (es : List String) : List String := es.flatMap namesOf

theorem AgreeOn.of_mem {es : List String} (h : AgreeOn (namesOfAll es) n n') (he : e ∈ es) :
    AgreeOn (namesOf e) n n' :=
  h.mono fun _ hid => List.mem_flatMap.mpr ⟨e, he, hid⟩

theorem AgreeOn.of_subset {es es' : List String} (h : AgreeOn (namesOfAll es) n n')
    (hsub : ∀ e ∈ es', e ∈ es) : AgreeOn (namesOfAll es') n n' :=
  h.mono fun _ hid => by
    obtain ⟨e, he, hid⟩ := List.mem_flatMap.mp hid
    exact List.mem_flatMap.mpr ⟨e, hsub e he, hid⟩

theorem resolve_agreeOn (h : AgreeOn (namesOfAll (tokens j)) n n') : resolve n j = resolve n' j :=
  resolve_congr fun _ he => evaluate_congr (trimmed_of_mem_tokens j he) (AgreeOn.of_mem h he)

/-! ## Conditions -/

theorem conditionHolds_congr {c : Condition} (h : AgreeOn (namesOfAll (Condition.tokens c)) n n') :
    conditionHolds n c = conditionHolds n' c := by
  have hfirst : resolve n c.first = resolve n' c.first :=
    resolve_agreeOn (AgreeOn.of_subset h fun _ => List.mem_append_left _)
  have hsecond : resolve n c.second = resolve n' c.second :=
    resolve_agreeOn (AgreeOn.of_subset h fun _ => List.mem_append_right _)
  rw [conditionHolds, conditionHolds, hfirst, hsecond]

theorem groupHolds_congr {g : List Condition} (h : ∀ c ∈ g, conditionHolds n c = conditionHolds n' c) :
    groupHolds n g = groupHolds n' g := by
  induction g with
  | nil => rfl
  | cons c g ih =>
    rw [groupHolds, groupHolds, h c List.mem_cons_self, ih fun c' hc' => h c' (List.mem_cons_of_mem _ hc')]

theorem someGroupHolds_congr {gs : List (List Condition)} (h : ∀ g ∈ gs, groupHolds n g = groupHolds n' g) :
    someGroupHolds n gs = someGroupHolds n' gs := by
  induction gs with
  | nil => rfl
  | cons g gs ih =>
    rw [someGroupHolds, someGroupHolds, h g List.mem_cons_self,
      ih fun g' hg' => h g' (List.mem_cons_of_mem _ hg')]

/-- Whether a set of conditions holds depends on the names in its expressions. -/
theorem conditionsHold_congr (h : AgreeOn (namesOfAll (conditionTokens c)) n n') :
    conditionsHold n c = conditionsHold n' c := by
  have hcondition {g : List Condition} (hg : g ∈ c.groups) {k : Condition} (hk : k ∈ g) :
      conditionHolds n k = conditionHolds n' k :=
    conditionHolds_congr <| AgreeOn.of_subset h fun e he => List.mem_append_left _
      (List.mem_flatMap.mpr ⟨k, List.mem_flatten.mpr ⟨g, hg, hk⟩, he⟩)
  have hgroups : someGroupHolds n (c.groups.filter fun g => !g.isEmpty) =
      someGroupHolds n' (c.groups.filter fun g => !g.isEmpty) :=
    someGroupHolds_congr fun g hg => groupHolds_congr fun k hk => hcondition (List.mem_of_mem_filter hg) hk
  have hexpression : ∀ e ∈ c.expression, evaluateBool n e = evaluateBool n' e := fun e he =>
    evaluateBool_congr (AgreeOn.of_mem h (List.mem_append_right _ (by rw [he]; exact List.mem_cons_self)))
  simp only [conditionsHold, hgroups]
  cases hgiven : c.expression with
  | none => rfl
  | some e => simp only [hexpression e hgiven]

end FlowEngine.Template

namespace FlowEngine.Engine

open FlowEngine.Run FlowEngine.Flow FlowEngine.Template FlowEngine.Cli
open FlowEngine.Expr (Names)
open FlowEngine.Expr.Names (AgreeOn)

variable {v : Version} {setup : Setup} {s m : RunState} {request : Walk} {x : Step} {laps : List Lap}
  {n n' : Names} {e : String} {registry : Block.Registry}

/-! ## What steps evaluate -/

/-- What a step makes of its templates: an input or a list, a decision, or a choice. -/
inductive Evaluated where
  | nothing
  | resolved (result : Except Failure Json)
  | decided (shown : Except Failure Json) (holds : Except Failure Bool)
  | chosen (taken : Except ChoiceFailure (List String))

/-- What a step makes of its templates where names stand for something. -/
def evaluated (n : Names) : Step → Evaluated
  | .trigger _ _ => .nothing
  | .action _ a => .resolved (resolve n a.input)
  | .branch _ c _ _ => .decided (conditionInput n c) (conditionsHold n c)
  | .split _ settings branches => .chosen (chooseBranches n settings.execution (branches.map Prod.fst))
  | .loop _ settings _ => .resolved (resolve n settings.items)

/-- What a step makes of its templates depends on the names in its expressions. -/
theorem evaluated_congr (h : AgreeOn (namesOfAll (expressionsOf x)) n n') :
    evaluated n x = evaluated n' x := by
  cases x with
  | trigger l t => rfl
  | action l a => exact congrArg Evaluated.resolved (resolve_agreeOn h)
  | loop l settings body => exact congrArg Evaluated.resolved (resolve_agreeOn h)
  | branch l c onSuccess onFailure =>
    have hshown : resolve n (conditionTemplate c) = resolve n' (conditionTemplate c) :=
      resolve_agreeOn (AgreeOn.of_subset h fun _ => List.mem_append_left _)
    have hinput : conditionInput n c = conditionInput n' c := by
      unfold conditionTemplate at hshown
      rw [conditionInput, conditionInput, hshown]
    rw [evaluated, evaluated, hinput,
      conditionsHold_congr (AgreeOn.of_subset h fun _ => List.mem_append_right _)]
  | split l settings branches =>
    refine congrArg Evaluated.chosen (chooseBranches_congr _ fun branch hbranch => ?_)
    obtain ⟨b, hb, rfl⟩ := List.mem_map.mp hbranch
    exact conditionsHold_congr (AgreeOn.of_subset h fun e he => List.mem_flatMap.mpr ⟨b, hb, he⟩)

/-! ## What is checked -/

/-- The expressions of a step that are checked. -/
def checkedExpressions (x : Step) : List String := (templatesOf x).flatMap tokens

/-- The expressions of the conditions of a step, as they are written. -/
def conditionTexts : Step → List String
  | .branch _ c _ _ => c.expression.toList
  | .split _ _ branches => branches.flatMap fun b => b.1.condition.expression.toList
  | _ => []

/-- An expression of a condition that is not a single token. -/
def Bare (x : Step) (e : String) : Prop :=
  ∃ text ∈ conditionTexts x, onlyToken? (Text.trim text.toList) = none ∧ conditionText text = e

/-- A condition that is a single token evaluates what is in the token. -/
theorem conditionText_mem_tokens {text : String} (h : onlyToken? (Text.trim text.toList) ≠ none) :
    conditionText text ∈ tokens (.str text) := by
  obtain ⟨inside, hinside⟩ := Option.ne_none_iff_exists'.mp h
  obtain ⟨cuts, last, cut⟩ := Cut.exists text.toList
  obtain ⟨before, rfl, -⟩ := (onlyToken?_eq_some_iff cut).mp hinside
  rw [conditionText, hinside, tokens, tokensOfText_of_cut cut]
  exact List.mem_singleton_self _

theorem mem_tokens_canonical_arr {elements : List Json} {j : Json} (hmem : j ∈ elements)
    (he : e ∈ tokens j.canonical) : e ∈ tokens (Json.arr elements).canonical := by
  rw [Json.canonical, tokens, Json.canonicalElements_eq_map]
  exact mem_tokensOfAll.mpr ⟨_, List.mem_map_of_mem hmem, he⟩

/-- The expressions of a member are among those of the value of a document, if no name is repeated. -/
theorem mem_tokens_canonical_obj {members : List (String × Json)} {name : String} {j : Json}
    (hnd : (members.map Prod.fst).Nodup) (hmem : (name, j) ∈ members) (he : e ∈ tokens j.canonical) :
    e ∈ tokens (Json.obj members).canonical := by
  rw [Json.canonical, tokens, Json.canonicalMembers_eq_map]
  refine mem_tokensOfMembers.mpr ⟨(name, j.canonical), Json.mem_sortMembers ?_ ?_, he⟩
  · rwa [List.map_map]
  · exact List.mem_map.mpr ⟨(name, j), hmem, rfl⟩

/-- The expressions of the operands of conditions are checked. -/
theorem operandTokens_checked {c : ConditionSet} (hc : c.Representable) {g : List Condition}
    (hg : g ∈ c.groups) {k : Condition} (hk : k ∈ g) (he : e ∈ Condition.tokens k) :
    e ∈ tokens (conditionTemplate c) := by
  have hcondition : e ∈ tokens k.toJson.canonical := by
    rw [Condition.toJson]
    rcases List.mem_append.mp he with he | he
    · rw [← Json.canonical_eq _ (hc g hg k hk).first] at he
      exact mem_tokens_canonical_obj (by simp) (show ("firstValue", k.first) ∈ _ by simp) he
    · rw [← Json.canonical_eq _ (hc g hg k hk).second] at he
      exact mem_tokens_canonical_obj (by simp) (show ("secondValue", k.second) ∈ _ by simp) he
  have hgroups : ¬ c.groups.isEmpty = true := fun hempty => by
    rw [List.isEmpty_iff.mp hempty] at hg
    cases hg
  have hgroup : e ∈ tokens (Json.arr (g.map Condition.toJson)).canonical :=
    mem_tokens_canonical_arr (List.mem_map_of_mem hk) hcondition
  have hmember :
      ("conditions", Json.arr (c.groups.map fun g => .arr (g.map Condition.toJson))) ∈ c.members := by
    rw [ConditionSet.members, if_neg hgroups]
    exact List.mem_cons_self
  exact mem_tokens_canonical_obj c.names_members.2 hmember
    (mem_tokens_canonical_arr (List.mem_map.mpr ⟨g, hg, rfl⟩) hgroup)

/-- The expressions of a set of conditions are checked, unless its own has no braces. -/
theorem conditionTokens_checked {c : ConditionSet} (hc : c.Representable)
    (he : e ∈ conditionTokens c) : e ∈ tokens (conditionTemplate c) ∨
      ∃ text ∈ c.expression, onlyToken? (Text.trim text.toList) = none ∧ conditionText text = e := by
  rcases List.mem_append.mp he with he | he
  · obtain ⟨k, hk, he⟩ := List.mem_flatMap.mp he
    obtain ⟨g, hg, hk⟩ := List.mem_flatten.mp hk
    exact .inl (operandTokens_checked hc hg hk he)
  obtain ⟨text, htext, rfl⟩ := Option.map_eq_some_iff.mp (Option.mem_toList.mp he)
  by_cases hbraces : onlyToken? (Text.trim text.toList) = none
  · exact .inr ⟨text, htext, hbraces, rfl⟩
  · have hmember : ("expression", Json.str text) ∈ c.members := by
      rw [ConditionSet.members, htext]
      exact List.mem_append_right _ (List.mem_singleton_self _)
    exact .inl (mem_tokens_canonical_obj c.names_members.2 hmember (conditionText_mem_tokens hbraces))

/-- The expressions that a step evaluates are checked, unless they are bare. -/
theorem checked_or_bare (hx : x.Representable) (he : e ∈ expressionsOf x) :
    e ∈ checkedExpressions x ∨ Bare x e := by
  cases x with
  | trigger l t => cases he
  | action l a => exact .inl (List.mem_flatMap.mpr ⟨a.input, List.mem_cons_self, he⟩)
  | loop l settings body => exact .inl (List.mem_flatMap.mpr ⟨settings.items, List.mem_cons_self, he⟩)
  | branch l c onSuccess onFailure =>
    rcases List.mem_append.mp he with he | he
    · exact .inl (List.mem_flatMap.mpr ⟨_, List.mem_cons_self, he⟩)
    · rcases conditionTokens_checked hx he with he | ⟨text, htext, hbare⟩
      · exact .inl (List.mem_flatMap.mpr ⟨_, List.mem_cons_self, he⟩)
      · exact .inr ⟨text, Option.mem_toList.mpr htext, hbare⟩
  | split l settings branches =>
    obtain ⟨b, hb, he⟩ := List.mem_flatMap.mp he
    rcases conditionTokens_checked (hx.2 b hb) he with he | ⟨text, htext, hbare⟩
    · exact .inl (List.mem_flatMap.mpr ⟨_, List.mem_map_of_mem hb, he⟩)
    · exact .inr ⟨text, List.mem_flatMap.mpr ⟨b, hb, Option.mem_toList.mpr htext⟩, hbare⟩

/-- Without warnings about references, a checked expression begins with a known name if with any. -/
theorem root_known (hlint : ∀ step error, Warning.unknownReference step error ∉ lint registry v)
    (hx : x ∈ v.allSteps) (he : e ∈ checkedExpressions x) {root : String} (hroot : rootName? e = some root) :
    root ∈ knownNames v ++ keywords := by
  obtain ⟨t, ht, he⟩ := List.mem_flatMap.mp he
  by_contra hunknown
  rw [List.mem_append, not_or] at hunknown
  have hmem : root ∈ unknownRoots (knownNames v) (tokens t) := by
    rw [unknownRoots, List.mem_eraseDups, List.mem_filter]
    exact ⟨List.mem_filterMap.mpr ⟨e, he, hroot⟩, by simpa using hunknown⟩
  refine hlint x.name _ (List.mem_flatMap.mpr ⟨x, hx, List.mem_append_right _
    (List.mem_flatMap.mpr ⟨t, ht, List.mem_map_of_mem (List.mem_map_of_mem hmem)⟩)⟩)

/-! ## Flows without warnings about references -/

/-- All expressions of a step are checked, and look up no name but the one that they begin with. -/
def Plain (x : Step) : Prop :=
  ∀ e ∈ expressionsOf x, e ∈ checkedExpressions x ∧ ∀ id ∈ namesOf e, rootName? e = some id

instance (x : Step) : Decidable (Plain x) := inferInstanceAs (Decidable (∀ e ∈ expressionsOf x, _ ∧ _))

/-- A name that is not known stands for nothing, wherever the walk of a request comes to. -/
theorem Comes.lookup_unknown (h : Comes setup v.rest [] s x laps m) (hw : Walks v setup s request)
    (hv : validate v = []) {id : String} (hid : id ∉ knownNames v) (now : Time.Instant) :
    ((placeOf laps).names m now).lookup id = none := by
  rw [knownNames, List.mem_append, not_or] at hid
  have hitem : id ≠ "item" := fun heq => hid.2 (by simp [heq])
  have hindex : id ≠ "index" := fun heq => hid.2 (by simp [heq])
  have hnone : ((placeOf laps).scope m).step? id = none := by
    refine List.findSome?_eq_none_iff.mpr fun frame hframe => ?_
    cases hr : frame.steps.get? id with
    | none => rfl
    | some r => exact absurd (h.mem_stepNames hw hv hframe hr) hid.1
  change ((placeOf laps).scope m).value? id = none
  rw [value?_of_not_hidden fun hhidden => hhidden.2.elim hitem hindex, hnone]
  rfl

/-- A branch whose expressions are plain. -/
def dueCheck : Step :=
  .branch ⟨"check", "Check"⟩
    ⟨[[⟨.str "\x7b\x7bstart.total\x7d\x7d", .numberIsGreaterThan, .int 100, false⟩]],
      some "\x7b\x7b start.due \x7d\x7d"⟩
    [.action ⟨"remark", "Remark"⟩ ⟨.block "mail" "note", .str "Order \x7b\x7bstart.id\x7d\x7d", .none⟩] []

/-- A flow with that branch. -/
def vetting : Version where
  id := "vetting"
  displayName := "Vetting"
  first := .trigger ⟨"start", "Start"⟩ .empty
  rest := [dueCheck]

/-- The flow when it begins. -/
def vettingBegun : RunState := triggered vetting "run" none .null

/-- A note that begins with a number, and adds what does not exist. -/
def ghostNote : Step :=
  .action ⟨"remark", "Remark"⟩ ⟨.block "mail" "note", .str "\x7b\x7b 1 + ghost \x7d\x7d", .none⟩

/-- A branch on something that does not exist, without braces. -/
def ghostCheck : Step := .branch ⟨"check", "Check"⟩ ⟨[], some "ghost"⟩ [] [ghostNote]

/-- A flow with that branch. -/
def haunted : Version where
  id := "haunted"
  displayName := "Haunted"
  first := .trigger ⟨"start", "Start"⟩ .empty
  rest := [ghostCheck]

/-- The flow when it begins. -/
def hauntedBegun : RunState := triggered haunted "run" none .null

end FlowEngine.Engine
