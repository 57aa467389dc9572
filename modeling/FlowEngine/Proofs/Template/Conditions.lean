import FlowEngine.Template.Condition
import Mathlib.Data.List.Basic
import Mathlib.Tactic.SplitIfs

/-!
# The meaning of conditions

Conditions are evaluated from left to right, and no further than their outcome is open: a group up to
its first condition that is false, the groups up to the first one that is true, and the expression only
then. What is not reached does not matter.

* `Behind` — an item of a list with nothing but items of some kind before it.
* `Check`, `Reaches` — the conditions and the expression of a set, and which of them are reached.
* `Met` — what it takes for a set to hold.
* `conditionsHold_error_iff`, `conditionsHold_of_answers` — evaluation fails as the first of them does
  that fails where it is reached, and says otherwise whether the set is met.
-/

namespace FlowEngine.Template

open FlowEngine.Flow FlowEngine.Expr

/-! ## Items of lists -/

section

variable {α : Type} {P : α → Prop} {x y : α} {xs : List α}

/-- An item of a list, before which there are items of some kind only. -/
def Behind (P : α → Prop) (xs : List α) (x : α) : Prop :=
  ∃ before after, xs = before ++ x :: after ∧ ∀ y ∈ before, P y

theorem not_behind_nil : ¬ Behind P [] x := by
  rintro ⟨before, after, h, -⟩
  exact List.cons_ne_nil _ _ (List.append_eq_nil_iff.mp h.symm).2

theorem behind_cons_iff : Behind P (y :: xs) x ↔ x = y ∨ P y ∧ Behind P xs x := by
  constructor
  · rintro ⟨before, after, h, hbefore⟩
    cases before with
    | nil => exact .inl (List.cons.inj h).1.symm
    | cons z before =>
      obtain ⟨rfl, rfl⟩ := List.cons.inj h
      obtain ⟨hz, hbefore⟩ := List.forall_mem_cons.mp hbefore
      exact .inr ⟨hz, before, after, rfl, hbefore⟩
  · rintro (rfl | ⟨hy, before, after, rfl, hbefore⟩)
    · exact ⟨[], xs, rfl, by simp⟩
    · exact ⟨y :: before, after, rfl, List.forall_mem_cons.mpr ⟨hy, hbefore⟩⟩

theorem Behind.mem (h : Behind P xs x) : x ∈ xs := by
  obtain ⟨before, after, rfl, -⟩ := h
  simp

/-- The first item that is not of some kind is behind items of that kind. -/
theorem exists_behind_of_not_forall (h : ¬ ∀ y ∈ xs, P y) : ∃ x, Behind P xs x ∧ ¬ P x := by
  induction xs with
  | nil => exact absurd (fun y hy => absurd hy List.not_mem_nil) h
  | cons y xs ih =>
    by_cases hy : P y
    · obtain ⟨x, hx, hnot⟩ := ih fun hxs => h (List.forall_mem_cons.mpr ⟨hy, hxs⟩)
      exact ⟨x, behind_cons_iff.mpr (.inr ⟨hy, hx⟩), hnot⟩
    · exact ⟨y, behind_cons_iff.mpr (.inl rfl), hy⟩

end

/-! ## What is evaluated -/

/-- What a set of conditions consists of: conditions, and an expression. -/
inductive Check where
  | condition (condition : Condition)
  | expression (expression : String)
  deriving DecidableEq, Inhabited

/-- Whether a check is true. -/
def Check.eval (names : Names) : Check → Except Failure Bool
  | condition c => conditionHolds names c
  | expression e => evaluateBool names e

/-- The groups that have a condition. -/
def properGroups (s : ConditionSet) : List (List Condition) := s.groups.filter fun g => !g.isEmpty

/-- All conditions of a group are true. -/
def GroupMet (names : Names) (g : List Condition) : Prop := ∀ c ∈ g, conditionHolds names c = .ok true

/-- A condition of a group is reached: those before it are true. -/
def GroupReaches (names : Names) : List Condition → Condition → Prop :=
  Behind fun c => conditionHolds names c = .ok true

/-- A condition of a group is false where it is reached. -/
def GroupMissed (names : Names) (g : List Condition) : Prop :=
  ∃ c, GroupReaches names g c ∧ conditionHolds names c = .ok false

/-- A set of conditions reaches a check.

* `condition` — a condition of a group, when all groups before have turned out false.
* `alone` — the expression, when there is no condition.
* `expression` — the expression, when a group has turned out true, and all before it false. -/
inductive Reaches (names : Names) (s : ConditionSet) : Check → Prop
  | condition {g c} (group : Behind (GroupMissed names) (properGroups s) g)
    (inside : GroupReaches names g c) : Reaches names s (.condition c)
  | alone {e} (given : s.expression = some e) (none : properGroups s = []) :
    Reaches names s (.expression e)
  | expression {g e} (given : s.expression = some e)
    (group : Behind (GroupMissed names) (properGroups s) g) (met : GroupMet names g) :
    Reaches names s (.expression e)

/-- What it takes for a set of conditions to hold: it is not empty, all conditions of one of its groups
are true unless there is no condition, and so is the expression, if there is one. -/
def Met (names : Names) (s : ConditionSet) : Prop :=
  s.isEmpty = false ∧ (properGroups s = [] ∨ ∃ g ∈ properGroups s, GroupMet names g) ∧
    ∀ e ∈ s.expression, evaluateBool names e = .ok true

instance (names : Names) (g : List Condition) : Decidable (GroupMet names g) :=
  inferInstanceAs (Decidable (∀ c ∈ g, _))

instance (names : Names) (s : ConditionSet) : Decidable (Met names s) :=
  inferInstanceAs (Decidable (_ ∧ _ ∧ _))

/-- Every check that a set of conditions reaches is true or false. -/
def Answers (names : Names) (s : ConditionSet) : Prop :=
  ∀ k, Reaches names s k → ∃ b, k.eval names = .ok b

variable {names : Names} {g : List Condition} {gs : List (List Condition)} {c : Condition}
  {s : ConditionSet} {k : Check} {f : Failure}

/-! ## Groups -/

theorem groupHolds_of_met (h : GroupMet names g) : groupHolds names g = .ok true := by
  induction g with
  | nil => rfl
  | cons c g ih =>
    obtain ⟨hc, hg⟩ := List.forall_mem_cons.mp h
    rw [groupHolds, hc]
    exact ih hg

/-- A group has the outcome of the first condition that is not true. -/
theorem groupHolds_of_reaches (h : GroupReaches names g c) (hc : conditionHolds names c ≠ .ok true) :
    groupHolds names g = conditionHolds names c := by
  induction g with
  | nil => exact absurd h not_behind_nil
  | cons d g ih =>
    rw [groupHolds]
    rcases behind_cons_iff.mp h with rfl | ⟨hd, h⟩
    · cases hcond : conditionHolds names c with
      | error f => rfl
      | ok b =>
        cases b with
        | false => rfl
        | true => exact absurd hcond hc
    · rw [hd]
      exact ih h

/-- A group is met, missed, or fails as a condition does that it reaches. -/
theorem group_cases (names : Names) (g : List Condition) :
    GroupMet names g ∨ GroupMissed names g ∨
      ∃ c f, GroupReaches names g c ∧ conditionHolds names c = .error f := by
  by_cases h : GroupMet names g
  · exact .inl h
  · obtain ⟨c, hreach, hc⟩ := exists_behind_of_not_forall h
    cases hcond : conditionHolds names c with
    | error f => exact .inr (.inr ⟨c, f, hreach, hcond⟩)
    | ok b =>
      cases b with
      | false => exact .inr (.inl ⟨c, hreach, hcond⟩)
      | true => exact absurd hcond hc

theorem groupHolds_of_missed (h : GroupMissed names g) : groupHolds names g = .ok false := by
  obtain ⟨c, hreach, hc⟩ := h
  rw [groupHolds_of_reaches hreach (by simp [hc]), hc]

theorem groupMissed_iff : GroupMissed names g ↔ groupHolds names g = .ok false := by
  refine ⟨groupHolds_of_missed, fun h => ?_⟩
  rcases group_cases names g with hmet | hmissed | ⟨c, f, hreach, hc⟩
  · cases h.symm.trans (groupHolds_of_met hmet)
  · exact hmissed
  · rw [groupHolds_of_reaches hreach (by simp [hc]), hc] at h
    cases h

theorem someGroupHolds_of_missed (h : ∀ g ∈ gs, GroupMissed names g) :
    someGroupHolds names gs = .ok false := by
  induction gs with
  | nil => rfl
  | cons g gs ih =>
    obtain ⟨hg, hgs⟩ := List.forall_mem_cons.mp h
    rw [someGroupHolds, groupHolds_of_missed hg]
    exact ih hgs

/-- Groups have the outcome of the first one that is not missed. -/
theorem someGroupHolds_of_behind (h : Behind (GroupMissed names) gs g)
    (hg : ¬ GroupMissed names g) : someGroupHolds names gs = groupHolds names g := by
  induction gs with
  | nil => exact absurd h not_behind_nil
  | cons g' gs ih =>
    rw [someGroupHolds]
    rcases behind_cons_iff.mp h with rfl | ⟨hg', h⟩
    · cases hgroup : groupHolds names g with
      | error f => rfl
      | ok b =>
        cases b with
        | false => exact absurd (groupMissed_iff.mpr hgroup) hg
        | true => rfl
    · rw [groupHolds_of_missed hg']
      exact ih h

/-- The groups are missed, or the first one that is not is met or fails. -/
theorem groups_cases (names : Names) (gs : List (List Condition)) :
    (∀ g ∈ gs, GroupMissed names g) ∨ ∃ g, Behind (GroupMissed names) gs g ∧
      (GroupMet names g ∨ ∃ c f, GroupReaches names g c ∧ conditionHolds names c = .error f) := by
  by_cases h : ∀ g ∈ gs, GroupMissed names g
  · exact .inl h
  · obtain ⟨g, hreach, hg⟩ := exists_behind_of_not_forall h
    exact .inr ⟨g, hreach, (group_cases names g).imp_right fun h => h.resolve_left hg⟩

/-! ## Sets -/

/-- What the expression of a set says. A missing one does not object. -/
def expressionHolds (names : Names) : Option String → Except Failure Bool
  | none => .ok true
  | some e => evaluateBool names e

/-- The expression of a set that is not empty decides, unless there are groups and none of them holds. -/
theorem conditionsHold_eq (h : s.isEmpty = false) : conditionsHold names s =
    if (properGroups s).isEmpty then expressionHolds names s.expression
    else someGroupHolds names (properGroups s) >>=
      fun holds => if holds then expressionHolds names s.expression else .ok false := by
  unfold conditionsHold properGroups
  rw [if_neg (by simp [h])]
  dsimp only
  split_ifs
  · cases s.expression <;> simp only [expressionHolds, bind, Except.bind, if_true]
  · cases s.expression <;> simp only [expressionHolds]

theorem conditionsHold_of_alone (h : s.isEmpty = false) (hnone : properGroups s = []) :
    conditionsHold names s = expressionHolds names s.expression := by
  rw [conditionsHold_eq h, hnone]
  rfl

theorem conditionsHold_of_groups (h : s.isEmpty = false) (hsome : properGroups s ≠ []) :
    conditionsHold names s = someGroupHolds names (properGroups s) >>=
      fun holds => if holds then expressionHolds names s.expression else .ok false := by
  rw [conditionsHold_eq h, if_neg (by simpa using hsome)]

/-- A set that reaches a check is not empty. -/
theorem Reaches.isEmpty (h : Reaches names s k) : s.isEmpty = false := by
  have inside {g : List Condition} (hg : g ∈ properGroups s) : s.isEmpty = false := by
    obtain ⟨hg, hne⟩ := List.mem_filter.mp hg
    rw [ConditionSet.isEmpty, Bool.and_eq_false_iff]
    exact .inr (List.all_eq_false.mpr ⟨g, hg, by simpa using hne⟩)
  cases h with
  | condition group => exact inside group.mem
  | alone given => simp [ConditionSet.isEmpty, given]
  | expression given group => exact inside group.mem

theorem not_missed_of_met (h : GroupMet names g) : ¬ GroupMissed names g := fun h' => by
  cases (groupHolds_of_met h).symm.trans (groupHolds_of_missed h')

/-- Once a group is met, the expression decides. -/
theorem conditionsHold_of_group (h : s.isEmpty = false)
    (hgroup : Behind (GroupMissed names) (properGroups s) g) (hmet : GroupMet names g) :
    conditionsHold names s = expressionHolds names s.expression := by
  rw [conditionsHold_of_groups h (List.ne_nil_of_mem hgroup.mem),
    someGroupHolds_of_behind hgroup (not_missed_of_met hmet), groupHolds_of_met hmet]
  rfl

/-- The set fails as a check that it reaches. -/
theorem conditionsHold_of_failure (h : Reaches names s k) (hk : k.eval names = .error f) :
    conditionsHold names s = .error f := by
  have hempty := h.isEmpty
  cases h with
  | @condition g c hgroup hinside =>
    have hc : conditionHolds names c = .error f := hk
    have hg : groupHolds names g = .error f :=
      (groupHolds_of_reaches hinside (by simp [hc])).trans hc
    have hmissed : ¬ GroupMissed names g := fun h => by
      cases hg.symm.trans (groupHolds_of_missed h)
    rw [conditionsHold_of_groups hempty (List.ne_nil_of_mem hgroup.mem),
      someGroupHolds_of_behind hgroup hmissed, hg]
    rfl
  | alone given hnone =>
    rw [conditionsHold_of_alone hempty hnone, given]
    exact hk
  | expression given hgroup hmet =>
    rw [conditionsHold_of_group hempty hgroup hmet, given]
    exact hk

/-- If the groups of a set do not stand in the way, the expression decides: it fails, or says whether
the set is met. -/
theorem expression_cases (hempty : s.isEmpty = false)
    (hgroups : properGroups s = [] ∨ ∃ g ∈ properGroups s, GroupMet names g)
    (hreach : ∀ e, s.expression = some e → Reaches names s (.expression e)) :
    (∃ k f, Reaches names s k ∧ k.eval names = .error f) ∨
      expressionHolds names s.expression = .ok (decide (Met names s)) := by
  have hmet : Met names s ↔ ∀ e, s.expression = some e → evaluateBool names e = .ok true :=
    ⟨fun h => h.2.2, fun h => ⟨hempty, hgroups, h⟩⟩
  cases hexpr : s.expression with
  | none =>
    have : Met names s := hmet.mpr fun e he => by cases hexpr.symm.trans he
    exact .inr (by rw [decide_eq_true this]; rfl)
  | some e =>
    cases he : evaluateBool names e with
    | error f => exact .inl ⟨_, f, hreach e hexpr, he⟩
    | ok b =>
      have hb : b = decide (Met names s) := by
        rw [← Bool.decide_coe b, decide_eq_decide, hmet]
        simp [hexpr, he]
      exact .inr (he.trans (congrArg _ hb))

/-- A set fails because of a check that it reaches, or says whether it is met. -/
theorem conditionsHold_cases (names : Names) (s : ConditionSet) :
    (∃ k f, Reaches names s k ∧ k.eval names = .error f) ∨
      conditionsHold names s = .ok (decide (Met names s)) := by
  cases hempty : s.isEmpty with
  | true =>
    have hmet : ¬ Met names s := fun h => by cases h.1.symm.trans hempty
    exact .inr (by rw [decide_eq_false hmet, conditionsHold, if_pos hempty])
  | false =>
    by_cases hnone : properGroups s = []
    · rw [conditionsHold_of_alone hempty hnone]
      exact expression_cases hempty (.inl hnone) fun e he => .alone he hnone
    rcases groups_cases names (properGroups s) with hmissed | ⟨g, hgroup, hmet | ⟨c, f, hc, hf⟩⟩
    · have hmet : ¬ Met names s := by
        rintro ⟨-, hgroups | ⟨g, hg, hmet⟩, -⟩
        · exact hnone hgroups
        · exact not_missed_of_met hmet (hmissed g hg)
      refine .inr ?_
      rw [conditionsHold_of_groups hempty hnone, someGroupHolds_of_missed hmissed,
        decide_eq_false hmet]
      rfl
    · rw [conditionsHold_of_group hempty hgroup hmet]
      exact expression_cases hempty (.inr ⟨g, hgroup.mem, hmet⟩)
        fun e he => .expression he hgroup hmet
    · exact .inl ⟨.condition c, f, .condition hgroup hc, hf⟩

/-- A set of conditions fails exactly as a check does that it reaches. -/
theorem conditionsHold_error_iff : conditionsHold names s = .error f ↔
    ∃ k, Reaches names s k ∧ k.eval names = .error f := by
  refine ⟨fun h => ?_, fun ⟨k, hreach, hk⟩ => conditionsHold_of_failure hreach hk⟩
  rcases conditionsHold_cases names s with ⟨k, f', hreach, hk⟩ | hok
  · cases h.symm.trans (conditionsHold_of_failure hreach hk)
    exact ⟨k, hreach, hk⟩
  · cases h.symm.trans hok

/-- A set of conditions whose checks have answers, as far as it reaches them, says whether it is met. -/
theorem conditionsHold_of_answers (h : Answers names s) :
    conditionsHold names s = .ok (decide (Met names s)) := by
  refine (conditionsHold_cases names s).resolve_left fun ⟨k, f, hreach, hk⟩ => ?_
  obtain ⟨b, hb⟩ := h k hreach
  cases hb.symm.trans hk

/-- Where a set of conditions has an outcome, every check has an answer that it reaches. -/
theorem Answers.of_ok {b : Bool} (h : conditionsHold names s = .ok b) : Answers names s := by
  intro k hreach
  cases hk : k.eval names with
  | error f => cases h.symm.trans (conditionsHold_of_failure hreach hk)
  | ok b => exact ⟨b, rfl⟩

end FlowEngine.Template
