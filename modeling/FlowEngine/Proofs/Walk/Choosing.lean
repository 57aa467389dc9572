import FlowEngine.Engine.Split
import FlowEngine.Proofs.Template.Conditions

/-!
# Choosing the branches of a split

The branches with conditions are tried in order, all of them or up to the first one that is met; the
others are for the case that none is met, and conditions of theirs are not evaluated.

* `Tries` — the checks that the choice comes to.
* `selection` — the branches that are to be taken.
* `chooseBranches_selects` — these are chosen, unless a check fails that the choice comes to.
-/

namespace FlowEngine.Engine

open FlowEngine.Flow FlowEngine.Template
open FlowEngine.Expr (Names)

/-- The choice goes on behind a branch: no check fails in it, and it is not the one branch that is looked
for. -/
def PassedBy (names : Names) (execution : SplitExecution) (b : SplitBranch) : Prop :=
  b.kind = .condition → Answers names b.condition ∧
    (execution = .firstMatch → ¬ Met names b.condition)

/-- The choice comes to a check of a branch: it goes on behind the branches before, the branch is one with
conditions, and these reach the check. -/
structure Tries (names : Names) (execution : SplitExecution) (branches : List SplitBranch)
    (b : SplitBranch) (k : Check) : Prop where
  branch : Behind (PassedBy names execution) branches b
  kind : b.kind = .condition
  check : Reaches names b.condition k

/-- The branches with conditions whose conditions are met, in order. -/
def metBranches (names : Names) (branches : List SplitBranch) : List SplitBranch :=
  branches.filter fun b => decide (b.kind = .condition ∧ Met names b.condition)

/-- All branches that are met, or the first one of them. -/
def matched (names : Names) (execution : SplitExecution) (branches : List SplitBranch) :
    List SplitBranch :=
  match execution with
  | .allMatches => metBranches names branches
  | .firstMatch => (metBranches names branches).take 1

/-- The branches that are to be taken: those that are met, all of them or the first one, and if there is
none, the first one that is meant for this case. -/
def selection (names : Names) (execution : SplitExecution) (branches : List SplitBranch) :
    List SplitBranch :=
  if matched names execution branches = [] then
    (branches.find? fun b => decide (b.kind = .fallback)).toList
  else matched names execution branches

variable {names : Names} {execution : SplitExecution} {branches rest : List SplitBranch}
  {b b' : SplitBranch} {k : Check} {f : Failure}

/-! ## Branches in order -/

theorem Tries.cons (hb : PassedBy names execution b) (h : Tries names execution rest b' k) :
    Tries names execution (b :: rest) b' k :=
  ⟨behind_cons_iff.mpr (.inr ⟨hb, h.branch⟩), h.kind, h.check⟩

theorem metBranches_cons_neg (h : ¬ (b.kind = .condition ∧ Met names b.condition)) :
    metBranches names (b :: rest) = metBranches names rest :=
  List.filter_cons_of_neg (by simpa using h)

theorem matched_cons_neg (h : ¬ (b.kind = .condition ∧ Met names b.condition)) :
    matched names execution (b :: rest) = matched names execution rest := by
  unfold matched
  rw [metBranches_cons_neg h]

theorem metBranches_cons_pos (hkind : b.kind = .condition) (h : Met names b.condition) :
    metBranches names (b :: rest) = b :: metBranches names rest :=
  List.filter_cons_of_pos (by simp [hkind, h])

theorem matchingBranches_fallback (h : b.kind = .fallback) :
    matchingBranches names execution (b :: rest) = matchingBranches names execution rest := by
  rw [matchingBranches.eq_def]
  simp only [h]

theorem matchingBranches_missed (hkind : b.kind = .condition)
    (h : conditionsHold names b.condition = .ok false) :
    matchingBranches names execution (b :: rest) = matchingBranches names execution rest := by
  rw [matchingBranches.eq_def]
  simp only [hkind, h]
  rfl

theorem matchingBranches_all (hkind : b.kind = .condition)
    (h : conditionsHold names b.condition = .ok true) :
    matchingBranches names .allMatches (b :: rest) =
      (matchingBranches names .allMatches rest).map (b.name :: ·) := by
  rw [matchingBranches.eq_def]
  simp only [hkind, h]
  cases matchingBranches names .allMatches rest <;> rfl

theorem matchingBranches_first (hkind : b.kind = .condition)
    (h : conditionsHold names b.condition = .ok true) :
    matchingBranches names .firstMatch (b :: rest) = .ok [b.name] := by
  rw [matchingBranches.eq_def]
  simp only [hkind, h]
  rfl

theorem matchingBranches_error (hkind : b.kind = .condition)
    (h : conditionsHold names b.condition = .error f) :
    matchingBranches names execution (b :: rest) = .error (ChoiceFailure.of b.name f) := by
  rw [matchingBranches.eq_def]
  simp only [hkind, h]
  rfl

/-- Behind a branch that is passed, the rest decides. -/
theorem matchingBranches_passedBy (h : PassedBy names execution b) (rest : List SplitBranch) :
    matchingBranches names execution (b :: rest) = matchingBranches names execution rest ∨
      matchingBranches names execution (b :: rest) =
        (matchingBranches names execution rest).map (b.name :: ·) := by
  cases hkind : b.kind with
  | fallback => exact .inl (matchingBranches_fallback hkind)
  | condition =>
    obtain ⟨hanswers, hfirst⟩ := h hkind
    have hholds := conditionsHold_of_answers hanswers
    by_cases hmet : Met names b.condition
    · rw [decide_eq_true hmet] at hholds
      cases execution with
      | allMatches => exact .inr (matchingBranches_all hkind hholds)
      | firstMatch => exact absurd hmet (hfirst rfl)
    · rw [decide_eq_false hmet] at hholds
      exact .inl (matchingBranches_missed hkind hholds)

/-- If no check fails that the choice comes to, then the branches that are met match. -/
theorem matchingBranches_of_answers
    (h : ∀ b k, Tries names execution branches b k → ∃ holds, k.eval names = .ok holds) :
    matchingBranches names execution branches =
      .ok ((matched names execution branches).map SplitBranch.name) := by
  induction branches with
  | nil => cases execution <;> rfl
  | cons b rest ih =>
    have later (hb : PassedBy names execution b) : matchingBranches names execution rest =
        .ok ((matched names execution rest).map SplitBranch.name) :=
      ih fun b' k htries => h b' k (htries.cons hb)
    cases hkind : b.kind with
    | fallback =>
      have hpassed : PassedBy names execution b := fun hk => by cases hk.symm.trans hkind
      rw [matchingBranches_fallback hkind, later hpassed, matched_cons_neg (by simp [hkind])]
    | condition =>
      have hanswers : Answers names b.condition := fun k hreach =>
        h b k ⟨behind_cons_iff.mpr (.inl rfl), hkind, hreach⟩
      have hholds := conditionsHold_of_answers hanswers
      by_cases hmet : Met names b.condition
      · rw [decide_eq_true hmet] at hholds
        cases execution with
        | firstMatch =>
          rw [matchingBranches_first hkind hholds, matched, metBranches_cons_pos hkind hmet]
          rfl
        | allMatches =>
          have hpassed : PassedBy names .allMatches b :=
            fun _ => ⟨hanswers, fun hfirst => by cases hfirst⟩
          rw [matchingBranches_all hkind hholds, later hpassed, matched, matched,
            metBranches_cons_pos hkind hmet]
          rfl
      · rw [decide_eq_false hmet] at hholds
        rw [matchingBranches_missed hkind hholds, later fun _ => ⟨hanswers, fun _ => hmet⟩,
          matched_cons_neg (by simp [hmet])]

/-- If a check fails that the choice comes to, then so does the choice. -/
theorem matchingBranches_of_failure (h : Tries names execution branches b k)
    (hk : k.eval names = .error f) :
    matchingBranches names execution branches = .error (ChoiceFailure.of b.name f) := by
  induction branches with
  | nil => exact absurd h.branch not_behind_nil
  | cons b' rest ih =>
    rcases behind_cons_iff.mp h.branch with rfl | ⟨hpassed, hbehind⟩
    · exact matchingBranches_error h.kind (conditionsHold_of_failure h.check hk)
    · have hrest := ih ⟨hbehind, h.kind, h.check⟩
      rcases matchingBranches_passedBy hpassed rest with heq | heq
      · rw [heq, hrest]
      · rw [heq, hrest]
        rfl

/-- If branches match, then no check failed that the choice came to. -/
theorem tries_of_matching (taken : List String)
    (h : matchingBranches names execution branches = .ok taken) :
    ∀ b k, Tries names execution branches b k → ∃ holds, k.eval names = .ok holds := by
  intro b k htries
  cases hk : k.eval names with
  | error f => cases h.symm.trans (matchingBranches_of_failure htries hk)
  | ok holds => exact ⟨holds, rfl⟩

/-! ## Other branches -/

/-- A branch with other conditions, if it is for the case that no other one is taken. -/
def SplitBranch.withFallback (swap : SplitBranch → ConditionSet) (b : SplitBranch) : SplitBranch :=
  match b.kind with
  | .condition => b
  | .fallback => { b with condition := swap b }

theorem withFallback_name (swap : SplitBranch → ConditionSet) (b : SplitBranch) :
    (SplitBranch.withFallback swap b).name = b.name := by
  unfold SplitBranch.withFallback
  split <;> rfl

theorem withFallback_kind (swap : SplitBranch → ConditionSet) (b : SplitBranch) :
    (SplitBranch.withFallback swap b).kind = b.kind := by
  unfold SplitBranch.withFallback
  split <;> rfl

theorem matchingBranches_withFallback (swap : SplitBranch → ConditionSet) :
    matchingBranches names execution (branches.map (SplitBranch.withFallback swap)) =
      matchingBranches names execution branches := by
  induction branches with
  | nil => rfl
  | cons b rest ih =>
    rw [List.map_cons]
    cases hkind : b.kind with
    | fallback =>
      rw [matchingBranches_fallback ((withFallback_kind swap b).trans hkind),
        matchingBranches_fallback hkind, ih]
    | condition =>
      have hsame : SplitBranch.withFallback swap b = b := by
        unfold SplitBranch.withFallback
        rw [hkind]
      rw [hsame, matchingBranches.eq_def, matchingBranches.eq_def _ _ (b :: rest)]
      simp only [ih]

/-! ## The choice -/

theorem chooseBranches_of_matching {bs : List SplitBranch}
    (h : matchingBranches names execution branches = .ok (bs.map SplitBranch.name)) :
    chooseBranches names execution branches = .ok ((if bs = [] then
      (branches.find? fun b => decide (b.kind = .fallback)).toList else bs).map SplitBranch.name) := by
  unfold chooseBranches
  rw [h]
  change (if (bs.map SplitBranch.name).isEmpty then _ else _) = _
  cases bs with
  | nil =>
    have hfind : (fun b : SplitBranch => b.kind == .fallback) =
        fun b => decide (b.kind = .fallback) := rfl
    rw [if_pos (by rfl), if_pos rfl, hfind]
    cases branches.find? fun b => decide (b.kind = .fallback) <;> rfl
  | cons b bs =>
    rw [if_neg (by simp), if_neg (by simp)]

theorem chooseBranches_of_failure {failure : ChoiceFailure}
    (h : matchingBranches names execution branches = .error failure) :
    chooseBranches names execution branches = .error failure := by
  unfold chooseBranches
  rw [h]
  rfl

theorem chooseBranches_withFallback (swap : SplitBranch → ConditionSet) :
    chooseBranches names execution (branches.map (SplitBranch.withFallback swap)) =
      chooseBranches names execution branches := by
  have hfind : (branches.map (SplitBranch.withFallback swap)).find? (fun b => b.kind == .fallback) =
      (branches.find? fun b => b.kind == .fallback).map (SplitBranch.withFallback swap) := by
    rw [List.find?_map]
    congr 2
    funext b
    rw [Function.comp_apply, withFallback_kind]
  unfold chooseBranches
  rw [matchingBranches_withFallback, hfind]
  cases matchingBranches names execution branches with
  | error failure => rfl
  | ok taken =>
    cases branches.find? fun b => b.kind == .fallback with
    | none => rfl
    | some b => simp [withFallback_name]

/-- If no check that the choice comes to fails, then the branches are chosen that are to be taken, and
otherwise the choice fails as that check does, with the name of the branch; a crash is one of the whole
program. Conditions of branches that are for the case that none is met do not matter. -/
theorem chooseBranches_selects (names : Names) (execution : SplitExecution)
    (branches : List SplitBranch) :
    ((∀ b k, Tries names execution branches b k → ∃ holds, k.eval names = .ok holds) →
      chooseBranches names execution branches =
        .ok ((selection names execution branches).map SplitBranch.name)) ∧
    (∀ b k e, Tries names execution branches b k → k.eval names = .error (.error e) →
      chooseBranches names execution branches =
        .error (.message ("branch '" ++ b.name ++ "': " ++ e.message))) ∧
    (∀ b k, Tries names execution branches b k → k.eval names = .error .crash →
      chooseBranches names execution branches = .error .crash) ∧
    ∀ swap, chooseBranches names execution (branches.map (SplitBranch.withFallback swap)) =
      chooseBranches names execution branches := by
  refine ⟨fun h => ?_, fun b k e h hk => ?_, fun b k h hk => ?_,
    fun swap => chooseBranches_withFallback swap⟩
  · exact chooseBranches_of_matching (matchingBranches_of_answers h)
  · exact chooseBranches_of_failure (matchingBranches_of_failure h hk)
  · exact chooseBranches_of_failure (matchingBranches_of_failure h hk)

/-! ## An example

Orders are sorted by amount. -/

/-- An order. -/
def orderScope : Scope :=
  .ofSteps [("order", .action ⟨.succeeded, .null, none, none⟩ (.obj [("amount", .int 250)]))]

/-- The amount is large. -/
def isLarge : Condition := ⟨.str "\x7b\x7border.amount\x7d\x7d", .numberIsGreaterThan, .int 100, false⟩

/-- There is a discount. -/
def isReduced : Condition := ⟨.str "\x7b\x7border.discount\x7d\x7d", .exists, .null, false⟩

/-- The amount is true, which cannot be said of a number. -/
def isMistaken : Condition := ⟨.str "\x7b\x7border.amount\x7d\x7d", .booleanIsTrue, .null, false⟩

/-- Large orders, and reduced ones with a mistake. -/
def largeBranch : SplitBranch := ⟨"large", .condition, ⟨[[isReduced, isMistaken], [], [isLarge]], none⟩⟩

/-- Orders with a mistake. -/
def mistakenBranch : SplitBranch := ⟨"odd", .condition, ⟨[[isMistaken]], some "true"⟩⟩

/-- All other orders. -/
def otherBranch : SplitBranch := ⟨"other", .fallback, ⟨[[isMistaken]], none⟩⟩

/-- A mistake does not matter where it is not reached: behind a condition that is false, behind the first
branch that is met, and in the branch for all other orders. -/
theorem orders_sorted :
    chooseBranches (orderScope.names ⟨0, 0⟩) .allMatches [otherBranch, largeBranch] = .ok ["large"] ∧
    chooseBranches (orderScope.names ⟨0, 0⟩) .firstMatch [largeBranch, mistakenBranch] =
      .ok ["large"] ∧
    chooseBranches (orderScope.names ⟨0, 0⟩) .allMatches [largeBranch, mistakenBranch] =
      .error (.message "branch 'odd': type mismatch: expected boolean, got number") ∧
    chooseBranches (orderScope.names ⟨0, 0⟩) .firstMatch [otherBranch] = .ok ["other"] := by
  have hall := (chooseBranches_selects (orderScope.names ⟨0, 0⟩) .allMatches
    [otherBranch, largeBranch]).1 (tries_of_matching ["large"] (by decide +kernel))
  have hfirst := (chooseBranches_selects (orderScope.names ⟨0, 0⟩) .firstMatch
    [largeBranch, mistakenBranch]).1 (tries_of_matching ["large"] (by decide +kernel))
  have hother := (chooseBranches_selects (orderScope.names ⟨0, 0⟩) .firstMatch
    [otherBranch]).1 (tries_of_matching [] (by decide))
  have hpassed : PassedBy (orderScope.names ⟨0, 0⟩) .allMatches largeBranch := fun _ =>
    ⟨.of_ok (b := true) (by decide +kernel), by decide⟩
  have hmistake : Tries (orderScope.names ⟨0, 0⟩) .allMatches [largeBranch, mistakenBranch]
      mistakenBranch (.condition isMistaken) :=
    ⟨behind_cons_iff.mpr (.inr ⟨hpassed, behind_cons_iff.mpr (.inl rfl)⟩), rfl,
      .condition (behind_cons_iff.mpr (.inl rfl)) (behind_cons_iff.mpr (.inl rfl))⟩
  have hfails := (chooseBranches_selects (orderScope.names ⟨0, 0⟩) .allMatches
    [largeBranch, mistakenBranch]).2.1 _ _ (.typeMismatch "boolean" "number") hmistake
    (by decide +kernel)
  refine ⟨hall.trans (by decide +kernel), hfirst.trans (by decide +kernel),
    hfails.trans (by decide +kernel), hother.trans (by decide)⟩

end FlowEngine.Engine
