import FlowEngine.Flow.Validate
import FlowEngine.Proofs.Flow.Traversal
import Mathlib.Data.List.Nodup

/-!
# Valid flows

The rules for flows, said of the tree of steps and not of its traversal. Every violation of a rule is
somewhere: at a step, by its number in the order of the recursion, at a rule, and at a branch if the
rule is about the branches of a split.

* `Version.Valid` — no rule is violated.
* `ProblemAt` — a violation of a rule, with the problem that it is.
* `validate_exact` — what is reported are the violations, each once, in their order.
* `allSteps_eq` — a valid flow begins with its trigger, and nothing is inside that.
* `stepNames_nodup`, `isTrigger_eq_false`, `isStepName_of_mem` — what holds of the steps of a valid
  flow, wherever they are.
-/

namespace FlowEngine.Flow

/-! ## Rules -/

/-- All steps of a flow in the order of the recursion. -/
def Version.inOrder (v : Version) : List Step := (places v.steps).map Prod.fst

/-- A text without anything but blanks. -/
def AllBlank (s : String) : Prop := ∀ c ∈ s.toList, Text.isBlank c = true

/-- The characters that the name of a step can begin with: `A-Z`, `a-z` and `_`. -/
def BeginsName (c : Char) : Prop := ('A' ≤ c ∧ c ≤ 'Z') ∨ ('a' ≤ c ∧ c ≤ 'z') ∨ c = '_'

/-- The names that a step can have: `[A-Za-z_][A-Za-z0-9_]*`. -/
def ProperName (name : String) : Prop := ∃ c rest, name.toList = c :: rest ∧ BeginsName c ∧
  ∀ d ∈ rest, BeginsName d ∨ ('0' ≤ d ∧ d ≤ '9')

/-- The settings of a step name all that they have to. -/
def Step.Complete : Step → Prop
  | .trigger _ .empty => True
  | .trigger _ (.block blockName triggerName _) => blockName ≠ "" ∧ triggerName ≠ ""
  | .action _ a =>
    match a.work with
    | .block blockName actionName => blockName ≠ "" ∧ actionName ≠ ""
    | .code source => ¬ AllBlank source
  | .branch _ c _ _ => (∃ e, c.expression = some e) ∨ ∃ group ∈ c.groups, ∃ x, x ∈ group
  | .split _ _ branches => (∀ b ∈ branches, ¬ AllBlank b.1.name) ∧
    (branches.map fun b => b.1.name).Nodup ∧ branches.countP (fun b => b.1.kind = .fallback) ≤ 1
  | .loop _ _ _ => True

/-- No rule for flows is violated. -/
structure Version.Valid (v : Version) : Prop where
  distinct : (v.inOrder.map Step.name).Nodup
  named : ∀ s ∈ v.inOrder, ProperName s.name
  begins : v.first.isTrigger = true
  onlyFirst : ∀ s ∈ v.inOrder.tail, s.isTrigger = false
  complete : ∀ s ∈ v.inOrder, s.Complete

/-! ## Violations -/

/-- What is wrong with a branch of a split, at its number. A name counts as repeated where an earlier
branch has it. -/
inductive BranchProblem (step : String) (branches : List SplitBranch) : List Nat → Problem → Prop
  | unnamed {j : Nat} {b : SplitBranch} (here : branches[j]? = some b) (blank : AllBlank b.name) :
    BranchProblem step branches [j] (.unnamedBranch step)
  | duplicate {j k : Nat} {b b' : SplitBranch} (here : branches[j]? = some b)
    (named : ¬ AllBlank b.name) (earlier : k < j) (there : branches[k]? = some b')
    (same : b'.name = b.name) : BranchProblem step branches [j] (.duplicateBranch step b.name)

/-- What is wrong with the settings of a step. -/
inductive SettingsProblem : Step → List Nat → Problem → Prop
  | incompleteTrigger {l : Label} {blockName triggerName : String} {input : Json}
    (h : blockName = "" ∨ triggerName = "") :
    SettingsProblem (.trigger l (.block blockName triggerName input)) [] (.incompleteTrigger l.name)
  | incompleteBlock {l : Label} {a : Action} {blockName actionName : String}
    (work : a.work = .block blockName actionName) (h : blockName = "" ∨ actionName = "") :
    SettingsProblem (.action l a) [] (.incompleteBlock l.name)
  | missingSource {l : Label} {a : Action} {source : String} (work : a.work = .code source)
    (h : AllBlank source) : SettingsProblem (.action l a) [] (.missingSource l.name)
  | noConditions {l : Label} {c : ConditionSet} {onSuccess onFailure : List Step}
    (h : c.expression = none) (h' : ∀ group ∈ c.groups, group = []) :
    SettingsProblem (.branch l c onSuccess onFailure) [] (.noConditions l.name)
  | branch {l : Label} {settings : SplitSettings} {branches : List (SplitBranch × List Step)}
    {a : List Nat} {p : Problem} (h : BranchProblem l.name (branches.map Prod.fst) a p) :
    SettingsProblem (.split l settings branches) (0 :: a) p
  | manyFallbacks {l : Label} {settings : SplitSettings}
    {branches : List (SplitBranch × List Step)}
    (h : 1 < branches.countP fun b => b.1.kind = .fallback) :
    SettingsProblem (.split l settings branches) [1]
      (.manyFallbacks l.name (branches.countP fun b => b.1.kind = .fallback))

/-- What is wrong with a step, at its number and that of the rule. A name counts as repeated where an
earlier step has it. -/
inductive ProblemAt (steps : List Step) : List Nat → Problem → Prop
  | firstIsNoTrigger {s : Step} (here : steps[0]? = some s) (h : s.isTrigger = false) :
    ProblemAt steps [0, 0] (.firstIsNoTrigger s.name)
  | duplicateName {i j : Nat} {s t : Step} (here : steps[i]? = some s) (earlier : j < i)
    (there : steps[j]? = some t) (same : t.name = s.name) :
    ProblemAt steps [i, 1] (.duplicateName s.name)
  | badName {i : Nat} {s : Step} (here : steps[i]? = some s) (h : ¬ ProperName s.name) :
    ProblemAt steps [i, 2] (.badName s.name)
  | lateTrigger {i : Nat} {s : Step} (here : steps[i]? = some s) (later : 0 < i)
    (h : s.isTrigger = true) : ProblemAt steps [i, 3] (.lateTrigger s.name)
  | settings {i : Nat} {s : Step} {a : List Nat} {p : Problem} (here : steps[i]? = some s)
    (h : SettingsProblem s a p) : ProblemAt steps (i :: 4 :: a) p

/-! ## Texts -/

theorem isBlankText_iff {s : String} : isBlankText s = true ↔ AllBlank s := List.all_eq_true

theorem beginsName_iff (c : Char) : (c.isAlpha || c == '_') = true ↔ BeginsName c := by
  have hupper : c.isUpper = true ↔ 'A' ≤ c ∧ c ≤ 'Z' := decide_eq_true_iff
  have hlower : c.isLower = true ↔ 'a' ≤ c ∧ c ≤ 'z' :=
    (Bool.and_eq_true_iff).trans (and_congr decide_eq_true_iff decide_eq_true_iff)
  have halpha : c.isAlpha = (c.isUpper || c.isLower) := rfl
  rw [halpha, Bool.or_eq_true, Bool.or_eq_true, hupper, hlower, beq_iff_eq, BeginsName, or_assoc]

theorem continuesName_iff (c : Char) :
    (c.isAlphanum || c == '_') = true ↔ BeginsName c ∨ ('0' ≤ c ∧ c ≤ '9') := by
  rw [← beginsName_iff, Char.isAlphanum, Bool.or_right_comm, Bool.or_eq_true]
  simp [Char.isDigit, Char.le_def]

theorem isStepName_iff {name : String} : isStepName name = true ↔ ProperName name := by
  unfold isStepName ProperName
  cases h : name.toList with
  | nil => simp
  | cons c rest =>
    simp only [Bool.and_eq_true, beginsName_iff, List.all_eq_true, continuesName_iff]
    constructor
    · exact fun ⟨hc, hrest⟩ => ⟨c, rest, rfl, hc, hrest⟩
    · rintro ⟨_, _, ⟨⟩, hc, hrest⟩
      exact ⟨hc, hrest⟩

/-! ## What is reported of settings -/

theorem Enumerates.check {α : Type} (c : Prop) [Decidable c] (a : List Nat) (x : α) :
    Enumerates (fun b y => c ∧ b = a ∧ y = x) (if c then [x] else []) := by
  split_ifs with h
  · exact (singleton a x).congr fun b y => by simp [h]
  · exact .nil fun b y hy => h hy.1

theorem branchProblems_cons (step : String) (seen : List String) (b : SplitBranch)
    (rest : List SplitBranch) : branchProblems step seen (b :: rest) =
      (if isBlankText b.name then [.unnamedBranch step]
        else if seen.contains b.name then [.duplicateBranch step b.name] else []) ++
      branchProblems step
        (if isBlankText b.name || seen.contains b.name then seen else b.name :: seen) rest := by
  rw [branchProblems]
  cases isBlankText b.name <;> cases seen.contains b.name <;> rfl

theorem mem_remembered {seen : List String} {b : SplitBranch} {n : String} (hn : ¬ AllBlank n) :
    n ∈ (if isBlankText b.name || seen.contains b.name then seen else b.name :: seen) ↔
      n ∈ seen ∨ b.name = n := by
  split_ifs with h
  · rw [Bool.or_eq_true, isBlankText_iff, List.contains_iff_mem] at h
    refine (or_iff_left_of_imp ?_).symm
    rintro rfl
    exact h.resolve_left hn
  · rw [List.mem_cons, or_comm, eq_comm]

/-- The names of the branches before are remembered, but for blank ones. -/
theorem enumerates_branchProblems {step : String} (before : List SplitBranch)
    {after : List SplitBranch} {seen : List String}
    (hseen : ∀ n, ¬ AllBlank n → (n ∈ seen ↔ ∃ b ∈ before, b.name = n)) :
    Enumerates (From (BranchProblem step (before ++ after)) before.length)
      (branchProblems step seen after) := by
  induction after generalizing before seen with
  | nil =>
    refine .nil ?_
    rintro _ p ⟨h, i, b, rfl, hi⟩
    cases h with
    | unnamed here => simp [List.getElem?_eq_none hi] at here
    | duplicate here => simp [List.getElem?_eq_none hi] at here
  | cons b after ih =>
    have hhere {b' : SplitBranch} (here : (before ++ b :: after)[before.length]? = some b') :
        b' = b := by simpa using here.symm
    rw [branchProblems_cons]
    refine .next ?_ ?_
    · by_cases hblank : AllBlank b.name
      · rw [if_pos (isBlankText_iff.mpr hblank)]
        refine (Enumerates.singleton [] _).congr fun a p => ⟨?_, fun h => ?_⟩
        · rintro ⟨rfl, rfl⟩
          exact .unnamed (by simp) hblank
        · cases h with
          | unnamed => exact ⟨rfl, rfl⟩
          | duplicate here named => exact absurd hblank (hhere here ▸ named)
      · rw [if_neg (mt isBlankText_iff.mp hblank)]
        refine (Enumerates.check _ [] _).congr fun a p => ?_
        rw [List.contains_iff_mem, hseen b.name hblank]
        constructor
        · rintro ⟨⟨b', hb', same⟩, rfl, rfl⟩
          obtain ⟨k, hk⟩ := List.getElem?_of_mem hb'
          obtain ⟨hlt, -⟩ := List.getElem?_eq_some_iff.mp hk
          exact .duplicate (by simp) hblank hlt (by rw [List.getElem?_append_left hlt, hk]) same
        · intro h
          cases h with
          | unnamed here blank => exact absurd (hhere here ▸ blank) hblank
          | @duplicate _ k _ b' here _ earlier there same =>
            cases hhere here
            rw [List.getElem?_append_left earlier] at there
            exact ⟨⟨b', List.mem_of_getElem? there, same⟩, rfl, rfl⟩
    · have hrest := @ih (before ++ [b])
        (if isBlankText b.name || seen.contains b.name then seen else b.name :: seen) ?_
      · simpa using hrest
      · intro n hn
        rw [mem_remembered hn, hseen n hn]
        simp [or_and_right, exists_or]

theorem enumerates_settings (s : Step) : Enumerates (SettingsProblem s) (settingsProblems s) := by
  cases s with
  | trigger l t =>
    cases t with
    | empty => exact .nil fun a p => nofun
    | block blockName triggerName input =>
      refine (Enumerates.check _ [] _).congr fun a p => ⟨?_, fun h => ?_⟩
      · rintro ⟨h, rfl, rfl⟩
        exact .incompleteTrigger h
      · cases h with
        | incompleteTrigger h => exact ⟨h, rfl, rfl⟩
  | action l a =>
    cases hwork : a.work with
    | block blockName actionName =>
      simp only [settingsProblems, hwork]
      refine (Enumerates.check _ [] _).congr fun b p => ⟨?_, fun h => ?_⟩
      · rintro ⟨h, rfl, rfl⟩
        exact .incompleteBlock hwork h
      · cases h with
        | incompleteBlock work h => cases hwork.symm.trans work; exact ⟨h, rfl, rfl⟩
        | missingSource work => cases hwork.symm.trans work
    | code source =>
      simp only [settingsProblems, hwork]
      refine (Enumerates.check _ [] _).congr fun b p => ⟨?_, fun h => ?_⟩
      · rintro ⟨h, rfl, rfl⟩
        exact .missingSource hwork (isBlankText_iff.mp h)
      · cases h with
        | incompleteBlock work => cases hwork.symm.trans work
        | missingSource work h =>
          cases hwork.symm.trans work
          exact ⟨isBlankText_iff.mpr h, rfl, rfl⟩
  | branch l c onSuccess onFailure =>
    have hempty : c.isEmpty = true ↔ c.expression = none ∧ ∀ group ∈ c.groups, group = [] := by
      simp [ConditionSet.isEmpty]
    refine (Enumerates.check _ [] _).congr fun a p => ⟨?_, fun h => ?_⟩
    · rintro ⟨h, rfl, rfl⟩
      exact .noConditions (hempty.mp h).1 (hempty.mp h).2
    · cases h with
      | noConditions h h' => exact ⟨hempty.mpr ⟨h, h'⟩, rfl, rfl⟩
  | split l settings branches =>
    have hbranches : Enumerates (fun a p => SettingsProblem (.split l settings branches) (0 :: a) p)
        (branchProblems l.name [] (branches.map Prod.fst)) := by
      refine ((enumerates_branchProblems [] (by simp)).of_from fun p => nofun).congr
        fun a p => ⟨.branch, fun h => ?_⟩
      cases h with
      | branch h => exact h
    have hfallbacks : Enumerates (fun a p => SettingsProblem (.split l settings branches) (1 :: a) p)
        (fallbackProblems l.name (branches.map Prod.fst)) := by
      refine (Enumerates.check _ [] _).congr fun a p => ?_
      rw [List.countP_map]
      constructor
      · rintro ⟨h, rfl, rfl⟩
        exact .manyFallbacks h
      · intro h
        cases h with
        | manyFallbacks h => exact ⟨h, rfl, rfl⟩
    have hrest : Enumerates (From (SettingsProblem (.split l settings branches)) 2) [] := by
      refine .nil ?_
      rintro _ p ⟨h, i, b, rfl, hi⟩
      cases h <;> omega
    have hall := (hbranches.next (hfallbacks.next hrest)).of_from fun p => nofun
    rwa [List.append_nil] at hall
  | loop l settings body => exact .nil fun a p => nofun

/-! ## What is reported of a step -/

section Rules

variable {steps : List Step} {i : Nat} {s : Step} {a : List Nat} {p : Problem}

theorem problemAt_first_iff (here : steps[i]? = some s) : ProblemAt steps (i :: 0 :: a) p ↔
    (i = 0 ∧ s.isTrigger = false) ∧ a = [] ∧ p = .firstIsNoTrigger s.name := by
  constructor
  · intro h
    cases h with
    | firstIsNoTrigger here' h => cases here.symm.trans here'; exact ⟨⟨rfl, h⟩, rfl, rfl⟩
  · rintro ⟨⟨rfl, h⟩, rfl, rfl⟩
    exact .firstIsNoTrigger here h

theorem problemAt_duplicate_iff (here : steps[i]? = some s) : ProblemAt steps (i :: 1 :: a) p ↔
    (∃ t ∈ steps.take i, t.name = s.name) ∧ a = [] ∧ p = .duplicateName s.name := by
  have htake (t : Step) : t ∈ steps.take i ↔ ∃ j, j < i ∧ steps[j]? = some t := by
    simp [List.mem_iff_getElem?, List.getElem?_take]
  constructor
  · intro h
    cases h with
    | duplicateName here' earlier there same =>
      cases here.symm.trans here'
      exact ⟨⟨_, (htake _).mpr ⟨_, earlier, there⟩, same⟩, rfl, rfl⟩
  · rintro ⟨⟨t, ht, same⟩, rfl, rfl⟩
    obtain ⟨j, earlier, there⟩ := (htake t).mp ht
    exact .duplicateName here earlier there same

theorem problemAt_name_iff (here : steps[i]? = some s) : ProblemAt steps (i :: 2 :: a) p ↔
    ¬ ProperName s.name ∧ a = [] ∧ p = .badName s.name := by
  constructor
  · intro h
    cases h with
    | badName here' h => cases here.symm.trans here'; exact ⟨h, rfl, rfl⟩
  · rintro ⟨h, rfl, rfl⟩
    exact .badName here h

theorem problemAt_late_iff (here : steps[i]? = some s) : ProblemAt steps (i :: 3 :: a) p ↔
    (s.isTrigger = true ∧ 0 < i) ∧ a = [] ∧ p = .lateTrigger s.name := by
  constructor
  · intro h
    cases h with
    | lateTrigger here' later h => cases here.symm.trans here'; exact ⟨⟨h, later⟩, rfl, rfl⟩
  · rintro ⟨⟨h, later⟩, rfl, rfl⟩
    exact .lateTrigger here later h

theorem problemAt_settings_iff (here : steps[i]? = some s) :
    ProblemAt steps (i :: 4 :: a) p ↔ SettingsProblem s a p := by
  refine ⟨fun h => ?_, .settings here⟩
  cases h with
  | settings here' h => cases here.symm.trans here'; exact h

theorem exists_step_of_problemAt (h : ProblemAt steps (i :: a) p) : ∃ s, steps[i]? = some s := by
  cases h with
  | firstIsNoTrigger here | duplicateName here | badName here | lateTrigger here | settings here =>
    exact ⟨_, here⟩

/-- The names of the steps before are remembered. -/
theorem enumerates_step {seen : List String} (here : steps[i]? = some s)
    (hseen : ∀ n, n ∈ seen ↔ ∃ t ∈ steps.take i, t.name = n) :
    Enumerates (fun a p => ProblemAt steps (i :: a) p)
      ((if i = 0 ∧ s.isTrigger = false then [.firstIsNoTrigger s.name] else []) ++
        stepProblems seen (i == 0) s) := by
  have hfirst : Enumerates (fun a p => ProblemAt steps (i :: 0 :: a) p)
      (if i = 0 ∧ s.isTrigger = false then [.firstIsNoTrigger s.name] else []) :=
    (Enumerates.check _ [] _).congr fun a p => (problemAt_first_iff here).symm
  have hduplicate : Enumerates (fun a p => ProblemAt steps (i :: 1 :: a) p)
      (if seen.contains s.name then [.duplicateName s.name] else []) :=
    (Enumerates.check _ [] _).congr fun a p => by
      rw [List.contains_iff_mem, hseen, problemAt_duplicate_iff here]
  have hname : Enumerates (fun a p => ProblemAt steps (i :: 2 :: a) p)
      (if isStepName s.name then [] else [.badName s.name]) := by
    rw [← ite_not]
    exact (Enumerates.check _ [] _).congr fun a p => by
      rw [isStepName_iff, problemAt_name_iff here]
  have hlate : Enumerates (fun a p => ProblemAt steps (i :: 3 :: a) p)
      (if s.isTrigger && !(i == 0) then [.lateTrigger s.name] else []) :=
    (Enumerates.check _ [] _).congr fun a p => by
      rw [problemAt_late_iff here, Bool.and_eq_true, Bool.not_eq_true', beq_eq_false_iff_ne,
        ← Nat.pos_iff_ne_zero]
  have hsettings : Enumerates (fun a p => ProblemAt steps (i :: 4 :: a) p) (settingsProblems s) :=
    (enumerates_settings s).congr fun a p => (problemAt_settings_iff here).symm
  have hrest : Enumerates (From (fun a p => ProblemAt steps (i :: a) p) 5) [] := by
    refine .nil ?_
    rintro _ p ⟨h, k, b, rfl, hk⟩
    cases h <;> omega
  have hall := (hfirst.next (hduplicate.next (hname.next (hlate.next (hsettings.next hrest))))).of_from
    fun p => nofun
  simpa [stepProblems] using hall

end Rules

/-- From the number of a step on there are its problems and those of the steps after it. -/
theorem enumerates_laterProblems {before after : List Step} {seen : List String}
    (hb : before ≠ []) (hseen : ∀ n, n ∈ seen ↔ ∃ s ∈ before, s.name = n) :
    Enumerates (From (ProblemAt (before ++ after)) before.length) (laterProblems seen after) := by
  induction after generalizing before seen with
  | nil =>
    refine .nil ?_
    rintro _ p ⟨h, i, b, rfl, hi⟩
    obtain ⟨s, hs⟩ := exists_step_of_problemAt h
    rw [List.append_nil, List.getElem?_eq_none hi] at hs
    cases hs
  | cons s after ih =>
    have hpos : before.length ≠ 0 := mt List.length_eq_zero_iff.mp hb
    rw [laterProblems]
    refine .next ?_ ?_
    · have hown := @enumerates_step (before ++ s :: after) before.length s seen (by simp) (by simpa)
      rwa [if_neg fun h => hpos h.1, beq_eq_false_iff_ne.mpr hpos] at hown
    · have hrest := @ih (before ++ [s]) (s.name :: seen) (by simp) fun n => ?_
      · simpa using hrest
      · simp [hseen, or_and_right, exists_or, eq_comm, or_comm]

theorem inOrder_eq (v : Version) : v.inOrder = v.first :: v.inOrder.tail := rfl

theorem allSteps_eq_inOrder (v : Version) : v.allSteps = v.inOrder := descendants_eq v.steps

theorem enumerates_validate (v : Version) : Enumerates (ProblemAt v.inOrder) (validate v) := by
  have hfirst := @enumerates_step v.inOrder 0 v.first [] rfl (by simp)
  have hlater := @enumerates_laterProblems [v.first] v.inOrder.tail [v.first.name] (by simp)
    (by simp [eq_comm])
  have hall := (hfirst.next hlater).of_from fun p => nofun
  have hsteps : validate v = (if v.first.isTrigger then [] else [.firstIsNoTrigger v.first.name]) ++
      (stepProblems [] true v.first ++ laterProblems [v.first.name] v.inOrder.tail) := by
    rw [validate, allSteps_eq_inOrder, inOrder_eq]
    rfl
  rw [hsteps, ← List.append_assoc]
  cases h : v.first.isTrigger <;> simpa [h] using hall

/-! ## Nothing to report -/

theorem Enumerates.eq_nil_iff {α : Type} {At : List Nat → α → Prop} {xs : List α}
    (h : Enumerates At xs) : xs = [] ↔ ∀ a x, ¬ At a x := by
  obtain ⟨marked, -, hmem, rfl⟩ := h
  rw [List.map_eq_nil_iff, List.eq_nil_iff_forall_not_mem, Prod.forall]
  exact forall₂_congr fun a x => not_congr (hmem a x)

theorem nodup_map_iff {α β : Type} {f : α → β} {xs : List α} : (xs.map f).Nodup ↔
    ∀ (i j : Nat) (x y : α), i < j → xs[i]? = some x → xs[j]? = some y → f x ≠ f y := by
  rw [List.nodup_iff_getElem?_ne_getElem?]
  constructor
  · intro h i j x y hij hx hy hxy
    obtain ⟨hj, -⟩ := List.getElem?_eq_some_iff.mp hy
    exact h i j hij (by simpa using hj) (by simp [hx, hy, hxy])
  · intro h i j hij hj
    have hj' : j < xs.length := by simpa using hj
    have hi' : i < xs.length := Nat.lt_trans hij hj'
    simpa [hi', hj'] using h i j xs[i] xs[j] hij (by simp [hi']) (by simp [hj'])

theorem branchProblem_none_iff {step : String} {branches : List SplitBranch} :
    (∀ a p, ¬ BranchProblem step branches a p) ↔
      (∀ b ∈ branches, ¬ AllBlank b.name) ∧ (branches.map SplitBranch.name).Nodup := by
  constructor
  · intro h
    have hnamed (b : SplitBranch) (hb : b ∈ branches) : ¬ AllBlank b.name := fun blank => by
      obtain ⟨j, hj⟩ := List.getElem?_of_mem hb
      exact h _ _ (.unnamed hj blank)
    refine ⟨hnamed, nodup_map_iff.mpr fun k j b' b earlier there here same => ?_⟩
    exact h _ _ (.duplicate here (hnamed b (List.mem_of_getElem? here)) earlier there same)
  · rintro ⟨hnamed, hnd⟩ a p h
    cases h with
    | unnamed here blank => exact hnamed _ (List.mem_of_getElem? here) blank
    | duplicate here _ earlier there same =>
      exact nodup_map_iff.mp hnd _ _ _ _ earlier there here same

theorem Step.complete_iff (s : Step) : s.Complete ↔ ∀ a p, ¬ SettingsProblem s a p := by
  cases s with
  | trigger l t =>
    cases t with
    | empty => exact ⟨fun _ a p => nofun, fun _ => trivial⟩
    | block blockName triggerName input =>
      constructor
      · rintro hs a p ⟨⟩
        rename_i h
        exact h.elim hs.1 hs.2
      · exact fun h => ⟨fun hb => h _ _ (.incompleteTrigger (.inl hb)),
          fun ht => h _ _ (.incompleteTrigger (.inr ht))⟩
  | action l a =>
    cases hwork : a.work with
    | block blockName actionName =>
      simp only [Complete, hwork]
      constructor
      · rintro ⟨hb, ha⟩ _ _ h
        cases h with
        | incompleteBlock work h => cases hwork.symm.trans work; exact h.elim hb ha
        | missingSource work => cases hwork.symm.trans work
      · exact fun h => ⟨fun hb => h _ _ (.incompleteBlock hwork (.inl hb)),
          fun ha => h _ _ (.incompleteBlock hwork (.inr ha))⟩
    | code source =>
      simp only [Complete, hwork]
      constructor
      · rintro hs _ _ h
        cases h with
        | incompleteBlock work => cases hwork.symm.trans work
        | missingSource work h => cases hwork.symm.trans work; exact hs h
      · exact fun h blank => h _ _ (.missingSource hwork blank)
  | branch l c onSuccess onFailure =>
    constructor
    · intro hs a p h
      cases h with
      | noConditions h h' =>
        rcases hs with ⟨e, he⟩ | ⟨group, hgroup, x, hx⟩
        · cases h.symm.trans he
        · cases h' group hgroup ▸ hx
    · intro h
      by_contra hs
      rw [Complete, not_or, not_exists] at hs
      refine h _ _ (.noConditions (Option.eq_none_iff_forall_ne_some.mpr hs.1) fun group hg => ?_)
      exact List.eq_nil_iff_forall_not_mem.mpr fun x hx => hs.2 ⟨group, hg, x, hx⟩
  | split l settings branches =>
    have hbranches := @branchProblem_none_iff l.name (branches.map Prod.fst)
    rw [List.forall_mem_map, List.map_map] at hbranches
    constructor
    · rintro ⟨hnamed, hnd, hfallbacks⟩ a p h
      cases h with
      | branch h => exact hbranches.mpr ⟨hnamed, hnd⟩ _ _ h
      | manyFallbacks h => exact Nat.not_lt.mpr hfallbacks h
    · intro h
      obtain ⟨hnamed, hnd⟩ := hbranches.mp fun a p hb => h _ _ (.branch hb)
      exact ⟨hnamed, hnd, Nat.not_lt.mp fun hf => h _ _ (.manyFallbacks hf)⟩
  | loop l settings body => exact ⟨fun _ a p => nofun, fun _ => trivial⟩

theorem mem_tail_iff {v : Version} {s : Step} :
    s ∈ v.inOrder.tail ↔ ∃ i, 0 < i ∧ v.inOrder[i]? = some s := by
  rw [List.mem_iff_getElem?]
  simp only [List.getElem?_tail]
  exact ⟨fun ⟨i, h⟩ => ⟨i + 1, Nat.succ_pos i, h⟩,
    fun ⟨i, hi, h⟩ => ⟨i - 1, by rwa [Nat.sub_add_cancel hi]⟩⟩

theorem Version.valid_iff (v : Version) : v.Valid ↔ ∀ a p, ¬ ProblemAt v.inOrder a p := by
  constructor
  · intro hv a p h
    cases h with
    | firstIsNoTrigger here h =>
      cases here
      exact absurd hv.begins (Bool.eq_false_iff.mp h)
    | duplicateName here earlier there same =>
      exact nodup_map_iff.mp hv.distinct _ _ _ _ earlier there here same
    | badName here h => exact h (hv.named _ (List.mem_of_getElem? here))
    | lateTrigger here later h =>
      exact absurd h (Bool.eq_false_iff.mp (hv.onlyFirst _ (mem_tail_iff.mpr ⟨_, later, here⟩)))
    | settings here h =>
      exact (Step.complete_iff _).mp (hv.complete _ (List.mem_of_getElem? here)) _ _ h
  · intro h
    refine ⟨nodup_map_iff.mpr fun j i t s earlier there here same => ?_, fun s hs => ?_, ?_,
      fun s hs => ?_, fun s hs => ?_⟩
    · exact h _ _ (.duplicateName here earlier there same)
    · obtain ⟨i, here⟩ := List.getElem?_of_mem hs
      exact not_not.mp fun hn => h _ _ (.badName here hn)
    · exact eq_true_of_ne_false fun hf => h _ _ (.firstIsNoTrigger rfl hf)
    · obtain ⟨i, later, here⟩ := mem_tail_iff.mp hs
      exact Bool.eq_false_iff.mpr fun ht => h _ _ (.lateTrigger here later ht)
    · obtain ⟨i, here⟩ := List.getElem?_of_mem hs
      exact (Step.complete_iff s).mpr fun a p hp => h _ _ (.settings here hp)

/-- Nothing is reported of a flow exactly if no rule is violated by any step of its tree. What is
reported are the violations, each once and all at a time, in the order of the steps in the recursion,
for every step in the order of the rules, and for a split in the order of its branches. -/
theorem validate_exact (v : Version) :
    (validate v = [] ↔ v.Valid) ∧ Enumerates (ProblemAt v.inOrder) (validate v) := by
  have h := enumerates_validate v
  exact ⟨h.eq_nil_iff.trans v.valid_iff.symm, h⟩

/-! ## Steps of valid flows -/

theorem valid_of_validate {v : Version} (h : validate v = []) : v.Valid :=
  v.valid_iff.mpr ((enumerates_validate v).eq_nil_iff.mp h)

/-- A valid flow begins with a trigger. -/
theorem first_isTrigger {v : Version} (h : validate v = []) : v.first.isTrigger = true :=
  (valid_of_validate h).begins

/-- The steps of a valid flow are the trigger and those of the chain after it. -/
theorem allSteps_eq {v : Version} (h : validate v = []) :
    v.allSteps = v.first :: descendants v.rest := by
  have hf := first_isTrigger h
  rw [Version.allSteps, Version.steps, descendants_cons]
  cases hv : v.first with
  | trigger l t => simp [placesInside]
  | _ => rw [hv] at hf; cases hf

/-- Steps of a valid flow have different names. -/
theorem stepNames_nodup {v : Version} (h : validate v = []) : v.stepNames.Nodup := by
  rw [Version.stepNames, allSteps_eq_inOrder]
  exact (valid_of_validate h).distinct

/-- A step of the chain of a valid flow, or inside one, is not a trigger. -/
theorem isTrigger_eq_false {v : Version} (h : validate v = []) {s : Step}
    (hs : s ∈ descendants v.rest) : s.isTrigger = false := by
  refine (valid_of_validate h).onlyFirst s ?_
  rwa [← allSteps_eq_inOrder, allSteps_eq h]

/-- A step of a valid flow has a name that expressions can use. -/
theorem isStepName_of_mem {v : Version} (h : validate v = []) {s : Step} (hs : s ∈ v.allSteps) :
    isStepName s.name = true :=
  isStepName_iff.mpr ((valid_of_validate h).named s (allSteps_eq_inOrder v ▸ hs))

end FlowEngine.Flow
