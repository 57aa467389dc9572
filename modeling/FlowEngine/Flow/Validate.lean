import FlowEngine.Flow.Basic
import FlowEngine.Text.Category

/-!
# Validation

A flow is checked as a whole: every step is looked at, and every problem is reported.

* `Problem` — what can be wrong; `Problem.message` its wording.
* `validate` — all problems of a flow in the order of its steps.
-/

namespace FlowEngine.Flow

/-- What can be wrong with a flow. -/
inductive Problem where
  | firstIsNoTrigger (step : String)
  | duplicateName (step : String)
  | badName (step : String)
  | lateTrigger (step : String)
  | incompleteTrigger (step : String)
  | incompleteBlock (step : String)
  | missingSource (step : String)
  | noConditions (step : String)
  | unnamedBranch (step : String)
  | duplicateBranch (step branch : String)
  | manyFallbacks (step : String) (count : Nat)
  deriving DecidableEq, Inhabited

/-- The wording of a problem. -/
def Problem.message : Problem → String
  | firstIsNoTrigger s => "first step '" ++ s ++ "' must be a trigger"
  | duplicateName s => "duplicate step name: " ++ s
  | badName s => "step name '" ++ s ++
      "' must start with a letter or underscore and contain only letters, digits and underscores"
  | lateTrigger s => "trigger step '" ++ s ++ "' can only be the first step"
  | incompleteTrigger s => "trigger '" ++ s ++ "' missing 'blockName' or 'triggerName'"
  | incompleteBlock s => "block step '" ++ s ++ "' missing 'blockName' or 'actionName'"
  | missingSource s => "code step '" ++ s ++ "' missing 'sourceCode'"
  | noConditions s => "branch step '" ++ s ++ "' has no conditions"
  | unnamedBranch s => "split step '" ++ s ++ "' has an unnamed branch"
  | duplicateBranch s b => "split step '" ++ s ++ "' has duplicate branch '" ++ b ++ "'"
  | manyFallbacks s n =>
    "split step '" ++ s ++ "' has " ++ toString n ++ " fallback branches, at most one allowed"

/-- Whether a step can have a name: letters, digits and underscores, not beginning with a digit. -/
def isStepName (name : String) : Bool :=
  match name.toList with
  | [] => false
  | c :: rest => (c.isAlpha || c == '_') && rest.all fun c => c.isAlphanum || c == '_'

/-- Whether a text has nothing but blanks. -/
def isBlankText (s : String) : Bool := s.toList.all Text.isBlank

/-- The problems of the names of branches; `seen` are the names before. -/
def branchProblems (step : String) (seen : List String) : List SplitBranch → List Problem
  | [] => []
  | b :: rest =>
    if isBlankText b.name then .unnamedBranch step :: branchProblems step seen rest
    else if seen.contains b.name then
      .duplicateBranch step b.name :: branchProblems step seen rest
    else branchProblems step (b.name :: seen) rest

/-- More than one fallback branch. -/
def fallbackProblems (step : String) (branches : List SplitBranch) : List Problem :=
  let fallbacks := branches.countP fun b => b.kind = .fallback
  if 1 < fallbacks then [.manyFallbacks step fallbacks] else []

/-- The problems of the settings of a step. -/
def settingsProblems (s : Step) : List Problem :=
  match s with
  | .trigger l (.block blockName triggerName _) =>
    if blockName = "" ∨ triggerName = "" then [.incompleteTrigger l.name] else []
  | .trigger _ .empty => []
  | .action l a =>
    match a.work with
    | .block blockName actionName =>
      if blockName = "" ∨ actionName = "" then [.incompleteBlock l.name] else []
    | .code source => if isBlankText source then [.missingSource l.name] else []
  | .branch l condition _ _ => if condition.isEmpty then [.noConditions l.name] else []
  | .split l _ branches =>
    let branches := branches.map Prod.fst
    branchProblems l.name [] branches ++ fallbackProblems l.name branches
  | .loop _ _ _ => []

/-- The problems of a step; `seen` are the names of the steps before. -/
def stepProblems (seen : List String) (isFirst : Bool) (s : Step) : List Problem :=
  (if seen.contains s.name then [.duplicateName s.name] else []) ++
    (if isStepName s.name then [] else [.badName s.name]) ++
    (if s.isTrigger && !isFirst then [.lateTrigger s.name] else []) ++
    settingsProblems s

/-- The problems of the steps after the first one. -/
def laterProblems (seen : List String) : List Step → List Problem
  | [] => []
  | s :: rest => stepProblems seen false s ++ laterProblems (s.name :: seen) rest

/-- All problems of a flow. -/
def validate (v : Version) : List Problem :=
  (if v.first.isTrigger then [] else [.firstIsNoTrigger v.first.name]) ++
    match v.allSteps with
    | [] => []
    | s :: rest => stepProblems [] true s ++ laterProblems [s.name] rest

end FlowEngine.Flow
