import FlowEngine.Json.Basic

/-!
# Flows

A flow is a chain of steps that starts with a trigger. Branches, splits and loops hold chains of
their own. Settings are documents whose texts may be templates.

* `Step` — a step; a chain is a list of steps.
* `ConditionSet` — when a branch is taken.
* `places` — the steps of a chain and inside them, by recursion.
* `descendants` — the same steps, visited with a stack; `visitAll_eq` — in the same order.
* `andThen` — a chain after another one.
* `Version` — a flow.
-/

namespace FlowEngine.Flow

/-- The kinds of steps. -/
inductive StepType where
  | triggerEmpty
  | triggerBlock
  | actionBlock
  | actionCode
  | branch
  | split
  | loopOnItems
  deriving DecidableEq, Inhabited

/-- The name of a kind of step. -/
def StepType.name : StepType → String
  | triggerEmpty => "TRIGGER_EMPTY"
  | triggerBlock => "TRIGGER_BLOCK"
  | actionBlock => "ACTION_BLOCK"
  | actionCode => "ACTION_CODE"
  | branch => "BRANCH"
  | split => "SPLIT"
  | loopOnItems => "LOOP_ON_ITEMS"

/-- An option of a step. A hidden option does not apply. -/
structure Toggle where
  value : Bool
  hidden : Bool
  deriving DecidableEq, Inhabited

/-- Whether an option applies and is on. -/
def Toggle.isEnabled (t : Toggle) : Bool := t.value && !t.hidden

/-- What happens when an action fails. -/
structure ErrorHandling where
  continueOnFailure : Option Toggle
  retryOnFailure : Option Toggle
  deriving DecidableEq, Inhabited

namespace ErrorHandling

/-- A failure fails the run. -/
def none : ErrorHandling := ⟨.none, .none⟩

/-- Whether the run goes on after a failure. -/
def continues (e : ErrorHandling) : Bool := e.continueOnFailure.any Toggle.isEnabled

/-- Whether a failed action is tried again. -/
def retries (e : ErrorHandling) : Bool := e.retryOnFailure.any Toggle.isEnabled

end ErrorHandling

/-- What starts a flow. -/
inductive Trigger where
  | empty
  | block (blockName triggerName : String) (input : Json)
  deriving DecidableEq, Inhabited

/-- What an action does: an action of a block, or code. -/
inductive Work where
  | block (blockName actionName : String)
  | code (source : String)
  deriving DecidableEq, Inhabited

/-- An action with the template of its input. -/
structure Action where
  work : Work
  input : Json
  errorHandling : ErrorHandling
  deriving DecidableEq, Inhabited

/-- The comparisons of conditions. -/
inductive Operator where
  | textContains
  | textDoesNotContain
  | textExactlyMatches
  | textDoesNotExactlyMatch
  | textStartsWith
  | textEndsWith
  | textMatchesRegex
  | numberIsGreaterThan
  | numberIsLessThan
  | numberIsEqualTo
  | booleanIsTrue
  | booleanIsFalse
  | exists
  | doesNotExist
  | listIsEmpty
  | listIsNotEmpty
  | listContains
  deriving DecidableEq, Inhabited

/-- All comparisons with their names. -/
def Operator.names : List (Operator × String) :=
  [(.textContains, "TEXT_CONTAINS"),
    (.textDoesNotContain, "TEXT_DOES_NOT_CONTAIN"),
    (.textExactlyMatches, "TEXT_EXACTLY_MATCHES"),
    (.textDoesNotExactlyMatch, "TEXT_DOES_NOT_EXACTLY_MATCH"),
    (.textStartsWith, "TEXT_STARTS_WITH"),
    (.textEndsWith, "TEXT_ENDS_WITH"),
    (.textMatchesRegex, "TEXT_MATCHES_REGEX"),
    (.numberIsGreaterThan, "NUMBER_IS_GREATER_THAN"),
    (.numberIsLessThan, "NUMBER_IS_LESS_THAN"),
    (.numberIsEqualTo, "NUMBER_IS_EQUAL_TO"),
    (.booleanIsTrue, "BOOLEAN_IS_TRUE"),
    (.booleanIsFalse, "BOOLEAN_IS_FALSE"),
    (.exists, "EXISTS"),
    (.doesNotExist, "DOES_NOT_EXIST"),
    (.listIsEmpty, "LIST_IS_EMPTY"),
    (.listIsNotEmpty, "LIST_IS_NOT_EMPTY"),
    (.listContains, "LIST_CONTAINS")]

/-- The name of a comparison. -/
def Operator.name (o : Operator) : String := (Operator.names.lookup o).getD ""

/-- The comparison of a name. -/
def Operator.ofName? (name : String) : Option Operator :=
  (Operator.names.find? fun n => n.2 == name).map Prod.fst

theorem Operator.ofName?_name (o : Operator) : Operator.ofName? o.name = some o := by
  cases o <;> decide

/-- A comparison of two templates. -/
structure Condition where
  first : Json
  operator : Operator
  second : Json
  caseSensitive : Bool
  deriving DecidableEq, Inhabited

/-- When a branch is taken: all conditions of one of the groups hold, and so does the expression. -/
structure ConditionSet where
  groups : List (List Condition)
  expression : Option String
  deriving DecidableEq, Inhabited

/-- Whether there is neither a condition nor an expression. -/
def ConditionSet.isEmpty (c : ConditionSet) : Bool :=
  c.expression.isNone && c.groups.all List.isEmpty

/-- Which of the branches that match a split takes. -/
inductive SplitExecution where
  | allMatches
  | firstMatch
  deriving DecidableEq, Inhabited

/-- The settings of a split; `concurrency` bounds how many branches run at once. -/
structure SplitSettings where
  execution : SplitExecution
  concurrency : Option Nat
  deriving DecidableEq, Inhabited

/-- Whether a branch of a split has a condition or is taken if no other one is. -/
inductive BranchKind where
  | condition
  | fallback
  deriving DecidableEq, Inhabited

/-- A branch of a split, without its steps. -/
structure SplitBranch where
  name : String
  kind : BranchKind
  condition : ConditionSet
  deriving DecidableEq, Inhabited

/-- The settings of a loop; `concurrency` bounds how many iterations run at once. -/
structure LoopSettings where
  items : Json
  parallel : Bool
  concurrency : Option Nat
  deriving DecidableEq, Inhabited

/-- The names of a step: one to refer to it and one to show. -/
structure Label where
  name : String
  displayName : String
  deriving DecidableEq, Inhabited

/-- A step. The chains inside it are lists of steps. -/
inductive Step where
  | trigger (label : Label) (trigger : Trigger)
  | action (label : Label) (action : Action)
  | branch (label : Label) (condition : ConditionSet) (onSuccess onFailure : List Step)
  | split (label : Label) (settings : SplitSettings) (branches : List (SplitBranch × List Step))
  | loop (label : Label) (settings : LoopSettings) (body : List Step)
  deriving Inhabited

namespace Step

/-- The names of a step. -/
def label : Step → Label
  | trigger l _ | action l _ | branch l _ _ _ | split l _ _ | loop l _ _ => l

/-- The name that refers to a step. -/
def name (s : Step) : String := s.label.name

/-- The kind of a step. -/
def type : Step → StepType
  | trigger _ .empty => .triggerEmpty
  | trigger _ (.block _ _ _) => .triggerBlock
  | action _ a =>
    match a.work with
    | .block _ _ => .actionBlock
    | .code _ => .actionCode
  | branch _ _ _ _ => .branch
  | split _ _ _ => .split
  | loop _ _ _ => .loopOnItems

/-- Whether a step is a trigger. -/
def isTrigger : Step → Bool
  | trigger _ _ => true
  | _ => false

/-- What happens when a step fails. -/
def errorHandling : Step → ErrorHandling
  | action _ a => a.errorHandling
  | _ => .none

/-- The chains inside a step in order. -/
def chains : Step → List (List Step)
  | branch _ _ onSuccess onFailure => [onSuccess, onFailure]
  | split _ _ branches => branches.map Prod.snd
  | loop _ _ body => [body]
  | _ => []

end Step

/-! ## Order of steps -/

mutual

/-- All steps of a chain and inside them, each with the steps after it: first a step, then what is
inside it, then what follows it. -/
def places : List Step → List (Step × List Step)
  | [] => []
  | s :: rest => (s, rest) :: (placesInside s ++ places rest)

/-- All steps inside a step. -/
def placesInside : Step → List (Step × List Step)
  | .branch _ _ onSuccess onFailure => places onSuccess ++ places onFailure
  | .split _ _ branches => placesInBranches branches
  | .loop _ _ body => places body
  | _ => []

/-- All steps inside the branches of a split. -/
def placesInBranches : List (SplitBranch × List Step) → List (Step × List Step)
  | [] => []
  | (_, steps) :: rest => places steps ++ placesInBranches rest

end

/-- The chain that goes on from a place. -/
def chainFrom (p : Step × List Step) : List Step := p.1 :: p.2

/-- All places from a place on: itself, what is inside its step, and what follows it. -/
def placesFrom (p : Step × List Step) : List (Step × List Step) := places (chainFrom p)

/-! ## Traversal -/

/-- The place at which a chain begins. -/
def place? : List Step → Option (Step × List Step)
  | [] => none
  | s :: rest => some (s, rest)

/-- The places a place leads to: where the chains inside its step begin, then the one after it. -/
def nextPlaces (p : Step × List Step) : List (Step × List Step) :=
  (p.1.chains ++ [p.2]).filterMap place?

/-- The steps a step leads to: the first ones of the chains inside it, then the one after it. -/
def successors (s : Step) (rest : List Step) : List Step := (nextPlaces (s, rest)).map Prod.fst

theorem placesInBranches_eq (branches : List (SplitBranch × List Step)) :
    placesInBranches branches = (branches.map Prod.snd).flatMap places := by
  induction branches with
  | nil => rfl
  | cons b rest ih => rw [placesInBranches, ih, List.map_cons, List.flatMap_cons]

theorem placesInside_eq (s : Step) : placesInside s = s.chains.flatMap places := by
  cases s <;> simp [placesInside, Step.chains, placesInBranches_eq]

theorem flatMap_placesFrom (chains : List (List Step)) :
    (chains.filterMap place?).flatMap placesFrom = chains.flatMap places := by
  induction chains with
  | nil => rfl
  | cons chain chains ih =>
    rw [List.flatMap_cons, ← ih]
    cases chain <;> rfl

/-- From a place on there are the place itself and what is from the places on that it leads to. -/
theorem placesFrom_eq (p : Step × List Step) :
    placesFrom p = p :: (nextPlaces p).flatMap placesFrom := by
  rw [nextPlaces, flatMap_placesFrom, List.flatMap_append, ← placesInside_eq, placesFrom, chainFrom,
    places]
  simp

/-- Visits places by means of a stack. The place on top is taken, and the places it leads to are put
on the stack, the last one first. -/
@[semireducible] def visitAll (stack : List (Step × List Step)) : List (Step × List Step) :=
  match stack with
  | [] => []
  | p :: stack => p :: visitAll ((nextPlaces p).foldr List.cons stack)
termination_by (stack.flatMap placesFrom).length
decreasing_by simp [placesFrom_eq p]

/-- Everything from the places on the stack on is visited, in order. -/
theorem visitAll_eq (stack : List (Step × List Step)) :
    visitAll stack = stack.flatMap placesFrom := by
  fun_induction visitAll with
  | case1 => rfl
  | case2 p stack ih =>
    rw [ih, List.foldr_cons_eq_append', List.flatMap_append, List.flatMap_cons, placesFrom_eq p,
      List.cons_append]

/-- All steps of a chain and inside them. -/
def descendants (chain : List Step) : List Step := (visitAll (place? chain).toList).map Prod.fst

theorem descendants_eq (chain : List Step) : descendants chain = (places chain).map Prod.fst := by
  rw [descendants, visitAll_eq]
  cases chain with
  | nil => rfl
  | cons s rest => exact congrArg _ (List.append_nil _)

theorem descendants_cons (s : Step) (rest : List Step) : descendants (s :: rest) =
    s :: ((placesInside s).map Prod.fst ++ descendants rest) := by
  simp [descendants_eq, places]

/-- A chain with another one after its last step. -/
@[semireducible] def andThen (p next : Step × List Step) : Step × List Step :=
  match p with
  | (s, []) => (s, chainFrom next)
  | (s, t :: rest) => (s, chainFrom (andThen (t, rest) next))
termination_by p.2.length

/-! ## Flows -/

/-- A flow: its identity and its chain of steps, of which there is at least one. -/
structure Version where
  id : String
  displayName : String
  first : Step
  rest : List Step
  deriving Inhabited

namespace Version

/-- The chain of steps. -/
def steps (v : Version) : List Step := v.first :: v.rest

/-- All steps of a flow. -/
def allSteps (v : Version) : List Step := descendants v.steps

/-- The names of all steps. -/
def stepNames (v : Version) : List String := v.allSteps.map Step.name

/-- The first step of a name. -/
def find? (v : Version) (name : String) : Option Step := v.allSteps.find? fun s => s.name == name

end Version

end FlowEngine.Flow
