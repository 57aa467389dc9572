import FlowEngine.Flow.Basic
import FlowEngine.Json.Decode

/-!
# Flows as documents

The step after a step is written inside it, as its member `nextAction`. Settings are written with
all their defaults, and links only if there is something to link to.

* `chainJson?` — a chain as a document.
* `Version.toJson` — a flow as a document.
-/

namespace FlowEngine.Flow

open Json (optionalMember ofOption)

/-- An option as a document. -/
def Toggle.toJson (t : Toggle) : Json := .obj [("value", .bool t.value), ("hidden", .bool t.hidden)]

/-- The handling of errors as a document. -/
def ErrorHandling.toJson (e : ErrorHandling) : Json :=
  .obj [("continueOnFailure", ofOption Toggle.toJson e.continueOnFailure),
    ("retryOnFailure", ofOption Toggle.toJson e.retryOnFailure)]

/-- The members of a trigger. -/
def Trigger.members : Trigger → List (String × Json)
  | empty => [("type", .str "TRIGGER_EMPTY")]
  | block blockName triggerName input =>
    [("type", .str "TRIGGER_BLOCK"),
      ("settings", .obj [("blockName", .str blockName), ("triggerName", .str triggerName),
        ("input", input)])]

/-- The members of the settings of an action before its input. -/
def Work.members : Work → List (String × Json)
  | block blockName actionName => [("blockName", .str blockName), ("actionName", .str actionName)]
  | code source => [("sourceCode", .str source)]

/-- The settings of an action. -/
def Action.settingsJson (a : Action) : Json :=
  .obj (a.work.members ++
    [("input", a.input), ("errorHandlingOptions", a.errorHandling.toJson)])

/-- The members of an action. -/
def Action.members (a : Action) : List (String × Json) :=
  let type := match a.work with
    | .block _ _ => "ACTION_BLOCK"
    | .code _ => "ACTION_CODE"
  [("type", .str type), ("settings", a.settingsJson)]

/-- A condition as a document. -/
def Condition.toJson (c : Condition) : Json :=
  .obj [("firstValue", c.first), ("operator", .str c.operator.name), ("secondValue", c.second),
    ("caseSensitive", .bool c.caseSensitive)]

/-- The members of a set of conditions. -/
def ConditionSet.members (c : ConditionSet) : List (String × Json) :=
  (if c.groups.isEmpty then [] else
    [("conditions", .arr (c.groups.map fun g => .arr (g.map Condition.toJson)))]) ++
    optionalMember "expression" .str c.expression

/-- The name of how a split chooses. -/
def SplitExecution.name : SplitExecution → String
  | allMatches => "EXECUTE_ALL_MATCH"
  | firstMatch => "EXECUTE_FIRST_MATCH"

/-- The settings of a split as a document. -/
def SplitSettings.toJson (s : SplitSettings) : Json :=
  .obj [("executionType", .str s.execution.name), ("concurrency", ofOption .ofNat s.concurrency)]

/-- The name of a kind of branch. -/
def BranchKind.name : BranchKind → String
  | condition => "CONDITION"
  | fallback => "FALLBACK"

/-- The members of a branch of a split before its steps. -/
def SplitBranch.members (b : SplitBranch) : List (String × Json) :=
  [("name", .str b.name), ("branchType", .str b.kind.name)] ++ b.condition.members

/-- The settings of a loop as a document. -/
def LoopSettings.toJson (s : LoopSettings) : Json :=
  .obj [("items", s.items), ("parallel", .bool s.parallel),
    ("concurrency", ofOption .ofNat s.concurrency)]

/-- The members of the names of a step. -/
def Label.members (l : Label) : List (String × Json) :=
  [("name", .str l.name), ("displayName", .str l.displayName)]

mutual

/-- A chain as a document, if there is a step in it. -/
def chainJson? : List Step → Option Json
  | [] => none
  | s :: rest =>
    some (.obj (s.label.members ++ kindMembers s ++
      optionalMember "nextAction" id (chainJson? rest)))

/-- The members of a step that depend on its kind. -/
def kindMembers : Step → List (String × Json)
  | .trigger _ t => t.members
  | .action _ a => a.members
  | .branch _ condition onSuccess onFailure =>
    [("type", .str "BRANCH"), ("settings", .obj condition.members)] ++
      optionalMember "onSuccessAction" id (chainJson? onSuccess) ++
      optionalMember "onFailureAction" id (chainJson? onFailure)
  | .split _ settings branches =>
    [("type", .str "SPLIT"), ("settings", settings.toJson),
      ("branches", .arr (branchesJson branches))]
  | .loop _ settings body =>
    [("type", .str "LOOP_ON_ITEMS"), ("settings", settings.toJson)] ++
      optionalMember "firstLoopAction" id (chainJson? body)

/-- The branches of a split as documents. -/
def branchesJson : List (SplitBranch × List Step) → List Json
  | [] => []
  | (b, steps) :: rest =>
    .obj (b.members ++ optionalMember "nextAction" id (chainJson? steps)) :: branchesJson rest

end

/-- A flow as a document. -/
def Version.toJson (v : Version) : Json :=
  .obj [("id", .str v.id), ("displayName", .str v.displayName),
    ("trigger", (chainJson? v.steps).getD .null)]

end FlowEngine.Flow
