import FlowEngine.Flow.Encode

/-!
# Reading flows

* `chainOf?` — the chain of a document.
* `Version.ofJson?` — the flow of a document.
-/

namespace FlowEngine.Flow

open FlowEngine.Json.Fields

/-- Reads an option. -/
def Toggle.ofJson? (j : Json) : Option Toggle := do
  let fs ← j.fields? ["value", "hidden"]
  some ⟨← defaulted fs "value" false Json.asBool?, ← defaulted fs "hidden" false Json.asBool?⟩

/-- Reads the handling of errors. -/
def ErrorHandling.ofJson? (j : Json) : Option ErrorHandling := do
  let fs ← j.completeFields? ["continueOnFailure", "retryOnFailure"]
  some ⟨← optional fs "continueOnFailure" Toggle.ofJson?,
    ← optional fs "retryOnFailure" Toggle.ofJson?⟩

/-- Reads the settings of a trigger. -/
def Trigger.ofSettings? (j : Json) : Option Trigger := do
  let fs ← j.fields? ["blockName", "triggerName", "input"]
  some (.block (← required fs "blockName" Json.asString?)
    (← required fs "triggerName" Json.asString?) (← defaulted fs "input" .null Json.asValue?))

/-- Reads the settings of an action of a block. -/
def Action.ofBlock? (j : Json) : Option Action := do
  let fs ← j.fields? ["blockName", "actionName", "input", "errorHandlingOptions"]
  some ⟨.block (← required fs "blockName" Json.asString?)
      (← required fs "actionName" Json.asString?),
    ← defaulted fs "input" .null Json.asValue?,
    ← defaulted fs "errorHandlingOptions" .none ErrorHandling.ofJson?⟩

/-- Reads the settings of code. -/
def Action.ofCode? (j : Json) : Option Action := do
  let fs ← j.fields? ["sourceCode", "input", "errorHandlingOptions"]
  some ⟨.code (← required fs "sourceCode" Json.asString?),
    ← defaulted fs "input" .null Json.asValue?,
    ← defaulted fs "errorHandlingOptions" .none ErrorHandling.ofJson?⟩

/-- Reads a comparison. -/
def Operator.ofJson? (o : Json.Origin) (j : Json) : Option Operator := do
  Operator.ofName? (← j.formName? o)

/-- Reads a condition. -/
def Condition.ofJson? (o : Json.Origin) (j : Json) : Option Condition := do
  let fs ← j.fields? ["firstValue", "operator", "secondValue", "caseSensitive"]
  some ⟨← defaulted fs "firstValue" .null Json.asValue?,
    ← required fs "operator" (Operator.ofJson? o),
    ← defaulted fs "secondValue" .null Json.asValue?,
    ← defaulted fs "caseSensitive" false Json.asBool?⟩

/-- The set of conditions of fields. -/
def ConditionSet.ofFields? (o : Json.Origin) (fs : Json.Fields) : Option ConditionSet := do
  some ⟨← defaulted fs "conditions" [] (Json.asList? (Json.asList? (Condition.ofJson? o))),
    ← optional fs "expression" Json.asString?⟩

/-- Reads a set of conditions. -/
def ConditionSet.ofJson? (o : Json.Origin) (j : Json) : Option ConditionSet := do
  ofFields? o (← j.fields? ["conditions", "expression"])

/-- How a split of a name chooses. -/
def SplitExecution.ofName? : String → Option SplitExecution
  | "EXECUTE_ALL_MATCH" => some allMatches
  | "EXECUTE_FIRST_MATCH" => some firstMatch
  | _ => none

/-- Reads the settings of a split. -/
def SplitSettings.ofJson? (o : Json.Origin) (j : Json) : Option SplitSettings := do
  let fs ← j.completeFields? ["executionType", "concurrency"]
  some ⟨← defaulted fs "executionType" .allMatches fun j => do
      SplitExecution.ofName? (← j.formName? o),
    ← optional fs "concurrency" Json.asNat64?⟩

/-- The kind of branch of a name. -/
def BranchKind.ofName? : String → Option BranchKind
  | "CONDITION" => some condition
  | "FALLBACK" => some fallback
  | _ => none

/-- Reads the settings of a loop. -/
def LoopSettings.ofJson? (j : Json) : Option LoopSettings := do
  let fs ← j.completeFields? ["items", "parallel", "concurrency"]
  some ⟨← defaulted fs "items" .null Json.asValue?, ← defaulted fs "parallel" false Json.asBool?,
    ← optional fs "concurrency" Json.asNat64?⟩

/-- Reads a link to a chain; a link may be absent or null. -/
def link? (chain? : Json → Option (List Step)) (fs : Json.Fields) (name : String) :
    Option (List Step) :=
  (optional fs name chain?).map fun chain => chain.getD []

/-- Reads a branch of a split with its steps. -/
def branchOf? (o : Json.Origin) (chain? : Json → Option (List Step)) (j : Json) :
    Option (SplitBranch × List Step) := do
  let fs ← j.objectFields? ["name", "branchType", "conditions", "expression", "nextAction"]
  let name ← required fs "name" Json.asString?
  let kind ← defaulted fs "branchType" .condition fun j => do BranchKind.ofName? (← j.formName? o)
  let condition ← ConditionSet.ofFields? o fs
  let steps ← link? chain? fs "nextAction"
  some (⟨name, kind, condition⟩, steps)

/-- Reads the part of a step that depends on its kind. -/
def stepOf? (o : Json.Origin) (chain? : Json → Option (List Step)) (label : Label)
    (type : String) (j : Json) : Option Step := do
  match type with
  | "TRIGGER_EMPTY" => some (.trigger label .empty)
  | "TRIGGER_BLOCK" =>
    let fs ← j.objectFields? ["settings"]
    (required fs "settings" Trigger.ofSettings?).map (.trigger label)
  | "ACTION_BLOCK" =>
    let fs ← j.objectFields? ["settings"]
    (required fs "settings" Action.ofBlock?).map (.action label)
  | "ACTION_CODE" =>
    let fs ← j.objectFields? ["settings"]
    (required fs "settings" Action.ofCode?).map (.action label)
  | "BRANCH" =>
    let fs ← j.objectFields? ["settings", "onSuccessAction", "onFailureAction"]
    let condition ← required fs "settings" (ConditionSet.ofJson? o)
    let onSuccess ← link? chain? fs "onSuccessAction"
    let onFailure ← link? chain? fs "onFailureAction"
    some (.branch label condition onSuccess onFailure)
  | "SPLIT" =>
    let fs ← j.objectFields? ["settings", "branches"]
    let settings ← defaulted fs "settings" ⟨.allMatches, none⟩ (SplitSettings.ofJson? o)
    let branches ← defaulted fs "branches" [] (Json.asList? (branchOf? o chain?))
    some (.split label settings branches)
  | "LOOP_ON_ITEMS" =>
    let fs ← j.objectFields? ["settings", "firstLoopAction"]
    let settings ← required fs "settings" LoopSettings.ofJson?
    let body ← link? chain? fs "firstLoopAction"
    some (.loop label settings body)
  | _ => none

/-- The kinds of steps. -/
def stepTypes : List String :=
  [StepType.triggerEmpty, .triggerBlock, .actionBlock, .actionCode, .branch, .split,
    .loopOnItems].map StepType.name

/-- Reads a chain, whose steps may perhaps name their kinds by numbers; the depth bounds how deep
steps are nested. -/
def chainWithin? (numbered : Bool) : (depth : Nat) → Json → Option (List Step)
  | 0, _ => none
  | depth + 1, j => do
    let fs ← j.objectFields? ["name", "displayName", "nextAction"]
    let name ← required fs "name" Json.asString?
    let displayName ← defaulted fs "displayName" "" Json.asString?
    let o := Json.Origin.kept numbered
    let (type, kind) ← j.tagged? o "type" stepTypes
    let s ← stepOf? o (chainWithin? numbered depth) ⟨name, displayName⟩ type kind
    let rest ← link? (chainWithin? numbered depth) fs "nextAction"
    some (s :: rest)

/-- Reads a chain. -/
def chainOf? (numbered : Bool) (j : Json) : Option (List Step) :=
  chainWithin? numbered (j.depth + 1) j

/-- The fields of a flow. -/
def Version.fieldNames : List String := ["id", "displayName", "trigger"]

/-- Reads a flow from a document in which numbers may perhaps stand for the kinds of steps. -/
def Version.ofDocument? (numbered : Bool) (j : Json) : Option Version := do
  let fs ← j.fields? fieldNames
  let id ← defaulted fs "id" "" Json.asString?
  let displayName ← defaulted fs "displayName" "" Json.asString?
  match ← required fs "trigger" (chainOf? numbered) with
  | first :: rest => some ⟨id, displayName, first, rest⟩
  | [] => none

/-- Reads a flow. -/
def Version.ofJson? (j : Json) : Option Version := Version.ofDocument? true j

end FlowEngine.Flow
