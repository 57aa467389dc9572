import FlowEngine.Block.Basic
import FlowEngine.Flow.Encode
import FlowEngine.Template.Resolve

/-!
# Warnings about a flow

A valid flow may still name actions that nobody offers, and steps that do not exist.

* `lint` — the warnings about a flow; `Warning.message` the wording.
* `templatesOf` — the templates that a step resolves when it runs.
-/

namespace FlowEngine.Cli

open FlowEngine.Flow

/-- A warning about a step. -/
inductive Warning where
  | unknownAction (step blockName actionName : String)
  | noCodeRunner (step : String)
  | unknownReference (step : String) (error : Template.TemplateError)

/-- The wording of a warning. -/
def Warning.message : Warning → String
  | unknownAction step blockName actionName =>
    "step '" ++ step ++ "': action '" ++ blockName ++ "/" ++ actionName ++ "' is not registered"
  | noCodeRunner step => "step '" ++ step ++ "': no code runner registered"
  | unknownReference step error => "step '" ++ step ++ "': " ++ error.message

/-- The templates in a set of conditions. -/
def conditionTemplate (c : ConditionSet) : Json := (Json.obj c.members).canonical

/-- The templates that a step resolves when it runs. -/
def templatesOf : Step → List Json
  | .trigger _ _ => []
  | .action _ a => [a.input]
  | .branch _ condition _ _ => [conditionTemplate condition]
  | .split _ _ branches => branches.map fun b => conditionTemplate b.1.condition
  | .loop _ settings _ => [settings.items]

/-- A warning if nobody offers what an action does. -/
def unservedWork (registry : Block.Registry) (step : String) : Work → List Warning
  | .block blockName actionName =>
    if registry.knows blockName actionName then []
    else [.unknownAction step blockName actionName]
  | .code _ => if registry.codeRunner then [] else [.noCodeRunner step]

/-- The names that the templates of a flow may refer to. -/
def knownNames (v : Version) : List String := v.stepNames ++ ["item", "index"]

/-- The warnings about a step. -/
def lintStep (registry : Block.Registry) (known : List String) (s : Step) : List Warning :=
  (match s with
    | .action _ a => unservedWork registry s.name a.work
    | _ => []) ++
    (templatesOf s).flatMap fun t =>
      (Template.unknownReferences known t).map (.unknownReference s.name)

/-- The warnings about a flow. -/
def lint (registry : Block.Registry) (v : Version) : List Warning :=
  v.allSteps.flatMap (lintStep registry (knownNames v))

end FlowEngine.Cli
