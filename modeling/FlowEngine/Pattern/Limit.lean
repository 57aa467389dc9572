import FlowEngine.Pattern.Meaning
import FlowEngine.Pattern.Memory
import FlowEngine.Pattern.Reader

/-!
# Patterns within limits

* `Regex.read?` — the pattern of a text, if it is one and neither too deep nor too large.
-/

namespace FlowEngine.Pattern

/-- How deep the parts of a pattern may be nested. -/
def depthLimit : Nat := 250

/-- The bytes that a pattern may take. -/
def memoryLimit : Nat := 10 * 1024 * 1024

/-- The pattern of a text, which may disregard case, if the text is a pattern within the limits. -/
def Regex.read? (caseless : Bool) (text : String) : Option Regex := do
  let tree ← Tree.read? text
  if depthLimit < tree.depth then none
  else
    let (r, _) ← tree.meaning? { caseless }
    if memoryLimit < r.bytes then none else some r

end FlowEngine.Pattern
