import FlowEngine.Flow.Basic
import FlowEngine.Pattern.Limit
import FlowEngine.Template.Resolve

/-!
# Conditions

* `compare` — whether a comparison of two documents holds.
* `conditionHolds` — whether a condition holds in a scope.
* `conditionsHold` — whether one group of conditions holds as a whole, and the expression too.

What is absent — null, or the empty text — equals no number and is neither true nor false, so that
it never makes a comparison fail.
-/

namespace FlowEngine.Template

open FlowEngine.Flow FlowEngine.Expr

/-! ## Operands -/

/-- The text of an operand: nothing for null, a text as it is, and other values as documents. -/
def operandText : Json → String
  | .null => ""
  | .str s => s
  | j => j.compact

/-- The text of an operand for a comparison that may ignore case. -/
def casedText (caseSensitive : Bool) (j : Json) : String :=
  if caseSensitive then operandText j else Text.lowerText (operandText j)

/-- Whether an operand is anything but null and the empty text. -/
def isPresent : Json → Bool
  | .null => false
  | .str s => s != ""
  | _ => true

/-- An operand of another kind was expected. -/
def mismatch {α : Type} (expected : String) (j : Json) : Except TemplateError α :=
  .error (.typeMismatch expected j.kindName)

/-- The number of an operand, which may be written as a text. -/
def number? : Json → Option Binary64
  | .int i => some (Binary64.ofInt i)
  | .float x => some x
  | .str s => Binary64.ofText? (Text.trimText s)
  | _ => none

/-- The number of an operand that must have one. -/
def asNumber (j : Json) : Except TemplateError Binary64 :=
  match number? j with
  | some x => .ok x
  | none => mismatch "number" j

/-- Both operands as numbers, unless one is absent. -/
def numbers (first second : Json) : Except TemplateError (Option (Binary64 × Binary64)) :=
  if isPresent first && isPresent second then do
    let x ← asNumber first
    let y ← asNumber second
    .ok (some (x, y))
  else .ok none

/-- The truth value of an operand, unless it is absent. -/
def truth? (j : Json) : Except TemplateError (Option Bool) :=
  if isPresent j then
    match j with
    | .bool b => .ok (some b)
    | .str s =>
      if Text.eqIgnoringAsciiCase s "true" then .ok (some true)
      else if Text.eqIgnoringAsciiCase s "false" then .ok (some false)
      else mismatch "boolean" j
    | j => mismatch "boolean" j
  else .ok none

/-- The list of an operand; null is the empty list. -/
def asList (j : Json) : Except TemplateError (List Json) :=
  match j with
  | .arr elements => .ok elements
  | .null => .ok []
  | j => mismatch "list" j

/-- Whether an operand is a number. -/
def isNumber : Json → Bool
  | .int _ | .float _ => true
  | _ => false

mutual

/-- A document in which every zero is positive. -/
def plainZeros : Json → Json
  | .float x => .float (if x.isZero then Binary64.zero false else x)
  | .arr elements => .arr (plainZerosAll elements)
  | .obj members => .obj (plainZerosIn members)
  | j => j

/-- Documents in which every zero is positive. -/
def plainZerosAll : List Json → List Json
  | [] => []
  | j :: rest => plainZeros j :: plainZerosAll rest

/-- Members in which every zero is positive. -/
def plainZerosIn : List (String × Json) → List (String × Json)
  | [] => []
  | (name, j) :: rest => (name, plainZeros j) :: plainZerosIn rest

end

/-- Equality of documents; the sign of a zero does not count. -/
def sameDocument (a b : Json) : Bool := decide (plainZeros a = plainZeros b)

/-- Equality of list items: texts perhaps without regard to case, numbers by value, and a number and
a text by the number that the text stands for. -/
def sameItem (caseSensitive : Bool) (a b : Json) : Bool :=
  match a, b with
  | .str s, .str t =>
    if caseSensitive then s == t else Text.lowerText s == Text.lowerText t
  | a, b =>
    if isNumber a || isNumber b then
      match number? a, number? b with
      | some x, some y => x.valueEq y
      | _, _ => false
    else sameDocument a b

/-! ## Comparisons -/

/-- Whether the first operand matches the second one as a pattern. -/
def matchesPattern (caseSensitive : Bool) (first second : Json) : Except TemplateError Bool :=
  let pattern := operandText second
  match Pattern.Regex.read? (!caseSensitive) pattern with
  | some r => .ok (r.isMatch (operandText first))
  | none => .error (.failed ("invalid regex '" ++ pattern ++ "': malformed pattern"))

/-- Whether a comparison of texts holds. -/
def compareTexts (caseSensitive : Bool) (first second : Json)
    (relation : List Char → List Char → Bool) : Except TemplateError Bool :=
  .ok (relation (casedText caseSensitive first).toList (casedText caseSensitive second).toList)

/-- Whether a comparison of numbers holds. -/
def compareNumbers (first second : Json) (relation : Binary64 → Binary64 → Bool) :
    Except TemplateError Bool := do
  let pair ← numbers first second
  .ok (pair.any fun p => relation p.1 p.2)

/-- Whether a comparison holds. -/
def compare (operator : Operator) (caseSensitive : Bool) (first second : Json) :
    Except TemplateError Bool :=
  match operator with
  | .textContains =>
    compareTexts caseSensitive first second fun s part => Text.occursIn part s
  | .textDoesNotContain =>
    compareTexts caseSensitive first second fun s part => !Text.occursIn part s
  | .textExactlyMatches => compareTexts caseSensitive first second fun s t => s == t
  | .textDoesNotExactlyMatch => compareTexts caseSensitive first second fun s t => s != t
  | .textStartsWith =>
    compareTexts caseSensitive first second fun s start => start.isPrefixOf s
  | .textEndsWith => compareTexts caseSensitive first second fun s last => last.isSuffixOf s
  | .textMatchesRegex => matchesPattern caseSensitive first second
  | .numberIsGreaterThan => compareNumbers first second fun x y => y.valueLt x
  | .numberIsLessThan => compareNumbers first second Binary64.valueLt
  | .numberIsEqualTo => compareNumbers first second Binary64.valueEq
  | .booleanIsTrue => do .ok ((← truth? first) == some true)
  | .booleanIsFalse => do .ok ((← truth? first) == some false)
  | .exists => .ok (isPresent first)
  | .doesNotExist => .ok (!isPresent first)
  | .listIsEmpty => do .ok (← asList first).isEmpty
  | .listIsNotEmpty => do .ok !(← asList first).isEmpty
  | .listContains => do
    .ok ((← asList first).any fun item => sameItem caseSensitive item second)

/-! ## Conditions in a scope -/

/-- Whether a condition holds. -/
def conditionHolds (names : Names) (c : Condition) : Except Failure Bool := do
  let first ← resolve names c.first
  let second ← resolve names c.second
  (compare c.operator c.caseSensitive first second).mapError .error

/-- Whether all conditions of a group hold. The first one that does not decides. -/
def groupHolds (names : Names) : List Condition → Except Failure Bool
  | [] => .ok true
  | c :: rest => do if ← conditionHolds names c then groupHolds names rest else .ok false

/-- Whether one of the groups holds. The first one that does decides. -/
def someGroupHolds (names : Names) : List (List Condition) → Except Failure Bool
  | [] => .ok false
  | g :: rest => do if ← groupHolds names g then .ok true else someGroupHolds names rest

/-- Whether a set of conditions holds. Empty groups do not count; without groups the expression
decides alone, and an empty set does not hold. -/
def conditionsHold (names : Names) (c : ConditionSet) :
    Except Failure Bool := do
  if c.isEmpty then .ok false
  else
    let groups := c.groups.filter fun g => !g.isEmpty
    let holds ← if groups.isEmpty then .ok true else someGroupHolds names groups
    if holds then
      match c.expression with
      | none => .ok true
      | some e => evaluateBool names e
    else .ok false

end FlowEngine.Template
