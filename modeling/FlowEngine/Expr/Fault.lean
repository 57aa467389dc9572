import FlowEngine.Expr.Value

/-!
# Faults of expressions

What can go wrong when an expression is read or evaluated, and how it is worded.

* `Misuse` — a value is used for something it is not made for.
* `Fault` — all faults; `Fault.message` their wording.
* `Located` — a fault with the line of the expression where it arose.
-/

namespace FlowEngine.Expr

/-- A value is used for something it is not made for. -/
inductive Misuse where
  | notNegatable
  | overflow
  | absoluteOverflow
  | unsupportedOperands (operator : String) (left right : Kind)
  | notCalculable (left operator right : String)
  | repeatedText
  | repeatedList
  | repeatedUnsized
  | notContainer
  | zeroStep
  | notSliceable (kind : Kind)
  | noLength (kind : Kind)
  | notIterable (kind : Kind)
  | notListable
  | notPairs
  | notReversible (kind : Kind)
  | notSummable (kind : Kind)
  | notRoundable (kind : Kind)
  | noAbsolute
  | notCallable (kind : Kind)
  | notKeywords (kind : Kind)
  | unnamedKeyword
  | argumentsOfSuper
  | argumentsOfLoop
  | outsideBlock
  | outsideLoop
  | notText
  | notConvertible (source : String) (target : String)
  | badNumeral
  | emptyNumeral
  | zeroRangeStep
  | hugeRange
  | noFilterName
  | badFilterName
  | notMapping
  | notFirstable
  | notLastable
  | notInstant (text reason : String)
  | notEpoch (number : String)
  | notTime (document : String)
  deriving DecidableEq, Inhabited

/-- The wording of a misuse, if it has one of its own. -/
def Misuse.message? : Misuse → Option String
  | notNegatable | notMapping => none
  | overflow => some "overflow"
  | absoluteOverflow => some "overflow on abs"
  | unsupportedOperands op l r =>
    some ("tried to use " ++ op ++ " operator on unsupported types " ++ l.name ++ " and " ++ r.name)
  | notCalculable l op r => some ("unable to calculate " ++ l ++ " " ++ op ++ " " ++ r)
  | repeatedText => some "strings can only be multiplied with integers"
  | repeatedList => some "sequences and iterables can only be multiplied with integers"
  | repeatedUnsized => some "cannot repeat unsized iterables"
  | notContainer => some "cannot perform a containment check on this value"
  | zeroStep => some "cannot slice by step size of 0"
  | notSliceable k => some ("value of type " ++ k.name ++ " cannot be sliced")
  | noLength k => some ("cannot calculate length of value of type " ++ k.name)
  | notIterable k => some (k.name ++ " is not iterable")
  | notListable => some "cannot convert value to list"
  | notPairs => some "cannot convert value into pair list"
  | notReversible k => some ("cannot reverse values of type " ++ k.name)
  | notSummable k => some ("can only sum numbers, got " ++ k.name)
  | notRoundable k => some ("cannot round value (" ++ k.name ++ ")")
  | noAbsolute => some "cannot get absolute value"
  | notCallable k =>
    match k with
    | .sequence | .map | .iterator | .plain => some "object is not callable"
    | k => some ("value of type " ++ k.name ++ " is not callable")
  | notKeywords k =>
    some ("attempted to apply keyword arguments from non map (got " ++ k.name ++ ")")
  | unnamedKeyword => some "non string keys passed to kwargs"
  | argumentsOfSuper => some "super() takes no arguments"
  | argumentsOfLoop => some "loop() takes one argument"
  | outsideBlock => some "cannot super outside of block"
  | outsideLoop => some "cannot recurse outside of loop"
  | notText => some "value is not a string"
  | notConvertible source target => some ("cannot convert " ++ source ++ " to " ++ target)
  | badNumeral => some "invalid float literal"
  | emptyNumeral => some "cannot parse float from empty string"
  | zeroRangeStep => some "cannot create range with step of 0"
  | hugeRange => some "range has too many elements"
  | noFilterName => some "filter name is required"
  | badFilterName => some "filter name must be a string"
  | notFirstable => some "first expects a list"
  | notLastable => some "last expects a list"
  | notInstant text reason =>
    some ("cannot parse '" ++ text ++ "' as RFC3339: " ++ reason)
  | notEpoch n => some (n ++ " is not a valid Unix timestamp")
  | notTime document =>
    some ("strftime expects \"now\", an RFC3339 string or Unix seconds, got " ++ document)

/-- What can go wrong. A crash ends the whole program. -/
inductive Fault where
  | malformed
  | badEscape
  | misuse (misuse : Misuse)
  | undefinedValue
  | unknownFilter (name : Option String)
  | unknownTest (name : Option String)
  | unknownFunction (name : String)
  | unknownMethod (kind : Kind) (name : String)
  | missingArgument
  | tooManyArguments (unknown : Option String)
  | crash
  deriving DecidableEq, Inhabited

namespace Fault

/-- A text and what follows it after a colon. -/
def withDetail (text : String) : Option String → String
  | none => text
  | some detail => text ++ ": " ++ detail

/-- The wording of a fault. -/
def message : Fault → String
  | malformed => "syntax error"
  | badEscape => "bad string escape"
  | misuse m => withDetail "invalid operation" m.message?
  | undefinedValue => "undefined value"
  | unknownFilter name =>
    withDetail "unknown filter" (name.map fun n => "filter " ++ n ++ " is unknown")
  | unknownTest name => withDetail "unknown test" (name.map fun n => "test " ++ n ++ " is unknown")
  | unknownFunction name => "unknown function: " ++ name ++ " is unknown"
  | unknownMethod kind name =>
    "unknown method: " ++ kind.name ++ " has no method named " ++ name
  | missingArgument => "missing argument"
  | tooManyArguments unknown =>
    withDetail "too many arguments" (unknown.map fun n => "unknown keyword argument '" ++ n ++ "'")
  | crash => "crash"

end Fault

/-- A fault and the line of the expression where it arose. -/
structure Located where
  fault : Fault
  line : Nat
  deriving DecidableEq, Inhabited

/-- The wording of a fault with its line. -/
def Located.message (e : Located) : String :=
  e.fault.message ++ " (in <expression>:" ++ toString e.line ++ ")"

/-- A computation that may go wrong. -/
abbrev Eval := Except Fault

/-- A misuse as an outcome. -/
def misuse {α : Type} (m : Misuse) : Eval α := .error (.misuse m)

end FlowEngine.Expr
