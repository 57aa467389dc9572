import FlowEngine.Expr.Token

/-!
# Terms

The shape of an expression.

* `Term` — expressions.
* `Passing` — the ways to pass an argument.
-/

namespace FlowEngine.Expr

/-- Operators between two operands that are both evaluated. -/
inductive BinaryOp where
  | add | sub | mul | div | floorDiv | mod | pow | concat
  deriving DecidableEq, Inhabited

/-- Comparisons. -/
inductive CompareOp where
  | eq | ne | lt | le | gt | ge | isIn | notIn
  deriving DecidableEq, Inhabited

/-- How an argument is passed: by position or by keyword, and there alone or as many as the argument
has items or entries. -/
inductive Passing where
  | position
  | spread
  | keyword (name : String)
  | spreadKeywords
  deriving DecidableEq, Inhabited

/-- Whether an argument is passed by keyword. -/
def Passing.isKeyword : Passing → Bool
  | position | spread => false
  | keyword _ | spreadKeywords => true

/-- An expression. What can be a constant knows the line on which it begins, and so do names and
calls of names. -/
inductive Term where
  | literal (line : Nat) (value : Value)
  | name (line : Nat) (id : String)
  | list (line : Nat) (items : List Term)
  | map (line : Nat) (entries : List (Term × Term))
  | negate (line : Nat) (operand : Term)
  | invert (line : Nat) (operand : Term)
  | binary (line : Nat) (op : BinaryOp) (left right : Term)
  | compare (line : Nat) (first : Term) (rest : List (CompareOp × Term))
  | conj (line : Nat) (left right : Term)
  | disj (line : Nat) (left right : Term)
  | conditional (test whenTrue : Term) (whenFalse : Option Term)
  | field (object : Term) (name : String)
  | item (object key : Term)
  | slice (object : Term) (start stop step : Option Term)
  | filter (operand : Term) (name : String) (args : List (Passing × Term))
  | test (operand : Term) (name : String) (args : List (Passing × Term))
  | call (line : Nat) (function : String) (args : List (Passing × Term))
  | callField (object : Term) (name : String) (args : List (Passing × Term))
  | callValue (callee : Term) (args : List (Passing × Term))
  deriving Inhabited

end FlowEngine.Expr
