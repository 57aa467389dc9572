import FlowEngine.Expr.Operator
import FlowEngine.Expr.Term

/-!
# Constant terms

A term built from literals and operators has its value before anything is evaluated, if its
operators succeed. A list or a map has one if literals alone stand in it.

* `BinaryOp.apply`, `CompareOp.apply` — the values of operators.
* `Term.constant?` — the value of a constant term.
* `Term.line` — the line that is reported for a step that follows a term. A constant term counts as
  a whole, with the line on which it begins; of another term the part that is evaluated last counts.
-/

namespace FlowEngine.Expr

/-- The value of an operator. -/
def BinaryOp.apply (op : BinaryOp) (a b : Value) : Eval Value :=
  match op with
  | add => a.add b
  | sub => a.sub b
  | mul => a.mul b
  | div => a.div b
  | floorDiv => a.floorDiv b
  | mod => a.mod b
  | pow => a.pow b
  | concat => .ok (a.concat b)

/-- The truth of a comparison. -/
def CompareOp.apply (op : CompareOp) (a b : Value) : Eval Bool :=
  match op with
  | eq => .ok (a.equal b)
  | ne => .ok (!a.equal b)
  | lt => .ok (a.order b == .lt)
  | le => .ok (a.order b != .gt)
  | gt => .ok (a.order b == .gt)
  | ge => .ok (a.order b != .lt)
  | isIn => b.contains a
  | notIn => (b.contains a).map (!·)

/-- Both of two values, before anything is evaluated: if one of them counts as false, that is
`false`. -/
def bothOf (a b : Value) : Value := if a.isTrue && b.isTrue then b else .bool false

namespace Term

/-- The value of a literal. -/
def literal? : Term → Option Value
  | literal _ v => some v
  | _ => none

/-- The values of an entry of literals. -/
def literalEntry? (e : Term × Term) : Option (Value × Value) := do
  let k ← literal? e.1
  let v ← literal? e.2
  some (k, v)

mutual

/-- The value of a constant term. -/
def constant? : Term → Option Value
  | literal _ v => some v
  | list _ items => (items.mapM literal?).map .seq
  | map _ entries => (entries.mapM literalEntry?).map .ofEntries
  | negate _ e => do
    let v ← constant? e
    v.negate.toOption
  | invert _ e => (constant? e).map fun v => .bool !v.isTrue
  | binary _ op l r => do
    let a ← constant? l
    let b ← constant? r
    (op.apply a b).toOption
  | compare _ first rest => do
    let a ← constant? first
    constantCompared? a rest
  | conj _ l r => do
    let a ← constant? l
    let b ← constant? r
    some (bothOf a b)
  | disj _ l r => do
    let a ← constant? l
    let b ← constant? r
    some (if a.isTrue then a else b)
  | _ => none

/-- The value of comparisons with the operand before them, if all operands are constant. -/
def constantCompared? (a : Value) : List (CompareOp × Term) → Option Value
  | [] => some (.bool true)
  | (op, e) :: rest => do
    let b ← constant? e
    let holds ← (op.apply a b).toOption
    let after ← constantCompared? b rest
    some (if holds then after else .bool false)

end

/-- The line on which a constant term begins, and otherwise that of its last part. -/
def lineOfWhole (e : Term) (first last : Nat) : Nat := if e.constant?.isSome then first else last

/-- Whether all arguments passed by keyword are literals under a name. -/
def literalKeywords (args : List (Passing × Term)) : Bool :=
  args.all fun a =>
    match a.1 with
    | .keyword _ => a.2.literal?.isSome
    | .spreadKeywords => false
    | .position | .spread => true

mutual

/-- The line that is reported for a step that follows a term. -/
def line : Term → Nat
  | literal l _ | name l _ => l
  | list l items => lineOfWhole (list l items) l (lastLine l items)
  | map l entries => lineOfWhole (map l entries) l (lastEntryLine l entries)
  | negate l e => lineOfWhole (negate l e) l (line e)
  | invert l e => lineOfWhole (invert l e) l (line e)
  | binary l op a b => lineOfWhole (binary l op a b) l (line b)
  | compare l e rest => lineOfWhole (compare l e rest) l (lastComparedLine (line e) rest)
  | conj l a b => lineOfWhole (conj l a b) l (line b)
  | disj l a b => lineOfWhole (disj l a b) l (line b)
  | conditional _ yes no => optionLine (line yes) no
  | field e _ => line e
  | item _ key => line key
  | slice e start stop step => optionLine (optionLine (optionLine (line e) start) stop) step
  | filter e _ args | test e _ args | callField e _ args | callValue e args =>
    lastKeywordLine (literalKeywords args) (lastPositionLine (line e) args) args
  | call l _ args => lastKeywordLine (literalKeywords args) (lastPositionLine l args) args

/-- The line of a term that may be missing. -/
def optionLine (otherwise : Nat) : Option Term → Nat
  | none => otherwise
  | some e => line e

/-- The line of the last term. -/
def lastLine (otherwise : Nat) : List Term → Nat
  | [] => otherwise
  | e :: rest => lastLine (line e) rest

/-- The line of the last value of a map. -/
def lastEntryLine (otherwise : Nat) : List (Term × Term) → Nat
  | [] => otherwise
  | (_, v) :: rest => lastEntryLine (line v) rest

/-- The line of the last operand of comparisons. -/
def lastComparedLine (otherwise : Nat) : List (CompareOp × Term) → Nat
  | [] => otherwise
  | (_, e) :: rest => lastComparedLine (line e) rest

/-- The line of the last argument that is passed by position. -/
def lastPositionLine (otherwise : Nat) : List (Passing × Term) → Nat
  | [] => otherwise
  | (passing, e) :: rest =>
    lastPositionLine (if passing.isKeyword then otherwise else line e) rest

/-- The line of the last argument that is passed by keyword; literals have none. -/
def lastKeywordLine (literals : Bool) (otherwise : Nat) : List (Passing × Term) → Nat
  | [] => otherwise
  | (passing, e) :: rest =>
    lastKeywordLine literals (if passing.isKeyword && !literals then line e else otherwise) rest

end

end Term

end FlowEngine.Expr
