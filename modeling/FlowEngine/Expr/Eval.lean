import FlowEngine.Expr.Constant
import FlowEngine.Expr.Filter

/-!
# Evaluating expressions

* `Names` — what an expression can refer to.
* `Term.eval` — the value of a term.
-/

namespace FlowEngine.Expr

/-- What an expression can refer to: named values and the current time. -/
structure Names where
  lookup : String → Option Value
  now : Time.Instant

/-- Where a fault arose. -/
def located {α : Type} (line : Nat) (e : Eval α) : Except Located α :=
  e.mapError fun fault => ⟨fault, line⟩

/-- The value of a name: what is in scope, or else a function. -/
def Names.value (names : Names) (id : String) : Value :=
  match names.lookup id with
  | some v => v
  | none =>
    match Function.named? id with
    | some f => .function f
    | none => .undefined

/-- A call of what stands under a name in a value. -/
def callField (v : Value) (name : String) (args : Args) : Eval Value :=
  match v.field? name with
  | some f => callValue f args
  | none => .error (.unknownMethod v.kind name)

/-- A call by name. Two names are for what surrounds a template, which an expression does not
have. -/
def Names.call (names : Names) (id : String) (args : Args) : Eval Value :=
  match id with
  | "super" => misuse (if args.size = 0 then .outsideBlock else .argumentsOfSuper)
  | "loop" => misuse (if args.size = 1 then .outsideLoop else .argumentsOfLoop)
  | id =>
    match names.value id with
    | .undefined => .error (.unknownFunction id)
    | v => callValue v args

/-- The arguments of a call. Those by position are evaluated before those by keyword. -/
def gatherArgs (line : Nat) (positional keywords : Except Located (List (Passing × Value))) :
    Except Located Args := do
  let first ← positional
  let named ← keywords
  located line (Args.gather first named)

namespace Term

variable (names : Names)

mutual

/-- The value of a term. -/
def eval : Term → Except Located Value
  | literal _ v => .ok v
  | name _ id => .ok (names.value id)
  | list _ items => do .ok (.seq (← evalAll items))
  | map _ entries => do .ok (Value.ofEntries (← evalEntries entries))
  | negate line e => do
    let v ← eval e
    located line v.negate
  | invert _ e => do
    let v ← eval e
    .ok (.bool !v.isTrue)
  | binary _ op l r => do
    let a ← eval l
    let b ← eval r
    located r.line (op.apply a b)
  | compare _ first rest => do
    let a ← eval first
    evalCompared a rest
  | conj _ l r => do
    let a ← eval l
    match l.constant?, r.constant? with
    | some _, some b => .ok (bothOf a b)
    | _, _ => if a.isTrue then eval r else .ok a
  | disj _ l r => do
    let a ← eval l
    if a.isTrue then .ok a else eval r
  | conditional cond yes no => do
    let t ← eval cond
    if t.isTrue then eval yes else evalOption .undefined no
  | field e id => do
    let v ← eval e
    .ok ((v.field? id).getD .undefined)
  | item e key => do
    let v ← eval e
    let k ← eval key
    .ok ((v.item? k).getD .undefined)
  | slice e start stop step => do
    let v ← eval e
    let first ← evalOption .none start
    let last ← evalOption .none stop
    let stride ← evalOption .none step
    located (slice e start stop step).line (v.slice first last stride)
  | filter e id args => do
    let v ← eval e
    let values ← gatherArgs (filter e id args).line (evalPassed false args) (evalPassed true args)
    located (filter e id args).line
      (applyFilter names.now values.keywords values.positional id v)
  | test e id args => do
    let v ← eval e
    let values ← gatherArgs (test e id args).line (evalPassed false args) (evalPassed true args)
    located (test e id args).line ((applyTest id v values).map .bool)
  | call line id args => do
    let values ← gatherArgs line (evalPassed false args) (evalPassed true args)
    located (call line id args).line (names.call id values)
  | callField e id args => do
    let v ← eval e
    let values ← gatherArgs (callField e id args).line (evalPassed false args) (evalPassed true args)
    located (callField e id args).line (Expr.callField v id values)
  | callValue e args => do
    let v ← eval e
    let values ← gatherArgs (callValue e args).line (evalPassed false args) (evalPassed true args)
    located (callValue e args).line (Expr.callValue v values)

/-- The value of a term that may be missing. -/
def evalOption (otherwise : Value) : Option Term → Except Located Value
  | none => .ok otherwise
  | some e => eval e

/-- The values of terms. -/
def evalAll : List Term → Except Located (List Value)
  | [] => .ok []
  | e :: rest => do
    let v ← eval e
    let vs ← evalAll rest
    .ok (v :: vs)

/-- The values of keys and values. -/
def evalEntries : List (Term × Term) → Except Located (List (Value × Value))
  | [] => .ok []
  | (k, e) :: rest => do
    let key ← eval k
    let v ← eval e
    let vs ← evalEntries rest
    .ok ((key, v) :: vs)

/-- The values of the arguments that are passed by keyword, or of those that are not. -/
def evalPassed (keywords : Bool) : List (Passing × Term) → Except Located (List (Passing × Value))
  | [] => .ok []
  | (passing, e) :: rest =>
    if passing.isKeyword = keywords then do
      let v ← eval e
      let vs ← evalPassed keywords rest
      .ok ((passing, v) :: vs)
    else evalPassed keywords rest

/-- The value of comparisons with the operand before them: all must hold. -/
def evalCompared (a : Value) : List (CompareOp × Term) → Except Located Value
  | [] => .ok a
  | (op, e) :: rest => do
    let b ← eval e
    let holds ← located e.line (op.apply a b)
    if holds ∧ !rest.isEmpty then evalCompared b rest else .ok (.bool holds)

end

end Term

end FlowEngine.Expr
