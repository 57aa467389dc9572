import FlowEngine.Expr.Fault
import FlowEngine.Text.Case

/-!
# Errors of templates

* `editDistance` — the least number of single-character edits between two texts.
* `suggest?` — the name that was probably meant.
* `TemplateError` — what can be wrong with a template; `TemplateError.message` the wording.
-/

namespace FlowEngine.Template

/-! ## Suggestions -/

/-- The rest of a row of edit distances. `left` is the entry before, `diagonal` the one above that,
and the second list is the row above from here on. -/
def rowFrom (c : Char) : (left diagonal : Nat) → List Char → List Nat → List Nat
  | left, diagonal, d :: ds, above :: rest =>
    let x := min (min (diagonal + if c = d then 0 else 1) (left + 1)) (above + 1)
    x :: rowFrom c x above ds rest
  | _, _, _, _ => []

/-- The distances after one more character, from those before it. -/
def nextRow (target : List Char) (row : List Nat) (c : Char) : List Nat :=
  match row with
  | [] => []
  | d :: rest => (d + 1) :: rowFrom c (d + 1) d target rest

/-- The least number of insertions, deletions and substitutions that lead from one text to another.
A row holds the distances to all beginnings of the second text. -/
def editDistance (source target : List Char) : Nat :=
  ((source.foldl (nextRow target) (List.range (target.length + 1))).getLast?).getD 0

/-- The first of the names at the least distance. -/
def nearest? : List (Nat × String) → Option (Nat × String)
  | [] => none
  | x :: rest =>
    match nearest? rest with
    | none => some x
    | some y => if x.1 ≤ y.1 then some x else some y

/-- The name that was probably meant: one that differs in case only, or else the nearest one within
half the length, or within two. -/
def suggest? (typo : String) (names : List String) : Option String :=
  match names.find? fun n => Text.eqIgnoringAsciiCase n typo with
  | some n => some n
  | none =>
    let limit := max (typo.length / 2) 2
    let distances := names.map fun n => (editDistance typo.toList n.toList, n)
    (nearest? (distances.filter fun d => d.1 ≤ limit)).map Prod.snd

/-! ## Errors -/

/-- What can be wrong with a template. -/
inductive TemplateError where
  | undefinedVariable (name : String) (suggestion : Option String)
  | malformed (expression : String)
  | filterFailed (expression message : String)
  | typeMismatch (expected actual : String)
  | failed (message : String)
  deriving DecidableEq, Inhabited

namespace TemplateError

/-- The wording of an error. -/
def message : TemplateError → String
  | undefinedVariable name suggestion =>
    "undefined variable '" ++ name ++ "'" ++
      (match suggestion with
        | some s => ", did you mean '" ++ s ++ "'?"
        | none => "")
  | malformed e => "invalid expression '" ++ e ++ "': syntax error"
  | filterFailed e m => "filter '" ++ e ++ "' failed: " ++ m
  | typeMismatch expected actual => "type mismatch: expected " ++ expected ++ ", got " ++ actual
  | failed m => "expression error: " ++ m

end TemplateError

/-- How the evaluation of a template ends without a value: with an error, or with a crash of the
whole program. -/
inductive Failure where
  | error (error : TemplateError)
  | crash
  deriving DecidableEq, Inhabited

/-- The failure of an expression. -/
def Failure.ofLocated (expression : String) (e : Expr.Located) : Failure :=
  match e.fault with
  | .crash => .crash
  | .malformed => .error (.malformed expression)
  | .misuse _ | .unknownFilter _ => .error (.filterFailed expression e.message)
  | _ => .error (.failed (expression ++ ": " ++ e.message))

end FlowEngine.Template
