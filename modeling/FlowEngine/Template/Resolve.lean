import FlowEngine.Expr.Parser
import FlowEngine.Template.Error
import FlowEngine.Template.Scope

/-!
# Templates

A template is a document whose texts can hold expressions between double braces. A text that is a
single token gives whatever its expression gives; in any other text the values are written between
the rest.

* `pieces` — a text cut into tokens and what stands between them.
* `resolve` — a template with all tokens replaced.
* `evaluate`, `evaluateBool` — a single expression.
* `check` — whether all tokens can be read.
* `tokens`, `unknownReferences` — what a template refers to.
-/

namespace FlowEngine.Template

open FlowEngine.Expr

/-! ## Tokens -/

/-- A part of a text: as it is, or the inside of a token. -/
inductive Piece where
  | text (chars : List Char)
  | token (inside : List Char)
  deriving DecidableEq, Inhabited

/-- What opens a token. -/
def opening : List Char := ['\x7b', '\x7b']

/-- What closes a token. -/
def closing : List Char := ['\x7d', '\x7d']

/-- The first token: what stands before it, its inside, and what follows. -/
def cutToken? (cs : List Char) : Option (List Char × List Char × List Char) := do
  let (before, rest) ← Text.cut? opening cs
  let (inside, after) ← Text.cut? closing rest
  some (before, inside, after)

/-- A part as it is, unless there is nothing. -/
def plainPiece (cs : List Char) : List Piece := if cs.isEmpty then [] else [.text cs]

/-- The pieces of a text; the fuel bounds their number. -/
def piecesWithin : (fuel : Nat) → List Char → List Piece
  | 0, cs => plainPiece cs
  | fuel + 1, cs =>
    match cutToken? cs with
    | none => plainPiece cs
    | some (before, inside, after) =>
      plainPiece before ++ .token inside :: piecesWithin fuel after

/-- The pieces of a text. -/
def pieces (cs : List Char) : List Piece := piecesWithin cs.length cs

/-- The inside of a text that is a single token. -/
def onlyToken? (cs : List Char) : Option (List Char) :=
  match pieces cs with
  | [.token inside] => some inside
  | _ => none

/-- The expression inside a token. -/
def expressionOf (inside : List Char) : String := String.ofList (Text.trim inside)

/-- The expressions in a text. -/
def tokensOfText (s : String) : List String :=
  (pieces s.toList).filterMap fun
    | .text _ => none
    | .token inside => some (expressionOf inside)

mutual

/-- The expressions of a template in order. -/
def tokens : Json → List String
  | .str s => tokensOfText s
  | .arr elements => tokensOfAll elements
  | .obj members => tokensOfMembers members
  | _ => []

/-- The expressions of templates in order. -/
def tokensOfAll : List Json → List String
  | [] => []
  | j :: rest => tokens j ++ tokensOfAll rest

/-- The expressions of members in order. -/
def tokensOfMembers : List (String × Json) → List String
  | [] => []
  | (_, j) :: rest => tokens j ++ tokensOfMembers rest

end

/-! ## Evaluation -/

/-- The term of an expression. -/
def readTerm (expression : String) : Except Failure Term :=
  (Term.read expression).mapError (Failure.ofLocated expression)

/-- The value of an expression. -/
def valueOf (names : Names) (expression : String) : Except Failure Value := do
  let e ← readTerm expression
  (e.eval names).mapError (Failure.ofLocated expression)

/-- The document that an expression gives; the empty one gives nothing. -/
def evaluate (names : Names) (expression : String) : Except Failure Json :=
  let e := Text.trimText expression
  if e = "" then .ok .null else (valueOf names e).map Value.toJson

/-- The expression of a condition, without braces around it. -/
def conditionText (expression : String) : String :=
  let cs := Text.trim expression.toList
  expressionOf ((onlyToken? cs).getD cs)

/-- Whether an expression counts as true; braces may stand around it. The empty one does not. -/
def evaluateBool (names : Names) (expression : String) : Except Failure Bool :=
  let e := conditionText expression
  if e = "" then .ok false else (valueOf names e).map Value.isTrue

/-! ## Resolution -/

/-- What is written into a text for a value: nothing for null, a text as it is, and other values as
documents. -/
def inserted : Json → List Char
  | .null => []
  | .str s => s.toList
  | j => j.compactChars

/-- The text of pieces. -/
def interpolate (names : Names) : List Piece → Except Failure (List Char)
  | [] => .ok []
  | .text cs :: rest => do
    let after ← interpolate names rest
    .ok (cs ++ after)
  | .token inside :: rest => do
    let j ← evaluate names (String.ofList inside)
    let after ← interpolate names rest
    .ok (inserted j ++ after)

/-- A text with its tokens replaced. -/
def resolveText (names : Names) (s : String) : Except Failure Json :=
  match onlyToken? (Text.trim s.toList) with
  | some inside => evaluate names (String.ofList inside)
  | none => (interpolate names (pieces s.toList)).map fun cs => .str (String.ofList cs)

mutual

/-- A template with all tokens replaced. Names of members are left as they are. -/
def resolve (names : Names) : Json → Except Failure Json
  | .str s => resolveText names s
  | .arr elements => do .ok (.arr (← resolveAll names elements))
  | .obj members => do .ok (.obj (← resolveMembers names members))
  | j => .ok j

/-- Templates with all tokens replaced. -/
def resolveAll (names : Names) : List Json → Except Failure (List Json)
  | [] => .ok []
  | j :: rest => do
    let v ← resolve names j
    let vs ← resolveAll names rest
    .ok (v :: vs)

/-- Members with all tokens replaced. -/
def resolveMembers (names : Names) : List (String × Json) → Except Failure (List (String × Json))
  | [] => .ok []
  | (name, j) :: rest => do
    let v ← resolve names j
    let vs ← resolveMembers names rest
    .ok ((name, v) :: vs)

end

/-! ## Checks -/

/-- Whether all expressions of a template can be read. -/
def check (template : Json) : Except Failure Unit :=
  (tokens template).forM fun e => (readTerm e).map fun _ => ()

/-- Names that are part of the language. -/
def keywords : List String := ["true", "false", "none", "True", "False", "None", "not"]

/-- The name that an expression begins with. -/
def rootName? (expression : String) : Option String :=
  match Text.trimStart expression.toList with
  | [] => none
  | c :: rest =>
    if startsName c then some (String.ofList (c :: rest.takeWhile inName)) else none

/-- The names that expressions begin with and that are not known, each once. -/
def unknownRoots (known : List String) (expressions : List String) : List String :=
  ((expressions.filterMap rootName?).filter fun root =>
    !known.contains root && !keywords.contains root).eraseDups

/-- The references of a template to unknown names. -/
def unknownReferences (known : List String) (template : Json) : List TemplateError :=
  (unknownRoots known (tokens template)).map fun root =>
    .undefinedVariable root (suggest? root known)

end FlowEngine.Template
