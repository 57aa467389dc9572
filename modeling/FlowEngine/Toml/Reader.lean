import FlowEngine.Toml.Number
import FlowEngine.Toml.Table

/-!
# Reading TOML

* `value?` — a value; lists and inline tables may be nested less than `maxDepth` deep.
* `statement?` — one line of a file.
* `read?` — the document of a file.
-/

namespace FlowEngine.Toml

/-- Values and keys do not reach this depth. -/
def maxDepth : Nat := 80

/-- A key of less than the greatest depth. -/
def shortKey? (cs : List Char) : Option (List String × List Char) :=
  (key? cs).filter fun (key, _) => key.length < maxDepth

/-! ## Values -/

/-- A text, a number, a date, or a truth value. -/
def scalar? : Front Json
  | '"' :: rest => (text? ('"' :: rest)).map fun (s, rest) => (.str s, rest)
  | '\'' :: rest => (text? ('\'' :: rest)).map fun (s, rest) => (.str s, rest)
  | cs => word? cs

/-- The elements of a list up to its end; the last one may be followed by a comma. -/
def elements? (element : Front Json) : (fuel : Nat) → Front (List Json)
  | 0, _ => none
  | fuel + 1, cs =>
    match skipLines cs with
    | ']' :: rest => some ([], rest)
    | cs => do
      let (first, rest) ← element cs
      match skipLines rest with
      | ']' :: rest => some ([first], rest)
      | ',' :: rest => (elements? element fuel rest).map fun (es, rest) => (first :: es, rest)
      | _ => none

/-- An assignment: a key, an equals sign, and a value. -/
def assignment? (value : Front Json) (cs : List Char) :
    Option ((List String × Json) × List Char) := do
  let (key, rest) ← shortKey? cs
  let (json, rest) ← value (skipSpaces (← follow? '=' rest))
  some ((key, json), rest)

/-- The assignments of an inline table up to its end, at least one. -/
def assignments? (value : Front Json) : (fuel : Nat) → Front (List (List String × Json))
  | 0, _ => none
  | fuel + 1, cs => do
    let (first, rest) ← assignment? value cs
    match skipSpaces rest with
    | '\x7d' :: rest => some ([first], rest)
    | ',' :: rest => do
      let (others, rest) ← assignments? value fuel rest
      some (first :: others, rest)
    | _ => none

/-- An inline table, after its opening mark. -/
def inlineTable? (value : Front Json) (cs : List Char) : Option (Json × List Char) :=
  match skipSpaces cs with
  | '\x7d' :: rest => some (.obj [], rest)
  | _ => do
    let (all, rest) ← assignments? value (cs.length + 1) cs
    some (.obj (membersOf (← assignAll? all)), rest)

/-- A value; the depth bounds how deep lists and inline tables are nested. -/
def valueWithin? : (depth : Nat) → Front Json
  | depth + 1, '[' :: rest =>
    (elements? (valueWithin? depth) (rest.length + 1) rest).map fun (es, rest) => (.arr es, rest)
  | depth + 1, '\x7b' :: rest => inlineTable? (valueWithin? depth) rest
  | _, cs => scalar? cs

/-- A value. -/
def value? : Front Json := valueWithin? (maxDepth - 1)

/-! ## Lines -/

/-- What may stand after a statement: a comment, and the end of the line or of the file. -/
def closeLine? (cs : List Char) : Option (List Char) :=
  match skipComment (skipSpaces cs) with
  | [] => some []
  | cs => lineEnd? cs

/-- A line of a file; it may hold nothing but a comment. -/
def statement? (cs : List Char) : Option (Option Statement × List Char) :=
  match skipSpaces cs with
  | '[' :: '[' :: rest => do
    let (key, rest) ← shortKey? rest
    let rest ← closeLine? (← follow? ']' (← follow? ']' rest))
    some (some (.element key), rest)
  | '[' :: rest => do
    let (key, rest) ← shortKey? rest
    let rest ← closeLine? (← follow? ']' rest)
    some (some (.table key), rest)
  | cs =>
    match closeLine? cs with
    | some rest => some (none, rest)
    | none => do
      let ((key, json), rest) ← assignment? value? cs
      some (some (.assign key json), ← closeLine? rest)

/-- What all lines do to the tables; the fuel bounds their number. -/
def takeLines? : (fuel : Nat) → Draft → List Char → Option Draft
  | _, d, [] => some d
  | 0, _, _ => none
  | fuel + 1, d, cs => do
    match ← statement? cs with
    | (none, rest) => takeLines? fuel d rest
    | (some s, rest) => takeLines? fuel (← d.take? s) rest

/-- Drops the mark of the byte order. -/
def skipOrderMark : List Char → List Char
  | '\uFEFF' :: rest => rest
  | cs => cs

/-- The document of a file. -/
def read? (text : String) : Option Json := do
  let cs := skipOrderMark text.toList
  let d ← takeLines? (cs.length + 1) ⟨[], []⟩ cs
  some (.obj (membersOf d.entries))

end FlowEngine.Toml
