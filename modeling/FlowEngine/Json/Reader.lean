import FlowEngine.Json.Basic
import FlowEngine.Number.Decimal

/-!
# Reading JSON

* `Json.read?` — the document of a text; containers may be nested `maxDepth` deep.
* `Json.readRecord?` — the record of a text, of which only the known members matter.
* `Json.readValue?` — the value of a text.
* `Json.Numeral` — how the digits of a number are read.
-/

namespace FlowEngine.Json

/-- How deep containers may be nested. -/
def maxDepth : Nat := 127

/-- Drops blanks, tabs and line breaks. -/
def skipBlanks (cs : List Char) : List Char :=
  cs.dropWhile fun c => c == ' ' || c == '\n' || c == '\t' || c == '\r'

/-! ## Strings -/

/-- The value of a hexadecimal digit. -/
def hexValue? (c : Char) : Option Nat :=
  if c.isDigit then some (c.toNat - '0'.toNat)
  else if 'a' ≤ c ∧ c ≤ 'f' then some (c.toNat - 'a'.toNat + 10)
  else if 'A' ≤ c ∧ c ≤ 'F' then some (c.toNat - 'A'.toNat + 10)
  else none

/-- The four hexadecimal digits after an escape, and the rest. -/
def hexFour? : List Char → Option (Nat × List Char)
  | a :: b :: c :: d :: rest => do
    let a ← hexValue? a
    let b ← hexValue? b
    let c ← hexValue? c
    let d ← hexValue? d
    some (((a * 16 + b) * 16 + c) * 16 + d, rest)
  | _ => none

/-- The character of a `u` escape. A high surrogate needs a low one after it. -/
def unicodeEscape? (cs : List Char) : Option (Char × List Char) := do
  let (n, rest) ← hexFour? cs
  if 0xD800 ≤ n ∧ n < 0xDC00 then
    match rest with
    | '\\' :: 'u' :: rest =>
      let (m, rest) ← hexFour? rest
      if 0xDC00 ≤ m ∧ m < 0xE000 then
        some (Char.ofNat (0x10000 + (n - 0xD800) * 0x400 + (m - 0xDC00)), rest)
      else none
    | _ => none
  else if 0xDC00 ≤ n ∧ n < 0xE000 then none
  else some (Char.ofNat n, rest)

/-- The character of an escape, after its backslash. -/
def escape? : List Char → Option (Char × List Char)
  | 'u' :: rest => unicodeEscape? rest
  | c :: rest =>
    match c with
    | '"' | '\\' | '/' => some (c, rest)
    | 'b' => some (Char.ofNat 8, rest)
    | 'f' => some (Char.ofNat 12, rest)
    | 'n' => some ('\n', rest)
    | 'r' => some ('\r', rest)
    | 't' => some ('\t', rest)
    | _ => none
  | [] => none

/-- The characters up to the closing quote; the first argument bounds their number. -/
def stringBody? : Nat → List Char → Option (List Char × List Char)
  | fuel + 1, '\\' :: rest => do
    let (c, rest) ← escape? rest
    let (cs, rest) ← stringBody? fuel rest
    some (c :: cs, rest)
  | fuel + 1, c :: rest =>
    if c = '"' then some ([], rest)
    else if c.toNat < 32 then none
    else (stringBody? fuel rest).map fun (cs, rest) => (c :: cs, rest)
  | _, _ => none

/-- What follows a string, whose escapes need not stand for characters; the first argument bounds
the number of characters. -/
def afterString? : Nat → List Char → Option (List Char)
  | fuel + 1, '\\' :: 'u' :: rest => do afterString? fuel (← hexFour? rest).2
  | fuel + 1, '\\' :: rest => do afterString? fuel (← escape? rest).2
  | fuel + 1, c :: rest =>
    if c = '"' then some rest else if c.toNat < 32 then none else afterString? fuel rest
  | _, _ => none

/-- A string after its opening quote. -/
def string? (cs : List Char) : Option (String × List Char) :=
  (stringBody? (cs.length + 1) cs).map fun (s, rest) => (String.ofList s, rest)

/-! ## Numbers -/

/-- The greatest integer. -/
def maxInteger : Nat := 0xFFFFFFFFFFFFFFFF

/-- Adds digits to a significand as long as it stays an integer; returns the digits left over. -/
def takeDigits (significand : Nat) : List Char → Nat × List Char
  | [] => (significand, [])
  | c :: rest =>
    let next := 10 * significand + (c.toNat - '0'.toNat)
    if maxInteger < next then (significand, c :: rest) else takeDigits next rest

/-- A number as it is written: the digits before the point, those after it if there is a point, and
the exponent if there is one. -/
structure Numeral where
  negative : Bool
  whole : List Char
  fraction : Option (List Char)
  exponent : Option Int

/-- The exponent part of a number. -/
def exponentPart? (cs : List Char) : Option (Option Int × List Char) :=
  match cs with
  | c :: rest =>
    if c = 'e' ∨ c = 'E' then
      let (negative, ds) := match rest with
        | '-' :: ds => (true, ds)
        | '+' :: ds => (false, ds)
        | ds => (false, ds)
      let digits := ds.takeWhile Char.isDigit
      if digits.isEmpty then none
      else
        let n := Binary64.digitsValue digits
        some (some (if negative then -(n : Int) else n), ds.dropWhile Char.isDigit)
    else some (none, cs)
  | [] => some (none, [])

/-- The numeral at the start of a text. Zero is the only number that starts with a zero, and a point
is followed by a digit. -/
def numeral? (cs : List Char) : Option (Numeral × List Char) := do
  let (negative, cs) := match cs with
    | '-' :: cs => (true, cs)
    | cs => (false, cs)
  let whole := cs.takeWhile Char.isDigit
  let cs := cs.dropWhile Char.isDigit
  if whole.isEmpty || (whole.head? == some '0' && 1 < whole.length) then none
  else
    match cs with
    | '.' :: cs =>
      let fraction := cs.takeWhile Char.isDigit
      if fraction.isEmpty then none
      else
        let (exponent, rest) ← exponentPart? (cs.dropWhile Char.isDigit)
        some (⟨negative, whole, some fraction, exponent⟩, rest)
    | cs =>
      let (exponent, rest) ← exponentPart? cs
      some (⟨negative, whole, none, exponent⟩, rest)

/-- The number of a numeral. Without point and exponent it is an integer if it is in range; minus
zero is binary64. Digits that no longer fit the significand only count as places. -/
def Numeral.value? (n : Numeral) : Option Json :=
  let (significand, dropped) := takeDigits 0 n.whole
  match n.fraction, n.exponent, dropped with
  | none, none, [] =>
    if !n.negative then some (.int significand)
    else if significand = 0 ∨ 0x8000000000000000 < significand then
      some (.float (Binary64.ofNat significand).neg)
    else some (.int (-(significand : Int)))
  | _, _, _ =>
    let fraction := n.fraction.getD []
    let (significand, left) := takeDigits significand fraction
    let exponent := n.exponent.getD 0 + dropped.length - (fraction.length - left.length : Nat)
    (Binary64.ofScientific significand exponent).map fun x =>
      .float (if n.negative then x.neg else x)

/-- A number. -/
def number? (cs : List Char) : Option (Json × List Char) := do
  let (n, rest) ← numeral? cs
  let j ← n.value?
  some (j, rest)

/-! ## Documents -/

/-- What a reader of one document is: it takes the document off the front of a text. -/
abbrev Front := List Char → Option (Json × List Char)

/-- How strings, after their opening quotes, and numbers are read. -/
structure Leaves where
  string? : List Char → Option (String × List Char)
  number? : Front

/-- Strings and numbers with their values. -/
def Leaves.valued : Leaves := ⟨Json.string?, Json.number?⟩

/-- Strings and numbers that are passed over: they must be well formed, but need not have values. -/
def Leaves.skimmed : Leaves where
  string? cs := (afterString? (cs.length + 1) cs).map ("", ·)
  number? cs := (numeral? cs).map fun (_, rest) => (.null, rest)

/-- The elements after an opening bracket or a comma, up to the closing bracket; the first argument
bounds their number. -/
def elements? (element : Front) : Nat → List Char → Option (List Json × List Char)
  | 0, _ => none
  | fuel + 1, cs => do
    let (j, cs) ← element cs
    match skipBlanks cs with
    | ',' :: cs =>
      let (js, rest) ← elements? element fuel cs
      some (j :: js, rest)
    | ']' :: rest => some ([j], rest)
    | _ => none

/-- A member's name and colon. -/
def memberName? (leaves : Leaves) (cs : List Char) : Option (String × List Char) :=
  match skipBlanks cs with
  | '"' :: cs => do
    let (k, cs) ← leaves.string? cs
    match skipBlanks cs with
    | ':' :: cs => some (k, cs)
    | _ => none
  | _ => none

/-- The members after an opening brace or a comma, up to the closing brace. How the value of a
member is read may depend on its name; the number bounds how many there are. -/
def members? (leaves : Leaves) (value : String → Front) :
    Nat → List Char → Option (List (String × Json) × List Char)
  | 0, _ => none
  | fuel + 1, cs => do
    let (k, cs) ← memberName? leaves cs
    let (j, cs) ← value k cs
    match skipBlanks cs with
    | ',' :: cs =>
      let (ms, rest) ← members? leaves value fuel cs
      some ((k, j) :: ms, rest)
    | '\x7d' :: rest => some ([(k, j)], rest)
    | _ => none

/-- An object after its opening brace. -/
def object? (leaves : Leaves) (value : String → Front) (cs : List Char) :
    Option (Json × List Char) :=
  match skipBlanks cs with
  | '\x7d' :: rest => some (.obj [], rest)
  | cs => (members? leaves value (cs.length + 1) cs).map fun (ms, rest) => (.obj ms, rest)

/-- A document that is no container. -/
def scalar? (leaves : Leaves) : Front
  | 't' :: 'r' :: 'u' :: 'e' :: rest => some (.bool true, rest)
  | 'f' :: 'a' :: 'l' :: 's' :: 'e' :: rest => some (.bool false, rest)
  | 'n' :: 'u' :: 'l' :: 'l' :: rest => some (.null, rest)
  | '"' :: rest => (leaves.string? rest).map fun (s, rest) => (.str s, rest)
  | cs => leaves.number? cs

/-- The document at the start of a text, with containers nested at most so deep. -/
def document? (leaves : Leaves) : (depth : Nat) → Front
  | 0, cs =>
    match skipBlanks cs with
    | '[' :: _ | '\x7b' :: _ => none
    | cs => scalar? leaves cs
  | depth + 1, cs =>
    match skipBlanks cs with
    | '[' :: cs =>
      match skipBlanks cs with
      | ']' :: rest => some (.arr [], rest)
      | cs =>
        (elements? (document? leaves depth) (cs.length + 1) cs).map fun (js, rest) =>
          (.arr js, rest)
    | '\x7b' :: cs => object? leaves (fun _ => document? leaves depth) cs
    | cs => scalar? leaves cs

/-- What a reader has read, if nothing but blanks follows. -/
def whole? : Option (Json × List Char) → Option Json
  | some (j, rest) => if (skipBlanks rest).isEmpty then some j else none
  | none => none

/-- The document of a text; nothing but blanks may follow it. -/
def read? (text : String) : Option Json := whole? (document? .valued maxDepth text.toList)

/-- The record of a text. Members with other names than those of its fields are passed over, however
deep they are. -/
def readRecord? (names : List String) (text : String) : Option Json :=
  match skipBlanks text.toList with
  | '\x7b' :: cs =>
    whole? (object? .valued (fun name =>
      if names.contains name then document? .valued (maxDepth - 1)
      else document? .skimmed cs.length) cs)
  | _ => read? text

/-- The value of a text. -/
def readValue? (text : String) : Option Json := (read? text).map canonical

end FlowEngine.Json
