import FlowEngine.Json.Reader

/-!
# Blanks, keys and texts of TOML

* `skipSpaces`, `skipLines` — what may stand between tokens.
* `basic?`, `literal?`, `longBasic?`, `longLiteral?` — the four forms of a text.
* `key?` — a key, which may have several parts.
-/

namespace FlowEngine.Toml

/-- A reader takes something off the front of a text. -/
abbrev Front (α : Type) := List Char → Option (α × List Char)

/-! ## Blanks -/

/-- Spaces and tabs. -/
def isSpace (c : Char) : Bool := c == ' ' || c == '\t'

/-- Drops spaces and tabs. -/
def skipSpaces (cs : List Char) : List Char := cs.dropWhile isSpace

/-- Whether a character may stand in comments and texts: all but controls other than the tab. -/
def isPlain (c : Char) : Bool := c == '\t' || (32 ≤ c.toNat && c.toNat != 127)

/-- The end of a line. -/
def lineEnd? : List Char → Option (List Char)
  | '\n' :: rest => some rest
  | '\r' :: '\n' :: rest => some rest
  | _ => none

/-- Drops a comment, if there is one. -/
def skipComment : List Char → List Char
  | '#' :: rest => rest.dropWhile isPlain
  | cs => cs

/-- Drops spaces, comments and line ends; the fuel bounds the number of lines. -/
def skipLinesWithin : (fuel : Nat) → List Char → List Char
  | 0, cs => cs
  | fuel + 1, cs =>
    let cs := skipComment (skipSpaces cs)
    match lineEnd? cs with
    | some rest => skipLinesWithin fuel rest
    | none => cs

/-- Drops spaces, comments and line ends. -/
def skipLines (cs : List Char) : List Char := skipLinesWithin (cs.length + 1) cs

/-! ## Texts -/

/-- The character of a number of hexadecimal digits. -/
def codePoint? (width : Nat) (cs : List Char) : Option (Char × List Char) := do
  let digits := cs.take width
  if digits.length < width then none
  else
    let values ← digits.mapM Json.hexValue?
    let n := values.foldl (fun n v => 16 * n + v) 0
    if h : n.isValidChar then some (Char.ofNatAux n h, cs.drop width) else none

/-- The character of an escape, after its backslash. -/
def escape? : Front Char
  | 'b' :: rest => some (Char.ofNat 8, rest)
  | 't' :: rest => some ('\t', rest)
  | 'n' :: rest => some ('\n', rest)
  | 'f' :: rest => some (Char.ofNat 12, rest)
  | 'r' :: rest => some ('\r', rest)
  | '"' :: rest => some ('"', rest)
  | '\\' :: rest => some ('\\', rest)
  | 'u' :: rest => codePoint? 4 rest
  | 'U' :: rest => codePoint? 8 rest
  | _ => none

/-- A text on one line with escapes, after its opening mark. -/
def basicBody? : (fuel : Nat) → Front (List Char)
  | fuel + 1, '\\' :: rest => do
    let (c, rest) ← escape? rest
    let (cs, rest) ← basicBody? fuel rest
    some (c :: cs, rest)
  | fuel + 1, c :: rest =>
    if c = '"' then some ([], rest)
    else if isPlain c then (basicBody? fuel rest).map fun (cs, rest) => (c :: cs, rest)
    else none
  | _, _ => none

/-- A text on one line with escapes, after its opening mark. -/
def basic? (cs : List Char) : Option (String × List Char) :=
  (basicBody? (cs.length + 1) cs).map fun (s, rest) => (String.ofList s, rest)

/-- A text on one line as it is, after its opening mark. -/
def literal? (cs : List Char) : Option (String × List Char) :=
  match cs.span fun c => c != '\'' && isPlain c with
  | (s, '\'' :: rest) => some (String.ofList s, rest)
  | _ => none

/-- Drops the line end that may follow the opening mark of a long text. -/
def skipFirstLineEnd (cs : List Char) : List Char := (lineEnd? cs).getD cs

/-- The marks at the end of a long text: three close it, and up to two before them belong to it. -/
def closing? (mark : Char) (cs : List Char) : Option (List Char × List Char) :=
  let marks := (cs.takeWhile (· == mark)).length
  if marks < 3 then none
  else
    let own := min (marks - 3) 2
    some (List.replicate own mark, cs.drop (own + 3))

/-- Drops the blanks and line ends after a backslash at the end of a line. -/
def skipContinuation? (cs : List Char) : Option (List Char) := do
  let rest ← lineEnd? (skipSpaces cs)
  some (skip (rest.length + 1) rest)
where
  /-- Drops blank lines; the fuel bounds their number. -/
  skip : (fuel : Nat) → List Char → List Char
    | 0, cs => cs
    | fuel + 1, cs =>
      match lineEnd? (skipSpaces cs) with
      | some rest => skip fuel rest
      | none => skipSpaces cs

/-- A text on several lines with escapes, after its opening marks. -/
def longBasicBody? : (fuel : Nat) → Front (List Char)
  | 0, _ => none
  | fuel + 1, cs =>
    match closing? '"' cs with
    | some (own, rest) => some (own, rest)
    | none =>
      match lineEnd? cs with
      | some rest => (longBasicBody? fuel rest).map fun (s, rest) => ('\n' :: s, rest)
      | none =>
        match cs with
        | '\\' :: rest =>
          match skipContinuation? rest with
          | some rest => longBasicBody? fuel rest
          | none => do
            let (c, rest) ← escape? rest
            let (s, rest) ← longBasicBody? fuel rest
            some (c :: s, rest)
        | c :: rest =>
          if isPlain c then (longBasicBody? fuel rest).map fun (s, rest) => (c :: s, rest)
          else none
        | [] => none

/-- A text on several lines with escapes, after its opening marks. -/
def longBasic? (cs : List Char) : Option (String × List Char) :=
  (longBasicBody? (cs.length + 1) (skipFirstLineEnd cs)).map fun (s, rest) =>
    (String.ofList s, rest)

/-- A text on several lines as it is, after its opening marks. -/
def longLiteralBody? : (fuel : Nat) → Front (List Char)
  | 0, _ => none
  | fuel + 1, cs =>
    match closing? '\'' cs with
    | some (own, rest) => some (own, rest)
    | none =>
      match lineEnd? cs with
      | some rest => (longLiteralBody? fuel rest).map fun (s, rest) => ('\n' :: s, rest)
      | none =>
        match cs with
        | c :: rest =>
          if isPlain c then (longLiteralBody? fuel rest).map fun (s, rest) => (c :: s, rest)
          else none
        | [] => none

/-- A text on several lines as it is, after its opening marks. -/
def longLiteral? (cs : List Char) : Option (String × List Char) :=
  (longLiteralBody? (cs.length + 1) (skipFirstLineEnd cs)).map fun (s, rest) =>
    (String.ofList s, rest)

/-- A text in any of its forms. -/
def text? : Front String
  | '"' :: '"' :: '"' :: rest => longBasic? rest
  | '\'' :: '\'' :: '\'' :: rest => longLiteral? rest
  | '"' :: rest => basic? rest
  | '\'' :: rest => literal? rest
  | _ => none

/-! ## Keys -/

/-- The characters of a key without marks. -/
def isBare (c : Char) : Bool := c.isAlphanum || c == '_' || c == '-'

/-- A part of a key. -/
def keyPart? : Front String
  | '"' :: rest => basic? rest
  | '\'' :: rest => literal? rest
  | cs =>
    match cs.span isBare with
    | ([], _) => none
    | (name, rest) => some (String.ofList name, rest)

/-- A key of parts with dots between them; the fuel bounds their number. -/
def keyWithin? : (fuel : Nat) → Front (List String)
  | 0, _ => none
  | fuel + 1, cs => do
    let (part, rest) ← keyPart? (skipSpaces cs)
    match skipSpaces rest with
    | '.' :: rest => do
      let (parts, rest) ← keyWithin? fuel rest
      some (part :: parts, rest)
    | rest => some ([part], rest)

/-- A key, with the spaces around it. -/
def key? (cs : List Char) : Option (List String × List Char) := keyWithin? (cs.length + 1) cs

end FlowEngine.Toml
