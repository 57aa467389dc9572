import FlowEngine.Expr.Fault
import FlowEngine.Json.Reader

/-!
# Tokens of expressions

An expression is cut into names, numbers, texts and signs. Cutting stops at the first place where no
token begins; what is wrong there is kept as the last token, and counts if a parser gets so far.

* `Token`, `Sign` — the tokens.
* `lex` — an expression as tokens with their lines.
-/

namespace FlowEngine.Expr

/-- Operators and punctuation. -/
inductive Sign where
  | plus | minus | times | over | overFloor | percent | power
  | equal | notEqual | less | lessEqual | greater | greaterEqual
  | bang | dot | comma | colon | tilde | bar | assign
  | openParen | closeParen | openBracket | closeBracket | openBrace | closeBrace
  deriving DecidableEq, Inhabited

/-- The signs of two characters. -/
def Sign.ofPair? : Char → Char → Option Sign
  | '/', '/' => some .overFloor
  | '*', '*' => some .power
  | '=', '=' => some .equal
  | '!', '=' => some .notEqual
  | '>', '=' => some .greaterEqual
  | '<', '=' => some .lessEqual
  | _, _ => none

/-- The signs of one character. -/
def Sign.ofChar? : Char → Option Sign
  | '+' => some .plus
  | '-' => some .minus
  | '*' => some .times
  | '/' => some .over
  | '%' => some .percent
  | '!' => some .bang
  | '.' => some .dot
  | ',' => some .comma
  | ':' => some .colon
  | '~' => some .tilde
  | '|' => some .bar
  | '=' => some .assign
  | '>' => some .greater
  | '<' => some .less
  | '(' => some .openParen
  | ')' => some .closeParen
  | '[' => some .openBracket
  | ']' => some .closeBracket
  | '\x7b' => some .openBrace
  | '\x7d' => some .closeBrace
  | _ => none

/-- A token. -/
inductive Token where
  | name (text : String)
  | text (value : String)
  | int (value : Nat)
  | float (value : Binary64)
  | sign (sign : Sign)
  | bad (fault : Fault)
  deriving DecidableEq, Inhabited

/-- A token and the line on which it begins. -/
structure Lexeme where
  token : Token
  line : Nat
  deriving DecidableEq, Inhabited

/-! ## Names -/

/-- Whether a name can begin with a character. -/
def startsName (c : Char) : Bool := c.isAlpha || c == '_'

/-- Whether a character can stand in a name. -/
def inName (c : Char) : Bool := c.isAlphanum || c == '_'

/-! ## Numbers -/

/-- The part of a number that has been read. -/
inductive NumeralPart where
  | integer
  | fraction
  | exponentMark
  | exponent
  deriving DecidableEq

/-- The part of a number after one more character, if it belongs to the number. -/
def NumeralPart.next? (part : NumeralPart) (c : Char) : Option NumeralPart :=
  if c.isDigit then some (if part = .exponentMark then .exponent else part)
  else if c = '_' then some part
  else if c = '.' ∧ part = .integer then some .fraction
  else if (c = 'e' ∨ c = 'E') ∧ (part = .integer ∨ part = .fraction) then some .exponentMark
  else if (c = '+' ∨ c = '-') ∧ part = .exponentMark then some .exponent
  else none

/-- Whether a name begins there, so that a point before it looks up a field. -/
def namesField : List Char → Bool
  | c :: _ => startsName c
  | [] => false

/-- The characters of a decimal number, and whether it is a float. A point belongs to the number
unless a name follows it. -/
def decimalChars (part : NumeralPart) : List Char → List Char × Bool
  | [] => ([], part != .integer)
  | c :: rest =>
    match if c = '.' ∧ namesField rest then none else part.next? c with
    | some next =>
      let (cs, isFloat) := decimalChars next rest
      (c :: cs, isFloat)
    | none => ([], part != .integer)

/-- The base that a number is written in. -/
def radix? : List Char → Option Nat
  | '0' :: 'b' :: _ | '0' :: 'B' :: _ => some 2
  | '0' :: 'o' :: _ | '0' :: 'O' :: _ => some 8
  | '0' :: 'x' :: _ | '0' :: 'X' :: _ => some 16
  | _ => none

/-- An integer of 128 bits without a sign. -/
def integerToken? (radix : Nat) (digits : List Char) : Option Token := do
  let values ← digits.mapM Json.hexValue?
  if digits.isEmpty ∨ values.any fun v => radix ≤ v then none
  else
    let n := values.foldl (fun n d => radix * n + d) 0
    if Nat.log2 n < 128 then some (.int n) else none

/-- The number of characters of a number, and the number. An underscore may stand between digits. -/
def numberToken? (cs : List Char) : Option Token × Nat :=
  let (radix, skip, body, isFloat) : Nat × Nat × List Char × Bool :=
    match radix? cs with
    | some r =>
      let inNumeral (c : Char) : Bool :=
        c.isDigit || c == '_' || (r == 16 && (Json.hexValue? c).isSome)
      (r, 2, (cs.drop 2).takeWhile inNumeral, false)
    | none =>
      let (body, isFloat) := decimalChars .integer cs
      (10, 0, body, isFloat)
  let digits := body.filter (· != '_')
  let token :=
    if body.getLast? = some '_' then none
    else if isFloat then (Binary64.ofText? (String.ofList digits)).map .float
    else integerToken? radix digits
  (token, skip + body.length)

/-! ## Texts -/

/-- The characters up to a closing quotation mark that is not escaped, if there is one. -/
def textBody? (mark : Char) : List Char → Option (List Char)
  | [] => none
  | '\\' :: c :: rest => (textBody? mark rest).map fun cs => '\\' :: c :: cs
  | c :: rest =>
    if c = mark then some []
    else if c = '\\' then none
    else (textBody? mark rest).map (c :: ·)

/-- The code unit of four hexadecimal digits; a plus sign may stand for the first one. -/
def codeUnit? (a b c d : Char) : Option Nat := do
  let first ← if a = '+' then some 0 else Json.hexValue? a
  let values ← [b, c, d].mapM Json.hexValue?
  some (values.foldl (fun n v => 16 * n + v) first)

/-- The character of two surrogate code units. -/
def surrogatePair? (high low : Nat) : Option Char :=
  if 0xD800 ≤ high ∧ high < 0xDC00 ∧ 0xDC00 ≤ low ∧ low < 0xE000 then
    some (Char.ofNat (0x10000 + (high - 0xD800) * 0x400 + (low - 0xDC00)))
  else none

/-- What an escape with one letter stands for; an unknown one stands for itself. -/
def shortEscape (c : Char) : List Char :=
  match c with
  | 'n' => ['\n']
  | 'r' => ['\r']
  | 't' => ['\t']
  | 'b' => [Char.ofNat 8]
  | 'f' => [Char.ofNat 12]
  | '"' | '\'' | '\\' | '/' => [c]
  | c => ['\\', c]

/-- The value of an octal digit. -/
def octalValue? (c : Char) : Option Nat :=
  if '0' ≤ c ∧ c ≤ '7' then some (c.toNat - '0'.toNat) else none

/-- The character of octal digits, which is one of the first 256. -/
def octalChar? (digits : List Nat) : Option Char :=
  let n := digits.foldl (fun n d => 8 * n + d) 0
  if n < 256 then some (Char.ofNat n) else none

/-- The character of two hexadecimal digits; a plus sign may stand for the first one. -/
def hexChar? (a b : Char) : Option Char := do
  let high ← if a = '+' then some 0 else Json.hexValue? a
  let low ← Json.hexValue? b
  some (Char.ofNat (16 * high + low))

/-- Resolves escapes. A code unit that is half of a pair must be followed by the other half; up to
three octal digits are one character. -/
def unescape? : List Char → Option (List Char)
  | [] => some []
  | '\\' :: 'u' :: a :: b :: c :: d :: rest => do
    let unit ← codeUnit? a b c d
    if 0xD800 ≤ unit ∧ unit < 0xE000 then
      match rest with
      | '\\' :: 'u' :: e :: f :: g :: h :: rest => do
        let ch ← surrogatePair? unit (← codeUnit? e f g h)
        (unescape? rest).map (ch :: ·)
      | _ => none
    else (unescape? rest).map (Char.ofNat unit :: ·)
  | '\\' :: 'u' :: _ => none
  | '\\' :: 'x' :: a :: b :: rest => do
    let ch ← hexChar? a b
    (unescape? rest).map (ch :: ·)
  | '\\' :: 'x' :: _ => none
  | '\\' :: c :: rest =>
    match octalValue? c with
    | none => (unescape? rest).map (shortEscape c ++ ·)
    | some first =>
      match rest with
      | d :: e :: rest' =>
        match octalValue? d, octalValue? e with
        | some second, some third => do
          let ch ← octalChar? [first, second, third]
          (unescape? rest').map (ch :: ·)
        | some second, none => do
          let ch ← octalChar? [first, second]
          (unescape? (e :: rest')).map (ch :: ·)
        | none, _ => do
          let ch ← octalChar? [first]
          (unescape? (d :: e :: rest')).map (ch :: ·)
      | [d] =>
        match octalValue? d with
        | some second => (octalChar? [first, second]).map ([·])
        | none => (octalChar? [first]).map ([·, d])
      | [] => (octalChar? [first]).map ([·])
  | c :: rest => (unescape? rest).map (c :: ·)

/-! ## Cutting an expression into tokens -/

/-- Whether a character stands between tokens. -/
def isSpace (c : Char) : Bool :=
  c == ' ' || c == '\t' || c == '\n' || c == '\r' || c.toNat == 12

/-- The first token, and the number of its characters. -/
def token (cs : List Char) : Token × Nat :=
  match cs with
  | [] => (.bad .malformed, 0)
  | c :: rest =>
    match rest.head?.bind (Sign.ofPair? c) with
    | some s => (.sign s, 2)
    | none =>
      match Sign.ofChar? c with
      | some s => (.sign s, 1)
      | none =>
        if c = '\'' ∨ c = '"' then
          match textBody? c rest with
          | none => (.bad .malformed, 0)
          | some body =>
            match unescape? body with
            | some chars => (.text (String.ofList chars), body.length + 2)
            | none => (.bad .badEscape, 0)
        else if c.isDigit then
          match numberToken? cs with
          | (some t, n) => (t, n)
          | (none, _) => (.bad .malformed, 0)
        else if startsName c then
          let name := cs.takeWhile inName
          (.name (String.ofList name), name.length)
        else (.bad .malformed, 0)

/-- The number of line ends among characters. -/
def lineEnds (cs : List Char) : Nat := cs.count '\n'

/-- Cuts characters into tokens. The fuel bounds the number of tokens; `line` is the current line
and `last` the line of the token before. -/
def lexFrom : (fuel : Nat) → (line last : Nat) → List Char → List Lexeme
  | 0, _, _, _ => []
  | fuel + 1, line, last, cs =>
    let blanks := cs.takeWhile isSpace
    let line := line + lineEnds blanks
    match cs.drop blanks.length with
    | [] => []
    | c :: rest =>
      match token (c :: rest) with
      | (.bad fault, _) => [⟨.bad fault, last⟩]
      | (t, n) =>
        let chars := (c :: rest).take n
        ⟨t, line⟩ :: lexFrom fuel (line + lineEnds chars) line ((c :: rest).drop n)

/-- An expression as tokens. -/
def lex (text : String) : List Lexeme := lexFrom (text.length + 1) 1 0 text.toList

end FlowEngine.Expr
