import FlowEngine.Json.Basic
import FlowEngine.Number.Decimal

/-!
# Writing JSON

Compact text has no blanks. Indented text puts every element on a line of its own, two blanks
deeper than its container; an empty container stays on one line.

* `Json.compact`, `Json.pretty` — the text of a document.
* `Json.quote` — a string literal.
* `Json.numberText` — a binary64 number with the fewest digits.
-/

namespace FlowEngine.Json

/-! ## Scalars -/

/-- A hexadecimal digit. -/
def hexDigit (n : Nat) : Char := (Nat.digitChar (n % 16))

/-- A character inside a string literal. Quotes, backslashes and controls are escaped. -/
def escapeChar (c : Char) : List Char :=
  if c = '"' then ['\\', '"']
  else if c = '\\' then ['\\', '\\']
  else if c = '\n' then ['\\', 'n']
  else if c = '\r' then ['\\', 'r']
  else if c = '\t' then ['\\', 't']
  else if c.toNat = 8 then ['\\', 'b']
  else if c.toNat = 12 then ['\\', 'f']
  else if c.toNat < 32 then ['\\', 'u', '0', '0', hexDigit (c.toNat / 16), hexDigit c.toNat]
  else [c]

/-- A string literal. -/
def quote (cs : List Char) : List Char := '"' :: (cs.flatMap escapeChar ++ ['"'])

/-- A binary64 number in the fewest digits that read back as it: positional from `10⁻⁵` to below
`10¹⁶`, and with a signed exponent beyond. An integral number keeps a point. What is not finite is
null. -/
def numberText (x : Binary64) : List Char :=
  if x.isFinite then
    let d := x.shortest
    let p := d.pointPosition
    let text :=
      if d.digits = 0 ∨ -5 < p ∧ p ≤ 16 then Binary64.positionalText d
      else d.mantissa ++ 'e' :: (if 0 < p then '+' :: (toString (p - 1)).toList
        else (toString (p - 1)).toList)
    if x.negative then '-' :: text else text
  else ['n', 'u', 'l', 'l']

/-- The text of a document that is no container. -/
def scalarText : Json → List Char
  | .bool true => ['t', 'r', 'u', 'e']
  | .bool false => ['f', 'a', 'l', 's', 'e']
  | .int i => (toString i).toList
  | .float x => numberText x
  | .str s => quote s.toList
  | _ => ['n', 'u', 'l', 'l']

/-! ## Compact text -/

mutual

/-- The text without blanks. -/
def compactChars : Json → List Char
  | .arr elements => '[' :: (compactElements elements ++ [']'])
  | .obj members => '\x7b' :: (compactMembers members ++ ['\x7d'])
  | j => scalarText j

/-- Elements with commas between them. -/
def compactElements : List Json → List Char
  | [] => []
  | [j] => compactChars j
  | j :: rest => compactChars j ++ ',' :: compactElements rest

/-- Members with commas between them. -/
def compactMembers : List (String × Json) → List Char
  | [] => []
  | [(k, j)] => quote k.toList ++ ':' :: compactChars j
  | (k, j) :: rest => quote k.toList ++ ':' :: (compactChars j ++ ',' :: compactMembers rest)

end

/-- The text without blanks. -/
def compact (j : Json) : String := String.ofList (compactChars j)

/-! ## Indented text -/

/-- A line break and the indentation of a level. -/
def newLine (level : Nat) : List Char := '\n' :: List.replicate (2 * level) ' '

mutual

/-- The indented text of a document whose first line is already placed at a level. -/
def prettyChars (level : Nat) : Json → List Char
  | .arr [] => ['[', ']']
  | .arr elements => '[' :: (prettyElements (level + 1) elements ++ newLine level ++ [']'])
  | .obj [] => ['\x7b', '\x7d']
  | .obj members =>
    '\x7b' :: (prettyMembers (level + 1) members ++ newLine level ++ ['\x7d'])
  | j => scalarText j

/-- Elements on lines of their own. -/
def prettyElements (level : Nat) : List Json → List Char
  | [] => []
  | [j] => newLine level ++ prettyChars level j
  | j :: rest => newLine level ++ prettyChars level j ++ ',' :: prettyElements level rest

/-- Members on lines of their own. -/
def prettyMembers (level : Nat) : List (String × Json) → List Char
  | [] => []
  | [(k, j)] => newLine level ++ quote k.toList ++ ':' :: ' ' :: prettyChars level j
  | (k, j) :: rest =>
    newLine level ++ quote k.toList ++
      ':' :: ' ' :: (prettyChars level j ++ ',' :: prettyMembers level rest)

end

/-- The indented text. -/
def pretty (j : Json) : String := String.ofList (prettyChars 0 j)

end FlowEngine.Json
