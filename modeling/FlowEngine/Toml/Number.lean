import FlowEngine.Time.Calendar
import FlowEngine.Toml.Text

/-!
# Numbers and dates of TOML

* `integer?` — an integer of 64 bits in decimal, hexadecimal, octal or binary digits.
* `float?` — a number with a point or an exponent, or one that is not finite.
* `date?` — a date, a time, or both.
* `word?` — a value without marks around it.
-/

namespace FlowEngine.Toml

/-! ## Numbers -/

/-- Digits, with single underscores between them, without the underscores. -/
def digits? (isDigit : Char → Bool) : List Char → Option (List Char)
  | [] => none
  | [c] => if isDigit c then some [c] else none
  | c :: '_' :: d :: rest =>
    if isDigit c && isDigit d then (digits? isDigit (d :: rest)).map (c :: ·) else none
  | c :: rest => if isDigit c then (digits? isDigit rest).map (c :: ·) else none

/-- The value of digits to a base. -/
def valueOf (base : Nat) (ds : List Char) : Nat :=
  ds.foldl (fun n c => base * n + (Json.hexValue? c).getD 0) 0

/-- A sign, and what follows it. -/
def sign : List Char → Bool × List Char
  | '-' :: rest => (true, rest)
  | '+' :: rest => (false, rest)
  | cs => (false, cs)

/-- An integer if it has 64 bits. -/
def bounded (i : Int) : Option Json :=
  if -0x8000000000000000 ≤ i ∧ i < 0x8000000000000000 then some (.int i) else none

/-- An integer to a base that is no decimal one. -/
def based? (base : Nat) (isDigit : Char → Bool) (cs : List Char) : Option Json := do
  bounded (valueOf base (← digits? isDigit cs))

/-- An integer in decimal digits, without needless zeros. -/
def decimal? (cs : List Char) : Option Json := do
  let (negative, cs) := sign cs
  let ds ← digits? Char.isDigit cs
  if ds.head? = some '0' ∧ 1 < ds.length then none
  else
    let n := valueOf 10 ds
    bounded (if negative then -(n : Int) else n)

/-- An integer. -/
def integer? : List Char → Option Json
  | '0' :: 'x' :: cs => based? 16 (fun c => (Json.hexValue? c).isSome) cs
  | '0' :: 'o' :: cs => based? 8 (fun c => '0' ≤ c && c ≤ '7') cs
  | '0' :: 'b' :: cs => based? 2 (fun c => c == '0' || c == '1') cs
  | cs => decimal? cs

/-- The exponent of a number. -/
def exponent? (cs : List Char) : Option Int := do
  let (negative, cs) := sign cs
  let n := valueOf 10 (← digits? Char.isDigit cs)
  some (if negative then -(n : Int) else n)

/-- The digits of a number before and after the point, and its exponent. -/
def parts? (cs : List Char) : Option (List Char × List Char × Int) := do
  let (mantissa, power) := cs.span fun c => c != 'e' && c != 'E'
  let exponent ← match power with
    | _ :: digits => exponent? digits
    | [] => some 0
  match mantissa.span (· != '.') with
  | (whole, _ :: fraction) =>
    some (← digits? Char.isDigit whole, ← digits? Char.isDigit fraction, exponent)
  | (whole, []) =>
    if power.isEmpty then none else some (← digits? Char.isDigit whole, [], exponent)

/-- A number that is no integer. One that is too great is none. -/
def float? (cs : List Char) : Option Json := do
  let (negative, cs) := sign cs
  match cs with
  | ['i', 'n', 'f'] => some (.float (Binary64.infinity negative))
  | ['n', 'a', 'n'] => some (.float (Binary64.nan false))
  | cs =>
    let (whole, fraction, exponent) ← parts? cs
    if whole.head? = some '0' ∧ 1 < whole.length then none
    else
      let d : Decimal := ⟨valueOf 10 (whole ++ fraction), exponent - fraction.length⟩
      let x := Binary64.ofDecimal negative d
      if x = Binary64.infinity false then none else some (.float x)

/-! ## Dates -/

/-- A number of so many digits. -/
def fixed? (width : Nat) (cs : List Char) : Option (Nat × List Char) :=
  let ds := cs.take width
  if ds.length = width ∧ ds.all Char.isDigit then some (valueOf 10 ds, cs.drop width) else none

/-- A character, and what follows it. -/
def follow? (c : Char) : List Char → Option (List Char)
  | d :: rest => if d = c then some rest else none
  | [] => none

/-- A day of the calendar. -/
def day? (cs : List Char) : Option (List Char × List Char) := do
  let (year, rest) ← fixed? 4 cs
  let (month, rest) ← fixed? 2 (← follow? '-' rest)
  let (day, rest) ← fixed? 2 (← follow? '-' rest)
  if 1 ≤ month ∧ month ≤ 12 ∧ 1 ≤ day ∧ day ≤ Time.daysInMonth year month then
    some (cs.take 10, rest)
  else none

/-- A fraction of a second: at most nine digits count, without the zeros at their end. -/
def fractionOf (ds : List Char) : List Char :=
  let places := ((ds.take 9).reverse.dropWhile (· == '0')).reverse
  if places.isEmpty then [] else '.' :: places

/-- A time of the day. -/
def clock? (cs : List Char) : Option (List Char × List Char) := do
  let (hour, rest) ← fixed? 2 cs
  let (minute, rest) ← fixed? 2 (← follow? ':' rest)
  let (second, rest) ← fixed? 2 (← follow? ':' rest)
  if 23 < hour ∨ 59 < minute ∨ 60 < second then none
  else
    match rest with
    | '.' :: rest =>
      let ds := rest.takeWhile Char.isDigit
      if ds.isEmpty then none else some (cs.take 8 ++ fractionOf ds, rest.drop ds.length)
    | rest => some (cs.take 8, rest)

/-- The distance from UTC, if it is given. No distance is written with a plus sign. -/
def offset? (cs : List Char) : Option (List Char) :=
  match cs with
  | [] => some []
  | ['Z'] | ['z'] => some ['Z']
  | c :: rest =>
    if c = '+' ∨ c = '-' then do
      let (hours, rest) ← fixed? 2 rest
      let (minutes, rest) ← fixed? 2 (← follow? ':' rest)
      if hours ≤ 23 ∧ minutes ≤ 59 ∧ rest.isEmpty then
        some (if hours = 0 ∧ minutes = 0 then '+' :: cs.drop 1 else cs)
      else none
    else none

/-- The member under which a date stands in a document. -/
def dateMember : String := "$__toml_private_datetime"

/-- A date as a document. -/
def dateJson (text : List Char) : Json := .obj [(dateMember, .str (String.ofList text))]

/-- A date, a time, or both. -/
def date? (cs : List Char) : Option Json :=
  match day? cs with
  | some (day, []) => some (dateJson day)
  | some (day, c :: rest) => do
    if c = 'T' ∨ c = 't' ∨ c = ' ' then
      let (clock, rest) ← clock? rest
      let offset ← offset? rest
      some (dateJson (day ++ 'T' :: clock ++ offset))
    else none
  | none =>
    match clock? cs with
    | some (clock, []) => some (dateJson clock)
    | _ => none

/-! ## Words -/

/-- The characters of a value without marks. -/
def inWord (c : Char) : Bool :=
  c.isAlphanum || c == '+' || c == '-' || c == '_' || c == '.' || c == ':'

/-- The word at the start of a text. A space stands between a day and a time. -/
def takeWord (cs : List Char) : List Char × List Char :=
  match cs.span inWord with
  | (word, ' ' :: c :: rest) =>
    if (day? word).any (fun d => d.2.isEmpty) && c.isDigit then
      let (time, rest) := (c :: rest).span inWord
      (word ++ ' ' :: time, rest)
    else (word, ' ' :: c :: rest)
  | (word, rest) => (word, rest)

/-- The value of a word. -/
def wordValue? (word : List Char) : Option Json :=
  if word = "true".toList then some (.bool true)
  else if word = "false".toList then some (.bool false)
  else (integer? word).or ((float? word).or (date? word))

/-- A value without marks around it. -/
def word? (cs : List Char) : Option (Json × List Char) :=
  let (word, rest) := takeWord cs
  (wordValue? word).map fun j => (j, rest)

end FlowEngine.Toml
