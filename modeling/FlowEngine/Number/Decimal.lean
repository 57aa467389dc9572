import FlowEngine.Number.Binary64

/-!
# Decimal numbers

Between binary64 numbers and decimal digits, in exact arithmetic.

* `Binary64.shortest` — the fewest digits that read back as the number, and of those the nearest.
* `Binary64.ofDecimal` — the number nearest to a decimal.
* `Binary64.ofScientific` — reading in two roundings: the digits, then the power of ten.
* `Binary64.ofText?` — the number that a text stands for.
-/

namespace FlowEngine

/-- The decimal `digits · 10 ^ exponent`. -/
structure Decimal where
  digits : Nat
  exponent : Int
  deriving DecidableEq, Inhabited

/-- How many decimal digits a natural number has; zero has none. -/
def decimalLength (n : Nat) : Nat := go (Nat.log2 n + 1) n
where
  /-- One digit a step; the first argument bounds their number. -/
  go : Nat → Nat → Nat
    | 0, _ => 0
    | fuel + 1, n => if n = 0 then 0 else go fuel (n / 10) + 1

namespace Decimal

/-- The digits of the coefficient, most significant first; zero has the one digit `0`. -/
def digitChars (d : Decimal) : List Char := Nat.toDigits 10 d.digits

/-- How many digits stand before the decimal point in positional notation; zero or negative if the
number is below one. -/
def pointPosition (d : Decimal) : Int := d.digitChars.length + d.exponent

/-- Strips zeros off the end of the coefficient. -/
def normalize (d : Decimal) : Decimal := go (Nat.log2 d.digits + 1) d
where
  /-- One zero a step; the first argument bounds their number. -/
  go : Nat → Decimal → Decimal
    | 0, d => d
    | fuel + 1, d =>
      if d.digits ≠ 0 ∧ d.digits % 10 = 0 then go fuel ⟨d.digits / 10, d.exponent + 1⟩ else d

/-- Positional notation: all digits, with zeros up to the point or after it. The fraction is left
out if it is empty. -/
def positional (d : Decimal) : List Char :=
  let ds := d.digitChars
  if 0 ≤ d.exponent then ds ++ List.replicate d.exponent.toNat '0'
  else if 0 < d.pointPosition then
    ds.take d.pointPosition.toNat ++ '.' :: ds.drop d.pointPosition.toNat
  else '0' :: '.' :: (List.replicate (-d.pointPosition).toNat '0' ++ ds)

/-- The digits with a point after the first one, if there are more. -/
def mantissa (d : Decimal) : List Char :=
  match d.digitChars with
  | [] => []
  | [c] => [c]
  | c :: rest => c :: '.' :: rest

end Decimal

namespace Binary64

/-! ## The fewest digits -/

/-- Compares `c · 10 ^ p` with `n / 2 ^ k`. -/
def compareDecimal (c : Nat) (p : Int) (n k : Nat) : Ordering :=
  if 0 ≤ p then compare (c * Nat.pow 10 p.toNat * Nat.pow 2 k) n
  else compare (c * Nat.pow 2 k) (n * Nat.pow 10 (-p).toNat)

/-- The interval of reals that round to a finite number, in quarters of a unit. Below a power of
two the neighbour is half as far away. The ends belong to it if the significand is even. -/
structure Basin where
  lower : Nat
  value : Nat
  upper : Nat
  closed : Bool

/-- The reals that round to the number. -/
def basin (x : Binary64) : Basin :=
  let step := Nat.pow 2 x.stepExponent
  let v := 4 * x.units
  let below := if x.fraction = 0 ∧ 1 < x.exponentField then step else 2 * step
  ⟨v - below, v, v + 2 * step, x.significand % 2 = 0⟩

/-- Quarters of a unit are `2 ^ (-basinExponent)`. -/
def basinExponent : Nat := unitExponent + 2

/-- Whether `c · 10 ^ p` rounds to the number. -/
def Basin.contains (b : Basin) (c : Nat) (p : Int) : Bool :=
  let low := compareDecimal c p b.lower basinExponent
  let high := compareDecimal c p b.upper basinExponent
  if b.closed then low != .lt && high != .gt else low == .gt && high == .lt

/-- How many digits stand before the point in `n / 2 ^ k`, for a positive `n`: a negative count
counts zeros after the point. -/
def decimalPlace (n k : Nat) : Int :=
  if Nat.pow 2 k ≤ n then decimalLength (n / Nat.pow 2 k)
  else 1 - (decimalLength ((Nat.pow 2 k + n - 1) / n - 1) : Int)

/-- The multiple of `10 ^ p` just below `n / 2 ^ k`. -/
def decimalFloor (n k : Nat) (p : Int) : Nat :=
  if 0 ≤ p then n / (Nat.pow 2 k * Nat.pow 10 p.toNat) else n * Nat.pow 10 (-p).toNat / Nat.pow 2 k

/-- Whether the multiple of `10 ^ p` above `n / 2 ^ k` is nearer than the one, `c`, below it; a tie
goes to the even one. -/
def nearerAbove (n k c : Nat) (p : Int) : Bool :=
  match compareDecimal (2 * c + 1) p (2 * n) k with
  | .lt => true
  | .gt => false
  | .eq => c % 2 = 1

/-- The decimal on the grid `10 ^ p` that rounds to the number and is nearest to it, if any is. -/
def Basin.onGrid (b : Basin) (p : Int) : Option Decimal :=
  let c := decimalFloor b.value basinExponent p
  match b.contains c p && 0 < c, b.contains (c + 1) p with
  | true, true => some ⟨if nearerAbove b.value basinExponent c p then c + 1 else c, p⟩
  | true, false => some ⟨c, p⟩
  | false, true => some ⟨c + 1, p⟩
  | false, false => none

/-- The first grid that holds a decimal that rounds to the number, from coarse to fine. -/
def Basin.search (b : Basin) : Nat → Int → Decimal
  | 0, p => ⟨decimalFloor b.value basinExponent p, p⟩
  | fuel + 1, p => (b.onGrid p).getD (b.search fuel (p - 1))

/-- The magnitude of a finite number in the fewest decimal digits that read back as it; of those
the nearest to it. Seventeen digits are always enough. -/
def shortest (x : Binary64) : Decimal :=
  if x.units = 0 then ⟨0, 0⟩
  else
    let b := x.basin
    (b.search 17 (decimalPlace b.value basinExponent - 1)).normalize

/-! ## Reading decimals -/

/-- The number nearest to `digits · 10 ^ exponent`. Beyond 400 places either way the answer is
infinite or zero, and the power of ten is not computed. -/
def ofDecimal (negative : Bool) (d : Decimal) : Binary64 :=
  let place := d.exponent + decimalLength d.digits
  if d.digits = 0 ∨ place < -400 then zero negative
  else if 400 < place then infinity negative
  else if 0 ≤ d.exponent then ofRatio negative (d.digits * Nat.pow 10 d.exponent.toNat) 1
  else ofRatio negative d.digits (Nat.pow 10 (-d.exponent).toNat)

/-- The power of ten nearest to `10 ^ n`. -/
def powerOfTen (n : Nat) : Binary64 := ofDecimal false ⟨1, n⟩

/-- Reads `digits · 10 ^ exponent` in two roundings: the digits first, then the product with or the
quotient by the power of ten. Powers below `10⁻³⁰⁸` are divided out in steps of `10³⁰⁸`. A result
that is too large is no number. -/
def ofScientific (digits : Nat) (exponent : Int) : Option Binary64 :=
  let f := ofNat digits
  if 0 ≤ exponent then
    if f.isZero then some f
    else if 308 < exponent then none
    else
      let r := f.mul (powerOfTen exponent.toNat)
      if r.isFinite then some r else none
  else some (go ((-exponent).toNat / 308 + 1) f (-exponent).toNat)
where
  /-- Divides by `10 ^ n`, at most 308 places a step. -/
  go : Nat → Binary64 → Nat → Binary64
    | 0, f, _ => f
    | fuel + 1, f, n =>
      if n ≤ 308 then f.div (powerOfTen n)
      else if f.isZero then f
      else go fuel (f.div (powerOfTen 308)) (n - 308)

/-- The value of a run of decimal digits. -/
def digitsValue (ds : List Char) : Nat :=
  ds.foldl (fun n c => 10 * n + (c.toNat - '0'.toNat)) 0

/-- An exponent part: a mark `e`, an optional sign and digits to the end of the text. -/
def exponentOf? : List Char → Option Int
  | [] => some 0
  | c :: rest =>
    if c = 'e' ∨ c = 'E' then
      let (negative, ds) := match rest with
        | '-' :: ds => (true, ds)
        | '+' :: ds => (false, ds)
        | ds => (false, ds)
      if ds.isEmpty || !ds.all Char.isDigit then none
      else some (if negative then -(digitsValue ds : Int) else digitsValue ds)
    else none

/-- An unsigned decimal numeral: digits with at most one point and an optional exponent. A digit
must stand on one side of the point. -/
def unsignedOf? (negative : Bool) (cs : List Char) : Option Binary64 :=
  let whole := cs.takeWhile Char.isDigit
  let (part, rest) := match cs.dropWhile Char.isDigit with
    | '.' :: rest => (rest.takeWhile Char.isDigit, rest.dropWhile Char.isDigit)
    | rest => ([], rest)
  if whole.isEmpty && part.isEmpty then none
  else
    (exponentOf? rest).map fun e =>
      ofDecimal negative ⟨digitsValue (whole ++ part), e - part.length⟩

/-- The number that a text stands for: an optional sign, then a decimal numeral or one of the words
`inf`, `infinity` and `nan` in any case. -/
def ofText? (s : String) : Option Binary64 :=
  let (negative, cs) := match s.toList with
    | '-' :: cs => (true, cs)
    | '+' :: cs => (false, cs)
    | cs => (false, cs)
  let word := cs.map Char.toLower
  if word = "inf".toList ∨ word = "infinity".toList then some (infinity negative)
  else if word = "nan".toList then some (nan negative)
  else unsignedOf? negative cs

/-! ## Written forms -/

/-- A sign in front of the text of the magnitude. -/
def signed (x : Binary64) (text : List Char) : String :=
  String.ofList (if x.negative then '-' :: text else text)

/-- Positional notation with at least one digit after the point. -/
def positionalText (d : Decimal) : List Char :=
  if 0 ≤ d.exponent then d.positional ++ ['.', '0'] else d.positional

/-- Plain decimals without an exponent, always with a point. -/
def plainText (x : Binary64) : String :=
  match x.view with
  | .nan => "NaN"
  | .infinite s => if s then "-inf" else "inf"
  | .finite _ _ => x.signed (positionalText x.shortest)

/-- Positional from `10⁻⁴` up to below `10¹⁶` and scientific, as in `1.5e-7`, beyond. -/
def compactText (x : Binary64) : String :=
  match x.view with
  | .nan => "NaN"
  | .infinite s => if s then "-inf" else "inf"
  | .finite _ _ =>
    let d := x.shortest
    if d.digits = 0 ∨ -4 < d.pointPosition ∧ d.pointPosition ≤ 16 then x.signed (positionalText d)
    else x.signed (d.mantissa ++ 'e' :: (toString (d.pointPosition - 1)).toList)

/-- Fixed places: the magnitude rounded to `places` digits after the point, a half to even. -/
def fixedText (x : Binary64) (places : Nat) : String :=
  match x.view with
  | .nan => "NaN"
  | .infinite s => if s then "-inf" else "inf"
  | .finite _ m =>
    let n := roundHalfEven (m * Nat.pow 10 places) unitsOfOne
    let ds := Nat.toDigits 10 n
    let ds := List.replicate (places + 1 - ds.length) '0' ++ ds
    let whole := ds.take (ds.length - places)
    x.signed (if places = 0 then whole else whole ++ '.' :: ds.drop (ds.length - places))

end Binary64

end FlowEngine
