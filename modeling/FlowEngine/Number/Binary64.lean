/-!
# Binary64 numbers

A floating-point number is its bit pattern, and every operation is exact arithmetic on natural
numbers followed by one rounding. All finite numbers are multiples of `2⁻¹⁰⁷⁴`, so a finite number
is read as a sign and a count of such units.

* `Binary64.view` — not a number, an infinity, or a sign and a count of units.
* `Binary64.ofRatio` — the number nearest to a fraction, a tie going to the even neighbour.
* `add`, `sub`, `mul`, `div`, `rem` — the exact result, rounded once.
* `Binary64.compare?` — the order of the values; not a number is ordered with nothing.
-/

namespace FlowEngine

/-- A floating-point number of 64 bits: sign, 11 bits of exponent, 52 bits of fraction. -/
structure Binary64 where
  bits : UInt64
  deriving DecidableEq, Inhabited

/-- The integer nearest to `num / den`, a tie going to the even one. -/
def roundHalfEven (num den : Nat) : Nat :=
  let q := num / den
  let r := num % den
  if 2 * r < den then q
  else if den < 2 * r then q + 1
  else if q % 2 = 0 then q else q + 1

namespace Binary64

/-! ## Reading a bit pattern -/

/-- All finite numbers are multiples of `2 ^ (-unitExponent)`. -/
def unitExponent : Nat := 1074

/-- The number one in units. -/
def unitsOfOne : Nat := Nat.pow 2 unitExponent

/-- The bit pattern of positive infinity; larger magnitudes are not numbers. -/
def infinityBits : Nat := 0x7FF0000000000000

/-- The bits without the sign. -/
def magnitude (x : Binary64) : Nat := x.bits.toNat % 0x8000000000000000

/-- Whether the sign bit is set. -/
def negative (x : Binary64) : Bool := decide (0x8000000000000000 ≤ x.bits.toNat)

/-- The biased exponent, from 0 to 2047. -/
def exponentField (x : Binary64) : Nat := x.magnitude / 0x10000000000000

/-- The 52 bits after the binary point. -/
def fraction (x : Binary64) : Nat := x.magnitude % 0x10000000000000

/-- The integer significand; subnormal numbers have no hidden bit. -/
def significand (x : Binary64) : Nat :=
  if x.exponentField = 0 then x.fraction else x.fraction + 0x10000000000000

/-- How many units one step of the significand is, as a power of two. -/
def stepExponent (x : Binary64) : Nat := x.exponentField - 1

/-- The magnitude of a finite number, in units of `2⁻¹⁰⁷⁴`. -/
def units (x : Binary64) : Nat := x.significand * Nat.pow 2 x.stepExponent

/-- What a bit pattern stands for. -/
inductive View where
  | nan
  | infinite (negative : Bool)
  | finite (negative : Bool) (units : Nat)
  deriving DecidableEq

/-- What the bit pattern stands for. -/
def view (x : Binary64) : View :=
  if x.magnitude < infinityBits then .finite x.negative x.units
  else if x.magnitude = infinityBits then .infinite x.negative
  else .nan

/-- Neither an infinity nor not a number. -/
def isFinite (x : Binary64) : Bool := decide (x.magnitude < infinityBits)

/-- Not a number. -/
def isNaN (x : Binary64) : Bool := decide (infinityBits < x.magnitude)

/-! ## Rounding to a bit pattern -/

/-- The number with this sign and these magnitude bits; too large a magnitude is infinite. -/
def ofMagnitude (negative : Bool) (magnitude : Nat) : Binary64 :=
  let m := min magnitude infinityBits
  ⟨UInt64.ofNat (if negative then m + 0x8000000000000000 else m)⟩

/-- The magnitude bits nearest to `num / den` units. The significand is cut to 53 bits; a carry out
of it runs into the exponent field, which is what the next power of two looks like. -/
def roundUnits (num den : Nat) : Nat :=
  let k := Nat.log2 (num / den) - 52
  k * 0x10000000000000 + roundHalfEven num (den * Nat.pow 2 k)

/-- The number nearest to `num / den`, for a positive `den`. -/
def ofRatio (negative : Bool) (num den : Nat) : Binary64 :=
  ofMagnitude negative (roundUnits (num * unitsOfOne) den)

/-- The number nearest to an integer. -/
def ofInt (i : Int) : Binary64 := ofRatio (decide (i < 0)) i.natAbs 1

/-- The number nearest to a natural number. -/
def ofNat (n : Nat) : Binary64 := ofRatio false n 1

/-- Zero with a sign. -/
def zero (negative : Bool) : Binary64 := ofMagnitude negative 0

/-- Infinity with a sign. -/
def infinity (negative : Bool) : Binary64 := ofMagnitude negative infinityBits

/-- The quiet pattern for "not a number", with a sign. -/
def nan (negative : Bool) : Binary64 :=
  ⟨if negative then 0xFFF8000000000000 else 0x7FF8000000000000⟩

/-- What an operation gives that has no result; its sign bit is set. -/
def noResult : Binary64 := nan true

/-- The number nearest to a signed count of units over `den`; an exact zero takes `zeroSign`. -/
def ofSigned (units : Int) (den : Nat) (zeroSign : Bool) : Binary64 :=
  ofMagnitude (if units = 0 then zeroSign else decide (units < 0)) (roundUnits units.natAbs den)

/-! ## Arithmetic -/

/-- The signed count of units of a finite number. -/
def signedUnits (negative : Bool) (units : Nat) : Int :=
  if negative then -(units : Int) else units

/-- The opposite number. -/
def neg (x : Binary64) : Binary64 := ⟨x.bits ^^^ 0x8000000000000000⟩

/-- The absolute value. -/
def abs (x : Binary64) : Binary64 := ⟨x.bits &&& 0x7FFFFFFFFFFFFFFF⟩

/-- The sum. -/
def add (x y : Binary64) : Binary64 :=
  match x.view, y.view with
  | .nan, _ => x
  | _, .nan => y
  | .infinite s, .infinite t => if s = t then infinity s else noResult
  | .infinite s, _ | _, .infinite s => infinity s
  | .finite s m, .finite t n => ofSigned (signedUnits s m + signedUnits t n) 1 (s && t)

/-- The difference. -/
def sub (x y : Binary64) : Binary64 := x.add (if y.isNaN then y else y.neg)

/-- The product. -/
def mul (x y : Binary64) : Binary64 :=
  match x.view, y.view with
  | .nan, _ => x
  | _, .nan => y
  | .infinite s, .infinite t => infinity (s != t)
  | .infinite s, .finite t n | .finite t n, .infinite s =>
    if n = 0 then noResult else infinity (s != t)
  | .finite s m, .finite t n =>
    ofMagnitude (s != t) (roundUnits (m * n) unitsOfOne)

/-- The quotient; a finite number divided by zero is infinite. -/
def div (x y : Binary64) : Binary64 :=
  match x.view, y.view with
  | .nan, _ => x
  | _, .nan => y
  | .infinite _, .infinite _ => noResult
  | .infinite s, .finite t _ => infinity (s != t)
  | .finite s _, .infinite t => zero (s != t)
  | .finite s m, .finite t n =>
    if n = 0 then (if m = 0 then noResult else infinity (s != t))
    else ofRatio (s != t) m n

/-- The remainder of the division that rounds toward zero; it has the sign of the dividend. -/
def rem (x y : Binary64) : Binary64 :=
  match x.view, y.view with
  | .nan, _ => x
  | _, .nan => y
  | .infinite _, _ => noResult
  | .finite _ _, .infinite _ => x
  | .finite s m, .finite _ n =>
    if n = 0 then noResult else ofMagnitude s (roundUnits (m % n) 1)

/-- The integer part, toward zero. -/
def trunc (x : Binary64) : Binary64 :=
  match x.view with
  | .finite s m => ofRatio s (m / unitsOfOne) 1
  | _ => x

/-- The nearest integer, a half going away from zero. -/
def round (x : Binary64) : Binary64 :=
  match x.view with
  | .finite s m => ofRatio s ((2 * m + unitsOfOne) / (2 * unitsOfOne)) 1
  | _ => x

/-- Raising to a natural power by repeated squaring, each product rounded. -/
def powNat (x : Binary64) (n : Nat) : Binary64 :=
  go (Nat.log2 n + 1) x n (ofNat 1)
where
  /-- One binary digit of the exponent a step; the base is squared only if digits are left. -/
  go : Nat → Binary64 → Nat → Binary64 → Binary64
    | 0, _, _, acc => acc
    | fuel + 1, base, n, acc =>
      let acc := if n % 2 = 1 then acc.mul base else acc
      if n / 2 = 0 then acc else go fuel (base.mul base) (n / 2) acc

/-- Raising to any power, as the machine does it. -/
def pow (x y : Binary64) : Binary64 :=
  ⟨(Float.pow (Float.ofBits x.bits) (Float.ofBits y.bits)).toBits⟩

/-! ## Order -/

/-- The order of two values; a value that is not a number is ordered with nothing. -/
def compare? (x y : Binary64) : Option Ordering :=
  match x.view, y.view with
  | .nan, _ | _, .nan => none
  | .infinite s, .infinite t => some (if s = t then .eq else if s then .lt else .gt)
  | .infinite s, .finite _ _ => some (if s then .lt else .gt)
  | .finite _ _, .infinite t => some (if t then .gt else .lt)
  | .finite s m, .finite t n => some (compare (signedUnits s m) (signedUnits t n))

/-- The value is zero, of either sign. -/
def isZero (x : Binary64) : Bool := decide (x.magnitude = 0)

/-- Equality of values: the zeros are equal, and what is not a number equals nothing. -/
def valueEq (x y : Binary64) : Bool := x.compare? y == some .eq

/-- The order of values. -/
def valueLt (x y : Binary64) : Bool := x.compare? y == some .lt

/-- The smaller of two numbers; a number wins against what is not one. -/
def minNum (x y : Binary64) : Binary64 :=
  if x.isNaN then y else if y.isNaN then x else if y.valueLt x then y else x

/-! ## Integers -/

/-- The integer with the same value, if the number is one. -/
def toInt? (x : Binary64) : Option Int :=
  match x.view with
  | .finite s m =>
    if m % unitsOfOne = 0 then some (signedUnits s (m / unitsOfOne)) else none
  | _ => none

/-- The integer part, clamped to `lo … hi`; what is not a number counts as zero. -/
def truncClamp (lo hi : Int) (x : Binary64) : Int :=
  match x.view with
  | .nan => 0
  | .infinite s => if s then lo else hi
  | .finite s m => max lo (min hi (signedUnits s (m / unitsOfOne)))

/-- The quotient rounded so that the remainder is not negative. -/
def divEuclid (x y : Binary64) : Binary64 :=
  let q := (x.div y).trunc
  if (x.rem y).valueLt (zero false) then
    if (zero false).valueLt y then q.sub (ofNat 1) else q.add (ofNat 1)
  else q

end Binary64

end FlowEngine
