import FlowEngine.Expr.Order
import FlowEngine.Expr.Fault
import FlowEngine.Text.Search

/-!
# Operators

Integers have 128 bits and never wrap: a result that does not fit is a fault. If one operand is a
float, both are.

* `Value.add` … `Value.pow`, `Value.negate` — arithmetic.
* `Value.contains` — membership.
* `Value.slice` — every so many items of a part of a list or a text.
-/

namespace FlowEngine.Expr

/-! ## Parts of lists -/

/-- The items at every so many places. -/
def everyNth {α : Type} (n : Nat) (items : List α) : List α :=
  (items.zipIdx.filter fun p => p.2 % n == 0).map Prod.fst

/-- A place in a list of some size. A negative place counts from the end, and one before the
beginning is the beginning. -/
def placeIn (size : Nat) (i : Int) : Nat := if 0 ≤ i then i.toNat else size - i.natAbs

/-- The items from `start` up to `stop`. -/
def sliceForward {α : Type} (items : List α) (start stop : Option Int) (step : Nat) : List α :=
  let place := placeIn items.length
  let upTo := match stop with
    | none => items
    | some i => items.take (place i)
  everyNth step (upTo.drop (place (start.getD 0)))

/-- The items from `start` down to `stop`, which is left out unless it is the first place. -/
def sliceBackward {α : Type} (items : List α) (start stop : Option Int) (step : Nat) : List α :=
  let size := items.length
  let place := placeIn size
  let first := match start with
    | none => size - 1
    | some i => if size ≤ i then size - 1 else place i
  let last := match stop with
    | none => 0
    | some i => place i
  everyNth step (((items.take (first + 1)).drop (if last = 0 then 0 else last + 1)).reverse)

namespace Value

/-! ## Arithmetic -/

/-- An integer result, if it fits. -/
def checked (operator : String) (a b : Value) (result : Int) : Eval Value :=
  if Width.signed128.fits result then .ok (ofInt result)
  else misuse (.notCalculable a.display operator b.display)

/-- The operands have no such operator. -/
def unsupported (operator : String) (a b : Value) : Eval Value :=
  misuse (.unsupportedOperands operator a.kind b.kind)

/-- The sum; texts and lists are joined. -/
def add (a b : Value) : Eval Value :=
  match listItems? a, listItems? b with
  | some xs, some ys => .ok (lazySeq (a.length?.isSome && b.length?.isSome) (xs ++ ys))
  | _, _ =>
    match coerce? true a b with
    | some (.ints i j) => checked "+" a b (i + j)
    | some (.floats x y) => .ok (float (x.add y))
    | some (.texts s t) => .ok (str (s ++ t))
    | Option.none => unsupported "+" a b

/-- The difference. -/
def sub (a b : Value) : Eval Value :=
  match coerce? true a b with
  | some (.ints i j) => checked "-" a b (i - j)
  | some (.floats x y) => .ok (float (x.sub y))
  | _ => unsupported "-" a b

/-- A number of repetitions. -/
def asCount? (v : Value) : Option Nat :=
  match asInt? v with
  | some (.ofNat n) => if n < 0x10000000000000000 then some n else Option.none
  | _ => Option.none

/-- A text so many times. One of more bytes than can be addressed crashes the program. -/
def repeatText (n : Nat) (s : String) : Eval Value :=
  if s = "" then .ok (str "")
  else if 0x7FFFFFFFFFFFFFFF < n * s.utf8ByteSize then .error .crash
  else .ok (str (String.join (List.replicate n s)))

/-- Items so many times. -/
def repeatItems (n : Nat) (items : List Value) : List Value :=
  if items.isEmpty then [] else (List.replicate n items).flatten

/-- The product; a text or a list is repeated. -/
def mul (a b : Value) : Eval Value :=
  match a, b with
  | str s, n | n, str s =>
    match asCount? n with
    | some n => repeatText n s
    | Option.none => misuse .repeatedText
  | _, _ =>
    match repetition? a b with
    | some (list, n) =>
      match asCount? n, list.length?, list.items? with
      | Option.none, _, _ => misuse .repeatedList
      | some n, some _, some items => .ok (lazySeq true (repeatItems n items))
      | some _, _, _ => misuse .repeatedUnsized
    | Option.none =>
      match coerce? true a b with
      | some (.ints i j) => checked "*" a b (i * j)
      | some (.floats x y) => .ok (float (x.mul y))
      | _ => unsupported "*" a b
where
  /-- The list among two operands, and the other one. What is no list may be a map, which counts as
  an operand that is neither. -/
  repetition? (a b : Value) : Option (Value × Value) :=
    match a, b with
    | seq _, _ | lazySeq _ _, _ => some (a, b)
    | map _, _ | record _ _ _ _, _ | function _, _ => Option.none
    | _, seq _ | _, lazySeq _ _ => some (b, a)
    | _, _ => Option.none

/-- The quotient, always a float. -/
def div (a b : Value) : Eval Value :=
  match asFloat? true a, asFloat? true b with
  | some x, some y => .ok (float (x.div y))
  | _, _ => unsupported "/" a b

/-- The quotient rounded so that the remainder is not negative. -/
def floorDiv (a b : Value) : Eval Value :=
  match coerce? true a b with
  | some (.ints i j) =>
    if j = 0 then misuse (.notCalculable a.display "//" b.display) else checked "//" a b (i / j)
  | some (.floats x y) => .ok (float (x.divEuclid y))
  | _ => unsupported "//" a b

/-- The remainder; that of integers is not negative. -/
def mod (a b : Value) : Eval Value :=
  match coerce? true a b with
  | some (.ints i j) =>
    if j = 0 ∨ !Width.signed128.fits (i / j) then
      misuse (.notCalculable a.display "%" b.display)
    else .ok (ofInt (i % j))
  | some (.floats x y) => .ok (float (x.rem y))
  | _ => unsupported "%" a b

/-- The power of an integer, if it fits. -/
def powInt? (i : Int) (n : Nat) : Option Int :=
  if i.natAbs ≤ 1 then some (if n % 2 = 0 ∧ n ≠ 0 then i * i else if n = 0 then 1 else i)
  else if n < 128 ∧ Width.signed128.fits (Int.pow i n) then some (Int.pow i n) else Option.none

/-- The power; an integer cannot have a negative exponent. -/
def pow (a b : Value) : Eval Value :=
  match coerce? true a b with
  | some (.ints i j) =>
    match if 0 ≤ j ∧ j < 0x100000000 then powInt? i j.toNat else Option.none with
    | some r => .ok (ofInt r)
    | Option.none => misuse (.notCalculable a.display "**" b.display)
  | some (.floats x y) => .ok (float (x.pow y))
  | _ => unsupported "**" a b

/-- The opposite number. -/
def negate : Value → Eval Value
  | float x => .ok (float x.neg)
  | int _ i =>
    if i = Width.signed128.least then misuse .overflow
    else if Width.signed128.fits (-i) then .ok (ofInt (-i))
    else misuse .notNegatable
  | _ => misuse .notNegatable

/-- The texts of two values, one after the other. -/
def concat (a b : Value) : Value := str (a.display ++ b.display)

/-! ## Membership -/

/-- Whether a container holds a value: a part of a text, a key of a map, an item of a list. -/
def contains (container v : Value) : Eval Bool :=
  match container with
  | undefined => .ok false
  | str s => .ok (Text.occursInText v.display s)
  | seq items | lazySeq _ items => .ok (items.any fun item => equal item v)
  | map _ | record _ _ _ _ => .ok (container.mapItem? v).isSome
  | function _ => .ok false
  | _ => misuse .notContainer

/-! ## Parts -/

/-- A bound of a slice, or a step. -/
def asBound (v : Value) : Eval (Option Int) :=
  match v with
  | none => .ok Option.none
  | v =>
    match asInt? v with
    | some i =>
      if -0x8000000000000000 ≤ i ∧ i < 0x8000000000000000 then .ok (some i)
      else misuse (.notConvertible v.kind.name "i64")
    | Option.none => misuse (.notConvertible v.kind.name "i64")

/-- Every so many items between two bounds. -/
def slice (v start stop step : Value) : Eval Value := do
  let start ← asBound start
  let stop ← asBound stop
  let step := (← asBound step).getD 1
  let part {α : Type} (items : List α) : List α :=
    if 0 < step then sliceForward items start stop step.toNat
    else sliceBackward items start stop step.natAbs
  if step = 0 then misuse .zeroStep
  else
    match v with
    | undefined | none => .ok (seq [])
    | str s => .ok (str (String.ofList (part s.toList)))
    | seq items => .ok (lazySeq true (part items))
    | lazySeq sized items => .ok (lazySeq sized (part items))
    | v => misuse (.notSliceable v.kind)

end Value

end FlowEngine.Expr
