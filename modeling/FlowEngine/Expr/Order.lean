import FlowEngine.Expr.Value

/-!
# Equality and order of values

Numbers are compared by value, across integers, floats and truth values. Lists and maps are compared
by content. The order of values of different kinds is the order of the kinds.

* `coerce?` — two values brought to one type.
* `Value.equal` — equality.
* `Value.order` — the order.
* `Value.field?`, `Value.item?` — looking something up in a value by name or by key.
-/

namespace FlowEngine.Expr

/-- Two values of one type. -/
inductive Operands where
  | ints (a b : Int)
  | floats (a b : Binary64)
  | texts (a b : String)
  deriving Inhabited

namespace Value

/-- A number or a truth value as an integer. -/
def asInt? : Value → Option Int
  | bool b => some (if b then 1 else 0)
  | int _ i => some i
  | float x => x.toWord?
  | _ => Option.none

/-- A number or a truth value as a float. Unless `lossy`, an integer must have an exact one. -/
def asFloat? (lossy : Bool) : Value → Option Binary64
  | bool b => some (Binary64.ofNat (if b then 1 else 0))
  | int w i => w.toFloat? lossy i
  | float x => some x
  | _ => Option.none

/-- A number or a truth value as an integer of 128 bits with a sign. -/
def asLong? (v : Value) : Option Int := (asInt? v).filter Width.signed128.fits

/-- Two values brought to one type, if there is one. Two long integers without a sign lose those
bits that would not leave room for one. -/
def coerce? (lossy : Bool) : Value → Value → Option Operands
  | str a, str b => some (.texts a b)
  | float a, b => (asFloat? lossy b).map (.floats a)
  | a, float b => (asFloat? lossy a).map fun a => .floats a b
  | int .unsigned128 i, int .unsigned128 j => some (.ints (Width.wrap i) (Width.wrap j))
  | a, b =>
    match asLong? a, asLong? b with
    | some i, some j => some (.ints i j)
    | _, _ => Option.none

/-- Equality of values that are neither lists nor maps. -/
def equalScalars (a b : Value) : Bool :=
  match coerce? false a b with
  | some (.ints i j) => i == j
  | some (.floats x y) => x.valueEq y
  | some (.texts s t) => s == t
  | Option.none => false

/-- The bit pattern of a float as an integer that grows with the number. -/
def floatRank (x : Binary64) : Int := if x.negative then -(x.magnitude : Int) - 1 else x.magnitude

/-- The order of floats. What is not a number comes before or after all numbers, as its sign
says. -/
def orderFloats (x y : Binary64) : Ordering :=
  (x.compare? y).getD (compare (floatRank x) (floatRank y))

/-- The order of an integer and a float by their exact values. -/
def orderExact (i : Int) (x : Binary64) : Ordering :=
  match x.view with
  | .nan => if x.negative then .gt else .lt
  | .infinite s => if s then .gt else .lt
  | .finite s m => compare (i * Binary64.unitsOfOne) (Binary64.signedUnits s m)

/-- The order of values that are neither lists nor maps, within a kind. -/
def orderScalars (a b : Value) : Ordering :=
  match coerce? false a b with
  | some (.ints i j) => compare i j
  | some (.floats x y) => orderFloats x y
  | some (.texts s t) => compare s t
  | Option.none =>
    match a, b with
    | int _ i, float x => orderExact i x
    | float x, int _ i => (orderExact i x).swap
    | int _ i, int _ j => compare i j
    | _, _ => .eq

/-- The items of a list. -/
def listItems? : Value → Option (List Value)
  | seq items | lazySeq _ items => some items
  | _ => Option.none

/-- The order of two values is that of their kinds unless these are the same. -/
def kindsThen (k l : Kind) (within : Ordering) : Ordering := (compare k.rank l.rank).then within

mutual

/-- The order of values. -/
def order : Value → Value → Ordering
  | seq items, b => kindsThen .sequence b.kind (orderItems items ((listItems? b).getD []))
  | lazySeq _ items, b => kindsThen .iterator b.kind (orderItems items ((listItems? b).getD []))
  | map entries, b => kindsThen .map b.kind (orderEntries entries b.pairs)
  | record listed _ _ _, b => kindsThen .map b.kind (orderFields listed b.pairs)
  | a, b => kindsThen a.kind b.kind (orderScalars a b)

/-- Items are compared one by one; a shorter list comes first. -/
def orderItems : List Value → List Value → Ordering
  | [], [] => .eq
  | [], _ :: _ => .lt
  | _ :: _, [] => .gt
  | a :: as, b :: bs => (order a b).then (orderItems as bs)

/-- Entries are compared one by one, first by key. -/
def orderEntries : List (Value × Value) → List (Value × Value) → Ordering
  | [], [] => .eq
  | [], _ :: _ => .lt
  | _ :: _, [] => .gt
  | (k, a) :: as, (l, b) :: bs => ((order k l).then (order a b)).then (orderEntries as bs)

/-- Fields are compared one by one, first by name. -/
def orderFields : List (String × Value) → List (Value × Value) → Ordering
  | [], [] => .eq
  | [], _ :: _ => .lt
  | _ :: _, [] => .gt
  | (k, a) :: as, (l, b) :: bs =>
    ((kindsThen .string l.kind (orderScalars (str k) l)).then (order a b)).then (orderFields as bs)
termination_by structural a => a

end

/-! ## Maps -/

/-- Puts an entry into sorted entries; of an equal key only the value is replaced. -/
def insertEntry (key v : Value) : List (Value × Value) → List (Value × Value)
  | [] => [(key, v)]
  | (k, w) :: rest =>
    match order key k with
    | .lt => (key, v) :: (k, w) :: rest
    | .eq => (k, v) :: rest
    | .gt => (k, w) :: insertEntry key v rest

/-- The map of entries; of equal keys the last value counts. -/
def ofEntries (entries : List (Value × Value)) : Value :=
  map (entries.foldl (fun sorted e => insertEntry e.1 e.2 sorted) [])

/-! ## Looking things up -/

/-- The value of an entry with an equal key. -/
def entry? (key : Value) (entries : List (Value × Value)) : Option Value :=
  (entries.find? fun e => order e.1 key == .eq).map Prod.snd

/-- The item at a position; a negative position counts from the end. -/
def at? (items : List Value) (key : Value) : Option Value := do
  let i ← asInt? key
  if 0 ≤ i then items[i.toNat]?
  else if i.natAbs ≤ items.length then items[items.length - i.natAbs]? else Option.none

/-- The item at a position counted from the beginning. -/
def atStart? (items : List Value) (key : Value) : Option Value :=
  match asInt? key with
  | some (.ofNat i) => items[i]?
  | _ => Option.none

/-- Whether a value is anything but undefined. -/
def isDefined : Value → Bool
  | undefined => false
  | _ => true

/-- What stands under a key in a list, a map, a record or a text. -/
def item? (v key : Value) : Option Value :=
  match v with
  | seq items => at? items key
  | lazySeq sized items => if sized then at? items key else atStart? items key
  | map entries => entry? key entries
  | str s => at? (s.toList.map fun c => str (String.singleton c)) key
  | record listed hidden inner _ =>
    match key with
    | str name =>
      (listed.lookup name).or ((hidden.lookup name).or ((item? inner key).filter isDefined))
    | _ => (item? inner key).filter isDefined
  | _ => Option.none

/-- What stands under a key in a map or a record. -/
def mapItem? (v key : Value) : Option Value :=
  match v with
  | map _ | record _ _ _ _ => v.item? key
  | _ => Option.none

/-- What stands under a name in a map or a record. -/
def field? (v : Value) (name : String) : Option Value := v.mapItem? (str name)

/-! ## Equality -/

mutual

/-- Equality of values. -/
def equal : Value → Value → Bool
  | undefined, b => b.kind == .undefined
  | none, b => b.kind == .none
  | seq items, b => (listItems? b).any (equalItems items)
  | lazySeq _ items, b => (listItems? b).any (equalItems items)
  | map entries, b => b.kind == .map && entries.length == b.pairs.length && equalEntries entries b
  | record listed _ _ _, b =>
    b.kind == .map && listed.length == b.pairs.length && equalFields listed b
  | function f, b =>
    match b with
    | function g => decide (f = g)
    | _ => false
  | a, b => equalScalars a b

/-- Items are equal one by one. -/
def equalItems : List Value → List Value → Bool
  | [], [] => true
  | a :: as, b :: bs => equal a b && equalItems as bs
  | _, _ => false

/-- The values of entries equal what stands under their keys. -/
def equalEntries : List (Value × Value) → Value → Bool
  | [], _ => true
  | (k, a) :: rest, b => (b.mapItem? k).any (equal a) && equalEntries rest b

/-- The values of fields equal what stands under their names. -/
def equalFields : List (String × Value) → Value → Bool
  | [], _ => true
  | (k, a) :: rest, b => (b.field? k).any (equal a) && equalFields rest b
termination_by structural a => a

end

end Value

end FlowEngine.Expr
