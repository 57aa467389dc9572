import FlowEngine.Expr.Operator
import FlowEngine.Expr.Term
import FlowEngine.Text.Case
import FlowEngine.Text.Search
import FlowEngine.Time.Format
import Std.Data.TreeSet

/-!
# Filters, tests and functions

What expressions can apply to values by name.

* `applyFilter` — a filter applied to a value.
* `applyTest` — a test of a value.
* `Function.apply` — a call of a function.
-/

namespace FlowEngine.Expr

/-! ## Arguments -/

/-- An argument as a filter sees it: arguments by keyword come together as the last one. -/
inductive Arg where
  | value (value : Value)
  | keywords (entries : List (Value × Value))
  deriving Inhabited

/-- The arguments of a call. Those by keyword are the entries of a map, if there are any or might
have been. -/
structure Args where
  positional : List Value
  keywords : Option (List (Value × Value))
  deriving Inhabited

namespace Args

/-- The values that an argument by position stands for. -/
def passed (a : Passing × Value) : Eval (List Value) :=
  match a.1, a.2.items? with
  | .spread, some items => .ok items
  | .spread, none => misuse (.notIterable a.2.kind)
  | _, _ => .ok [a.2]

/-- The entries that an argument by keyword stands for. -/
def named (a : Passing × Value) : Eval (List (Value × Value)) :=
  match a.1 with
  | .keyword name => .ok [(.str name, a.2)]
  | _ => if a.2.kind = .map then .ok a.2.pairs else misuse (.notKeywords a.2.kind)

/-- The arguments of a call from their values. -/
def gather (positional keywords : List (Passing × Value)) : Eval Args := do
  let entries ← keywords.mapM named
  let values ← positional.mapM passed
  .ok ⟨values.flatten,
    if keywords.isEmpty then none else some (Value.ofEntries entries.flatten).pairs⟩

/-- The number of arguments; those by keyword count as one. -/
def size (args : Args) : Nat := args.positional.length + if args.keywords.isSome then 1 else 0

end Args

namespace Arg

/-- Arguments in order. -/
def ofArgs (positional : List Value) (keywords : Option (List (Value × Value))) : List Arg :=
  positional.map .value ++ (keywords.map Arg.keywords).toList

/-- An argument as a value. -/
def toValue : Arg → Value
  | value v => v
  | keywords entries => .map entries

/-- An argument of any kind. -/
def asAny (a : Arg) : Eval Value := .ok a.toValue

/-- The text of an argument. -/
def asText : Arg → Eval String
  | value v => .ok v.display
  | keywords _ => misuse (.notConvertible "kwargs" "string")

/-- An argument that is a text. -/
def asStr (a : Arg) : Eval String :=
  match a.toValue with
  | .str s => .ok s
  | _ => misuse .notText

/-- A natural number below a bound. -/
def asNat (bound : Nat) (target : String) (a : Arg) : Eval Nat :=
  let v := a.toValue
  match v.asInt? with
  | some (.ofNat n) =>
    if n < bound then .ok n else misuse (.notConvertible v.kind.name target)
  | _ => misuse (.notConvertible v.kind.name target)

/-- An integer between bounds. -/
def asInt (lo hi : Int) (target : String) (a : Arg) : Eval Int :=
  let v := a.toValue
  match v.asInt? with
  | some i => if lo ≤ i ∧ i < hi then .ok i else misuse (.notConvertible v.kind.name target)
  | none => misuse (.notConvertible v.kind.name target)

/-- A truth value. -/
def asBool (a : Arg) : Eval Bool :=
  match a.toValue with
  | .bool b => .ok b
  | v => misuse (.notConvertible v.kind.name "bool")

end Arg

section Reading

variable {α : Type}

/-- The next argument, which must be there. -/
def required (convert : Arg → Eval α) : List Arg → Eval (α × List Arg)
  | [] => .error .missingArgument
  | a :: rest => (convert a).map (·, rest)

/-- The next argument, which may be missing; undefined and none count as missing. -/
def optional (convert : Arg → Eval α) : List Arg → Eval (Option α × List Arg)
  | [] => .ok (none, [])
  | a :: rest =>
    if a.toValue.isPresent then (convert a).map (some ·, rest) else .ok (none, rest)

/-- No argument is left. -/
def finish : List Arg → Eval Unit
  | [] => .ok ()
  | _ => .error (.tooManyArguments none)

/-- The value of a keyword, which may be missing. -/
def keyword (name : String) (convert : Arg → Eval α) (keywords : List (Value × Value)) :
    Eval (Option α) :=
  match Value.entry? (.str name) keywords with
  | none => .ok none
  | some v => if v.isPresent then (convert (.value v)).map some else .ok none

/-- All keywords are known. -/
def knownKeywords (names : List String) : List (Value × Value) → Eval Unit
  | [] => .ok ()
  | (.str name, _) :: rest =>
    if names.contains name then knownKeywords names rest
    else .error (.tooManyArguments (some name))
  | _ :: _ => misuse .unnamedKeyword

end Reading

/-! ## Going through values -/

/-- The items of a value. -/
def itemsOf (v : Value) : Eval (List Value) :=
  match v.items? with
  | some items => .ok items
  | none => misuse (.notIterable v.kind)

/-- The items of a value that counts as a list. -/
def listOf (v : Value) : Eval (List Value) :=
  match v.items? with
  | some items => .ok items
  | none => misuse .notListable

/-- A position of 64 bits in a path; a plus sign may stand before its digits. -/
def position? (step : List Char) : Option Nat :=
  let digits := match step with
    | '+' :: ds => ds
    | ds => ds
  let n := Binary64.digitsValue digits
  if !digits.isEmpty && digits.all Char.isDigit && Width.unsigned64.fits n then some n else none

/-- What a path of names and positions with points between them leads to. -/
def path (steps : List (List Char)) (v : Value) : Eval Value :=
  match steps with
  | [] => .ok v
  | step :: rest =>
    match v with
    | .undefined => .error .undefinedValue
    | v =>
      let next := match position? step with
        | some n => v.item? (.ofNat n)
        | none => v.field? (String.ofList step)
      path rest (next.getD .undefined)

/-- What a path leads to. -/
def pathOf (text : String) (v : Value) : Eval Value := path (Text.split ['.'] text.toList) v

/-! ## Texts -/

/-- The text of a value in a template: nothing if it is absent, a text as it is, and any other value
as a document. -/
def plainTextOf (v : Value) : String :=
  if v.isPresent then
    match v with
    | .str s => s
    | v => v.toJson.compact
  else ""

/-- Punctuation within ASCII. -/
def isPunctuation (c : Char) : Bool :=
  c.toNat < 128 && 32 < c.toNat && !c.isAlphanum && c.toNat != 127

/-- Letters after blanks and punctuation are capital, all others small. -/
def titleFrom (start : Bool) : List Char → List Char
  | [] => []
  | c :: rest =>
    if isPunctuation c || Text.isBlank c then c :: titleFrom true rest
    else (if start then Text.upperChar c else Text.lowerChar c) ++ titleFrom false rest

/-- The first character is capital, all others small. -/
def capitalizeChars : List Char → List Char
  | [] => []
  | c :: rest => Text.upperChar c ++ Text.lower rest

/-- A function on characters as a filter. -/
def mapChars (f : List Char → List Char) (v : Value) : Value :=
  .str (String.ofList (f v.display.toList))

/-! ## Numbers -/

/-- An integer of 128 bits written in decimal digits. -/
def integerOfText? (s : String) : Option Int :=
  let (negative, digits) := match s.toList with
    | '-' :: ds => (true, ds)
    | '+' :: ds => (false, ds)
    | ds => (false, ds)
  if digits.isEmpty ∨ !digits.all Char.isDigit then none
  else
    let n : Int := Binary64.digitsValue digits
    let i := if negative then -n else n
    if Width.signed128.fits i then some i else none

/-- A float written as a text. -/
def floatOfText (s : String) : Eval Binary64 :=
  match Binary64.ofText? s with
  | some x => .ok x
  | none => misuse (if s = "" then .emptyNumeral else .badNumeral)

/-- The integer part of a float, within 128 bits. -/
def integerPart (x : Binary64) : Value :=
  .int .signed128 (x.truncClamp Width.signed128.least Width.signed128.greatest)

/-- A value as an integer. -/
def toInteger (v : Value) : Eval Value :=
  match v with
  | .undefined | .none => .ok (.ofNat 0)
  | .bool b => .ok (.ofNat (if b then 1 else 0))
  | .int _ _ => .ok v
  | .float x => .ok (integerPart x)
  | .str s =>
    match integerOfText? s with
    | some i => .ok (.int .signed128 i)
    | none => (floatOfText s).map integerPart
  | v => misuse (.notConvertible v.kind.name "integer")

/-- A value as a float. -/
def toFloat (v : Value) : Eval Value :=
  match v with
  | .undefined | .none => .ok (.float (Binary64.ofNat 0))
  | .str s => (floatOfText s).map .float
  | v =>
    match v.asFloat? true with
    | some x => .ok (.float x)
    | none => misuse (.notConvertible v.kind.name "float")

/-- A number rounded to some places, a half away from zero. -/
def roundTo (v : Value) (places : Int) : Eval Value :=
  match v with
  | .int _ _ => .ok v
  | .float x =>
    let power := (Binary64.ofNat 10).powNat places.natAbs
    let scale := if places < 0 then (Binary64.ofNat 1).div power else power
    .ok (.float (((scale.mul x).round).div scale))
  | v => misuse (.notRoundable v.kind)

/-- A number without its sign. -/
def absolute (v : Value) : Eval Value :=
  match v with
  | .int w i =>
    if i = Width.signed128.least then misuse .absoluteOverflow
    else .ok (.int (if w.fits i.natAbs then w else .signed128) i.natAbs)
  | .float x => .ok (.float x.abs)
  | _ => misuse .noAbsolute

/-! ## Lists -/

/-- The sum of numbers. -/
def sumOf (items : List Value) : Eval Value :=
  items.foldlM (fun total v =>
    match v with
    | .undefined => .ok total
    | v => if v.kind = .number then total.add v else misuse (.notSummable v.kind)) (.ofInt 0)

/-- The first of the least items. -/
def least (items : List Value) : Value :=
  match items with
  | [] => .undefined
  | v :: rest => rest.foldl (fun m v => if m.order v == .gt then v else m) v

/-- The last of the greatest items. -/
def greatest (items : List Value) : Value :=
  match items with
  | [] => .undefined
  | v :: rest => rest.foldl (fun m v => if m.order v == .gt then m else v) v

/-- The order of items; unless `caseSensitive`, texts are compared without regard to ASCII case. -/
def sortOrder (caseSensitive : Bool) (a b : Value) : Ordering :=
  match a, b with
  | .str s, .str t =>
    if caseSensitive then compare s t else compare (s.map Char.toLower) (t.map Char.toLower)
  | a, b => a.order b

/-- The order of items by what the first of some paths lead to, then by the next. What cannot be
found equals everything. -/
def orderByPaths (caseSensitive : Bool) (paths : List (List Char)) (a b : Value) : Ordering :=
  match paths with
  | [] => .eq
  | p :: rest =>
    let first :=
      match pathOf (String.ofList p) a, pathOf (String.ofList p) b with
      | .ok k, .ok l => sortOrder caseSensitive k l
      | _, _ => .eq
    first.then (orderByPaths caseSensitive rest a b)

/-- Puts an item into sorted items, the last of them first: behind all that it does not come
before. -/
def insertBack (rank : Value → Value → Ordering) (v : Value) : List Value → List Value
  | [] => [v]
  | w :: rest => if rank v w == .lt then w :: insertBack rank v rest else v :: w :: rest

/-- Items by rank; those of equal rank stay in the order they have. A few items are put in one by
one, each from the end, and so what equals everything stays a border that others do not cross. -/
def arrange (rank : Value → Value → Ordering) (items : List Value) : List Value :=
  if items.length ≤ 20 then (items.foldl (fun sorted v => insertBack rank v sorted) []).reverse
  else items.mergeSort fun a b => rank a b != .gt

/-- Items in order. Items of equal rank stay in the order they have, also in reverse. -/
def sortItems (items : List Value) (keywords : List (Value × Value)) : Eval Value := do
  let caseSensitive := (← keyword "case_sensitive" Arg.asBool keywords).getD false
  let attr ← keyword "attribute" Arg.asStr keywords
  let backward := (← keyword "reverse" Arg.asBool keywords).getD false
  knownKeywords ["case_sensitive", "attribute", "reverse"] keywords
  let rank (a b : Value) : Ordering :=
    match attr with
    | none => sortOrder caseSensitive a b
    | some text => orderByPaths caseSensitive (Text.split [','] text.toList) a b
  .ok (.seq (arrange (fun a b => if backward then rank b a else rank a b) items))

/-- Items whose keys have not occurred before. -/
def firstOccurrences (key : Value → Value) :
    (seen : Std.TreeSet Value Value.order) → List Value → List Value
  | _, [] => []
  | seen, v :: rest =>
    if seen.contains (key v) then firstOccurrences key seen rest
    else v :: firstOccurrences key (seen.insert (key v)) rest

/-- The items of a value without repetitions. -/
def uniqueItems (v : Value) (keywords : List (Value × Value)) : Eval Value := do
  let attr ← keyword "attribute" Arg.asStr keywords
  let caseSensitive := (← keyword "case_sensitive" Arg.asBool keywords).getD false
  knownKeywords ["case_sensitive", "attribute"] keywords
  let items ← itemsOf v
  let key (v : Value) : Value :=
    let v := match attr with
      | none => v
      | some text => ((pathOf text v).toOption).getD .undefined
    match v with
    | .str s => if caseSensitive then v else .str (Text.lowerText s)
    | v => v
  .ok (.seq (firstOccurrences key ∅ items))

/-- The items or characters of a value from the last to the first. -/
def reversed (v : Value) : Eval Value :=
  match v with
  | .undefined | .none => .ok v
  | .str s => .ok (.str (String.ofList s.toList.reverse))
  | .seq items => .ok (.lazySeq true items.reverse)
  | .lazySeq _ items => .ok (.lazySeq true items.reverse)
  | .map _ | .record _ _ _ _ => .ok (.lazySeq true ((v.items?.getD []).reverse))
  | v => misuse (.notReversible v.kind)

/-! ## Points in time -/

/-- The point in time that a document stands for. -/
def instantOf (now : Time.Instant) (document : Json) : Eval Time.Instant :=
  match document with
  | .str s =>
    if s = "now" then .ok now
    else
      match Time.Timestamp.read s with
      | .ok t => .ok t
      | .error e => misuse (.notInstant s e.message)
  | .int i =>
    if i < 0x8000000000000000 ∧ Time.Instant.inRange i then .ok ⟨i, 0⟩
    else misuse (.notEpoch document.compact)
  | .float _ => misuse (.notEpoch document.compact)
  | document => misuse (.notTime document.compact)

/-- A point in time in a format. A format that is none crashes the program. -/
def formatTime (now : Time.Instant) (v : Value) (format : String) : Eval Value := do
  let t ← instantOf now v.toJson
  match t.format? format with
  | some text => .ok (.str text)
  | none => .error .crash

/-! ## Filters -/

/-- A filter without arguments. -/
def bare (f : Value → Eval Value) (v : Value) (args : List Arg) : Eval Value := do
  finish args
  f v

/-- A filter that takes keywords only. -/
def keyed (f : Value → List (Value × Value) → Eval Value) (v : Value) (args : List Arg) :
    Eval Value :=
  match args with
  | [] => f v []
  | [.keywords ks] => f v ks
  | _ => .error (.tooManyArguments none)

/-- The pieces of a text; without a separator, the pieces between blanks. If there is a greatest
number of cuts, the last piece is all that is left after them. -/
def pieces (separator : Option String) (most : Option Int) (text : List Char) : List (List Char) :=
  match separator, most with
  | none, some (.ofNat n) => Text.wordsAtMost n text
  | none, _ => Text.words text
  | some sep, some (.ofNat n) => Text.splitAtMost sep.toList n text
  | some sep, _ => Text.split sep.toList text

/-- The filters that do not apply other filters or tests. -/
def filter? (now : Time.Instant) (name : String) : Option (Value → List Arg → Eval Value) :=
  match name with
  | "json" => some fun v args => do
    let (indent, args) ← optional (Arg.asNat 0x10000000000000000 "usize") args
    finish args
    .ok (.str (if indent.isSome then v.toJson.pretty else v.toJson.compact))
  | "join" => some fun v args => do
    let (separator, args) ← optional Arg.asText args
    finish args
    match v.items? with
    | some items => .ok (.str ((separator.getD ", ").intercalate (items.map plainTextOf)))
    | none => .ok (.str (plainTextOf v))
  | "first" => some <| bare fun v =>
    if v.isPresent then
      match v.items? with
      | some items => .ok (items.head?.getD .none)
      | none => misuse .notFirstable
    else .ok .none
  | "last" => some <| bare fun v =>
    if v.isPresent then
      match v.items? with
      | some items => .ok (items.getLast?.getD .none)
      | none => misuse .notLastable
    else .ok .none
  | "default" => some fun v args => do
    let (fallback, args) ← required Arg.asAny args
    finish args
    .ok (if plainTextOf v = "" then fallback else v)
  | "trim" => some <| bare fun v => .ok (.str (Text.trimText (plainTextOf v)))
  | "lines" => some <| bare fun v =>
    .ok (.seq ((Text.lines (plainTextOf v).toList).map fun line => .str (String.ofList line)))
  | "strftime" => some fun v args => do
    let (format, args) ← required Arg.asText args
    finish args
    formatTime now v format
  | "upper" => some <| bare fun v => .ok (mapChars Text.upper v)
  | "lower" => some <| bare fun v => .ok (mapChars Text.lower v)
  | "title" => some <| bare fun v => .ok (mapChars (titleFrom true) v)
  | "capitalize" => some <| bare fun v => .ok (mapChars capitalizeChars v)
  | "length" => some <| bare fun v =>
    match v.length? with
    | some n => .ok (.ofNat n)
    | none => misuse (.noLength v.kind)
  | "reverse" => some <| bare reversed
  | "sum" => some <| bare fun v => do sumOf (← itemsOf v)
  | "min" => some <| bare fun v => do .ok (least (← listOf v))
  | "max" => some <| bare fun v => do .ok (greatest (← listOf v))
  | "sort" => some <| keyed fun v ks => do sortItems (← listOf v) ks
  | "unique" => some <| keyed fun v ks => do uniqueItems v ks
  | "items" => some <| bare fun v =>
    if v.kind = .map then .ok (.lazySeq true (v.pairs.map fun e => .seq [e.1, e.2]))
    else misuse .notPairs
  | "list" => some <| bare fun v => do .ok (.seq (← listOf v))
  | "int" => some <| bare toInteger
  | "float" => some <| bare toFloat
  | "round" => some fun v args => do
    let (places, args) ← optional (Arg.asInt (-0x80000000) 0x80000000 "i32") args
    finish args
    roundTo v (places.getD 0)
  | "abs" => some <| bare absolute
  | "replace" => some fun v args => do
    let (old, args) ← required Arg.asText args
    let (new, args) ← required Arg.asText args
    finish args
    .ok (mapChars (Text.replace old.toList new.toList) v)
  | "split" => some fun v args => do
    let text ← Arg.asStr (.value v)
    let (separator, args) ← optional Arg.asStr args
    let (most, args) ← optional (Arg.asInt (-0x8000000000000000) 0x8000000000000000 "i64") args
    finish args
    .ok (.seq ((pieces separator most text.toList).map fun part => .str (String.ofList part)))
  | "string" => some <| bare fun v => .ok (.str v.display)
  | "d" => some fun v args => do
    finish (args.drop 2)
    let fallback := (args.head?.map Arg.toValue).getD (.str "")
    let lax := args[1]?.any fun a => a.toValue.isTrue
    .ok (if v.kind == .undefined || (lax && !v.isTrue) then fallback else v)
  | _ => none

/-! ## Tests -/

/-- A test without arguments. -/
def bareTest (f : Value → Bool) (v : Value) (args : List Arg) : Eval Bool := do
  finish args
  .ok (f v)

/-- A test with one argument. -/
def pairTest (f : Value → Value → Eval Bool) (v : Value) (args : List Arg) : Eval Bool := do
  let (w, args) ← required Arg.asAny args
  finish args
  f v w

/-- Whether a number is a multiple of another one. -/
def isMultiple (a b : Value) : Eval Bool :=
  match a.coerce? false b with
  | some (.ints i j) => if j = 0 then .error .crash else .ok (i % j == 0)
  | some (.floats x y) => .ok (x.rem y).isZero
  | _ => .ok false

/-- The remainder of an integer by two. -/
def parity? (v : Value) : Option Int := v.asLong?.map (· % 2)

/-- The tests. -/
def test? (name : String) : Option (Value → List Arg → Eval Bool) :=
  match name with
  | "defined" => some <| bareTest fun v => v.kind != .undefined
  | "undefined" => some <| bareTest fun v => v.kind == .undefined
  | "none" => some <| bareTest fun v => v.kind == .none
  | "number" => some <| bareTest fun v => v.kind == .number
  | "string" => some <| bareTest fun v => v.kind == .string
  | "sequence" => some <| bareTest fun v => v.kind == .sequence
  | "mapping" => some <| bareTest fun v => v.kind == .map
  | "iterable" => some <| bareTest fun v => v.items?.isSome
  | "boolean" => some <| bareTest fun v => v.kind == .bool
  | "odd" => some <| bareTest fun v => parity? v == some 1
  | "even" => some <| bareTest fun v => parity? v == some 0
  | "divisibleby" => some <| pairTest isMultiple
  | "eq" => some <| pairTest fun v w => .ok (v.equal w)
  | "in" => some <| pairTest fun v w => .ok ((w.contains v).toOption.getD false)
  | "startingwith" => some fun v args => do
    let (start, args) ← required Arg.asText args
    finish args
    .ok (start.toList.isPrefixOf v.display.toList)
  | _ => none

/-- A test of a value. -/
def applyTest (name : String) (v : Value) (args : Args) : Eval Bool :=
  match test? name with
  | some f => f v (Arg.ofArgs args.positional args.keywords)
  | none => .error (.unknownTest (some name))

/-- The items that pass a test, or count as true if there is no test. -/
def selectItems (v : Value) (args : List Arg) : Eval Value := do
  let (name, args) ← optional Arg.asText args
  let keep : Value → Eval Bool ← match name with
    | none => Except.ok fun v => .ok v.isTrue
    | some name =>
      match test? name with
      | some f => Except.ok fun v => f v args
      | none => Except.error (.unknownTest none)
  let items ← itemsOf v
  (items.filterM keep).map .seq

/-- What an attribute of every item is. -/
def mapAttribute (v attr : Value) (fallback : Value) : Eval Value := do
  let find (item : Value) : Eval Value :=
    match attr with
    | .str text => pathOf text item
    | key =>
      match item with
      | .undefined => .error .undefinedValue
      | item => .ok ((item.item? key).getD .undefined)
  let pick (item : Value) : Eval Value :=
    match find item with
    | .ok .undefined => .ok fallback
    | .ok found => .ok found
    | .error e => if fallback.kind = .undefined then .error e else .ok fallback
  let items ← itemsOf v
  (items.mapM pick).map .seq

/-- A filter applied to a value. The filter `map` applies the filter named by its first argument to
every item, unless an attribute is asked for. -/
def applyFilter (now : Time.Instant) (keywords : Option (List (Value × Value))) :
    (positional : List Value) → (name : String) → Value → Eval Value
  | [], name, v =>
    if name = "map" then
      match attribute? keywords with
      | some attr => do
        let fallback := (Value.entry? (.str "default") (keywords.getD [])).getD .undefined
        let found ← mapAttribute v attr fallback
        knownKeywords ["attribute", "default"] (keywords.getD [])
        .ok found
      | none => misuse .noFilterName
    else simple now name v (Arg.ofArgs [] keywords)
  | a :: rest, name, v =>
    if name = "map" then
      if (attribute? keywords).isSome then .error (.tooManyArguments none)
      else
        match a with
        | .str filter =>
          if filter ≠ "map" ∧ filter ≠ "select" ∧ (filter? now filter).isNone then
            .error (.unknownFilter none)
          else do
            let items ← itemsOf v
            (items.mapM (applyFilter now none rest filter)).map .seq
        | _ => misuse .badFilterName
    else simple now name v (Arg.ofArgs (a :: rest) keywords)
where
  /-- The attribute that is asked for. -/
  attribute? (keywords : Option (List (Value × Value))) : Option Value :=
    (keywords.bind (Value.entry? (.str "attribute"))).filter Value.isPresent
  /-- A filter that does not apply other filters. -/
  simple (now : Time.Instant) (name : String) (v : Value) (args : List Arg) : Eval Value :=
    if name = "select" then selectItems v args
    else
      match filter? now name with
      | some f => f v args
      | none => .error (.unknownFilter (some name))

/-! ## Functions -/

/-- How many steps it takes from one number up to another. -/
def stepsBetween (first last : Int) (step : Nat) : Nat := ((last - first).toNat + step - 1) / step

/-- The numbers from `first` to `last`, in steps. -/
def rangeOf (first last step : Int) : Eval Value :=
  if step = 0 then misuse .zeroRangeStep
  else
    let count :=
      if 0 < step then stepsBetween first last step.natAbs
      else stepsBetween last first step.natAbs
    if 100000 < count then misuse .hugeRange
    else
      let number (i : Nat) : Value := .int .signed64 (first + i * step)
      .ok (.lazySeq true ((List.range count).map number))

/-- A call of a function. -/
def Function.apply (f : Function) (args : Args) : Eval Value :=
  match f with
  | .range => do
    let number := Arg.asInt (-0x8000000000000000) 0x8000000000000000 "isize"
    let (lower, rest) ← required number (Arg.ofArgs args.positional args.keywords)
    let (upper, rest) ← optional number rest
    let (step, rest) ← optional number rest
    finish rest
    match upper with
    | some upper => rangeOf lower upper (step.getD 1)
    | none => rangeOf 0 lower (step.getD 1)
  | .dict => do
    let (base, rest) ← optional Arg.asAny (args.positional.map .value)
    finish rest
    let entries ← match base with
      | none => .ok []
      | some v => if v.kind = .map then .ok v.pairs else misuse .notMapping
    .ok (Value.ofEntries (entries ++ args.keywords.getD []))

/-- The function of a name. -/
def Function.named? : String → Option Function
  | "range" => some .range
  | "dict" => some .dict
  | _ => none

/-- A call of a value. -/
def callValue (v : Value) (args : Args) : Eval Value :=
  match v with
  | .function f => f.apply args
  | v => misuse (.notCallable v.kind)

end FlowEngine.Expr
