import FlowEngine.Json.Printer
import FlowEngine.Number.Decimal
import FlowEngine.Number.Width
import FlowEngine.Text.Category

/-!
# Values of expressions

Expressions compute with more than documents: something may be undefined, integers are wider, maps
have keys of any kind, and what a run has recorded is read through records whose fields stand beside
the recorded document.

* `Value` — the values, and `Value.kind` their kinds.
* `Value.ofJson`, `Value.toJson` — documents as values, and values as documents.
* `Value.display` — the text of a value.
-/

namespace FlowEngine.Expr

/-- The functions that expressions can call. -/
inductive Function where
  | range
  | dict
  deriving DecidableEq, Inhabited

/-- A value.

A lazy sequence is `sized` if its length is known without going through it. A record lists some of
its fields; what is no field is looked up in `inner`, and as a document the record is `json`. -/
inductive Value where
  | undefined
  | none
  | bool (value : Bool)
  | int (width : Width) (value : Int)
  | float (value : Binary64)
  | str (text : String)
  | seq (items : List Value)
  | lazySeq (sized : Bool) (items : List Value)
  | map (entries : List (Value × Value))
  | record (listed hidden : List (String × Value)) (inner : Value) (json : Json)
  | function (function : Function)
  deriving Inhabited

/-- Kinds of values, in the order in which values of different kinds are sorted. -/
inductive Kind where
  | undefined
  | none
  | bool
  | number
  | string
  | sequence
  | map
  | iterator
  | plain
  deriving DecidableEq, Inhabited

namespace Kind

/-- The word for a kind. -/
def name : Kind → String
  | undefined => "undefined"
  | none => "none"
  | bool => "bool"
  | number => "number"
  | string => "string"
  | sequence => "sequence"
  | map => "map"
  | iterator => "iterator"
  | plain => "plain object"

/-- The place of a kind in the order of kinds. -/
def rank : Kind → Nat
  | undefined => 0
  | none => 1
  | bool => 2
  | number => 3
  | string => 4
  | sequence => 5
  | map => 6
  | iterator => 7
  | plain => 8

end Kind

namespace Value

/-- The kind of a value. -/
def kind : Value → Kind
  | undefined => .undefined
  | none => .none
  | bool _ => .bool
  | int _ _ | float _ => .number
  | str _ => .string
  | seq _ => .sequence
  | lazySeq _ _ => .iterator
  | map _ | record _ _ _ _ => .map
  | function _ => .plain

/-- A natural number of 64 bits. -/
def ofNat (n : Nat) : Value := int .unsigned64 n

/-- An integer as a result. -/
def ofInt (i : Int) : Value := int (.ofResult i) i

/-- Neither undefined nor none. -/
def isPresent : Value → Bool
  | undefined | none => false
  | _ => true

/-- Whether a value counts as true. -/
def isTrue : Value → Bool
  | undefined | none => false
  | bool b => b
  | int _ i => i != 0
  | float x => !x.isZero
  | str s => s != ""
  | seq items => !items.isEmpty
  | lazySeq sized items => !(sized && items.isEmpty)
  | map entries => !entries.isEmpty
  | record listed _ _ _ => !listed.isEmpty
  | function _ => true

/-! ## Documents -/

mutual

/-- A document as a value. -/
def ofJson : Json → Value
  | .null => none
  | .bool b => bool b
  | .int i => int (if i < 0 then .signed64 else .unsigned64) i
  | .float x => float x
  | .str s => str s
  | .arr elements => seq (ofElements elements)
  | .obj members => map (ofMembers members)

/-- The elements of a document as values. -/
def ofElements : List Json → List Value
  | [] => []
  | j :: rest => ofJson j :: ofElements rest

/-- The members of a document as entries. -/
def ofMembers : List (String × Json) → List (Value × Value)
  | [] => []
  | (name, j) :: rest => (str name, ofJson j) :: ofMembers rest

end

/-- An integer as a document; outside of 64 bits it is nothing. -/
def intJson (i : Int) : Json := if Json.InRange i then .int i else .null

/-- A number as a document; what is not finite is nothing. -/
def floatJson (x : Binary64) : Json := if x.isFinite then .float x else .null

/-! ## Texts -/

/-- The text of a truth value. -/
def boolText (b : Bool) : String := if b then "True" else "False"

/-- A character inside quotation marks. -/
def escapeChar (c : Char) : List Char :=
  match c with
  | '"' => ['\\', '"']
  | '\\' => ['\\', '\\']
  | '\n' => ['\\', 'n']
  | '\r' => ['\\', 'r']
  | '\t' => ['\\', 't']
  | c =>
    if c.toNat = 0 then ['\\', '0']
    else if Text.isPrintable c then [c]
    else ['\\', 'u', '\x7b'] ++ Nat.toDigits 16 c.toNat ++ ['\x7d']

/-- A text in quotation marks. -/
def quoted (s : String) : String :=
  String.ofList ('"' :: (s.toList.flatMap escapeChar ++ ['"']))

/-- Pieces between brackets with commas. -/
def bracketed (opening closing : String) (pieces : List String) : String :=
  opening ++ ", ".intercalate pieces ++ closing

/-- The text of a function. -/
def functionText : Function → String
  | .range => "range"
  | .dict => "dict"

mutual

/-- The text of a value inside a list or a map: strings are quoted. -/
def inspect : Value → String
  | undefined => "undefined"
  | none => "None"
  | bool b => boolText b
  | int _ i => toString i
  | float x => x.compactText
  | str s => quoted s
  | seq items => bracketed "[" "]" (inspectItems items)
  | lazySeq sized items => if sized then bracketed "[" "]" (inspectItems items) else "<iterator>"
  | map entries => bracketed "\x7b" "\x7d" (inspectEntries entries)
  | record listed _ _ _ => bracketed "\x7b" "\x7d" (inspectFields listed)
  | function f => functionText f

/-- The texts of items. -/
def inspectItems : List Value → List String
  | [] => []
  | v :: rest => inspect v :: inspectItems rest

/-- The texts of entries. -/
def inspectEntries : List (Value × Value) → List String
  | [] => []
  | (k, v) :: rest => (inspect k ++ ": " ++ inspect v) :: inspectEntries rest

/-- The texts of fields. -/
def inspectFields : List (String × Value) → List String
  | [] => []
  | (k, v) :: rest => (quoted k ++ ": " ++ inspect v) :: inspectFields rest

end

/-- The text of a value: nothing if it is undefined, and a string as it is. -/
def display : Value → String
  | undefined => ""
  | float x => x.plainText
  | str s => s
  | v => inspect v

mutual

/-- A value as a document. Keys of maps take their text. -/
def toJson : Value → Json
  | undefined | none => .null
  | bool b => .bool b
  | int _ i => intJson i
  | float x => floatJson x
  | str s => .str s
  | seq items => .arr (toElements items)
  | lazySeq _ items => .arr (toElements items)
  | map entries => .obj (Json.sortMembers (toMembers entries))
  | record _ _ _ json => json
  | function f => .str (functionText f)

/-- Items as elements of a document. -/
def toElements : List Value → List Json
  | [] => []
  | v :: rest => toJson v :: toElements rest

/-- Entries as members of a document, not sorted yet. -/
def toMembers : List (Value × Value) → List (String × Json)
  | [] => []
  | (k, v) :: rest => (display k, toJson v) :: toMembers rest

end

/-! ## Going through a value -/

/-- The items that a value gives when it is gone through: those of a list, the keys of a map, the
characters of a text. What is absent has none. -/
def items? : Value → Option (List Value)
  | undefined | none => some []
  | seq items | lazySeq _ items => some items
  | map entries => some (entries.map Prod.fst)
  | record listed _ _ _ => some (listed.map fun f => str f.1)
  | str s => some (s.toList.map fun c => str (String.singleton c))
  | _ => Option.none

/-- The number of items, if it is known. -/
def length? : Value → Option Nat
  | str s => some s.length
  | seq items => some items.length
  | lazySeq sized items => if sized then some items.length else Option.none
  | map entries => some entries.length
  | record listed _ _ _ => some listed.length
  | _ => Option.none

/-- The keys and values of a map. -/
def pairs : Value → List (Value × Value)
  | map entries => entries
  | record listed _ _ _ => listed.map fun f => (str f.1, f.2)
  | _ => []

end Value

end FlowEngine.Expr
