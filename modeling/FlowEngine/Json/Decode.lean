import FlowEngine.Json.Basic

/-!
# Decoding records

A record with named fields is written as an object. A decoder looks at the fields it knows; a known
field that is written twice is an error, and other members are ignored. Most records may also be
written as a list of their fields in order.

* `Json.fields?` — the known fields of an object or a list.
* `required`, `defaulted`, `optional` — one field, decoded.
* `Json.tagged?` — the form of a record that has several, and the rest of it.
-/

namespace FlowEngine.Json

/-- The known fields of a record, each at most once. -/
abbrev Fields := List (String × Json)

/-- The members with known names; none of them may be repeated. -/
def knownMembers? (names : List String) (members : List (String × Json)) : Option Fields :=
  let known := members.filter fun m => names.contains m.1
  if (known.map Prod.fst).Nodup then some known else none

/-- The known fields of an object. -/
def objectFields? (names : List String) : Json → Option Fields
  | .obj members => knownMembers? names members
  | _ => none

/-- The known fields of an object, or of a list that has them in order. The list may be shorter. -/
def fields? (names : List String) : Json → Option Fields
  | .obj members => knownMembers? names members
  | .arr elements => if elements.length ≤ names.length then some (names.zip elements) else none
  | _ => none

/-- The known fields of an object, or of a list that has all of them in order. -/
def completeFields? (names : List String) : Json → Option Fields
  | .obj members => knownMembers? names members
  | .arr elements => if elements.length = names.length then some (names.zip elements) else none
  | _ => none

/-- Whether the members of an object are known ones only. -/
def hasOnly (names : List String) : Json → Bool
  | .obj members => members.all fun m => names.contains m.1
  | _ => true

namespace Fields

variable {α : Type}

/-- A field that must be there. -/
def required (fs : Fields) (name : String) (decode : Json → Option α) : Option α :=
  (fs.lookup name).bind decode

/-- A field that has a default. -/
def defaulted (fs : Fields) (name : String) (default : α) (decode : Json → Option α) : Option α :=
  match fs.lookup name with
  | none => some default
  | some j => decode j

/-- A field that may be absent or null. -/
def optional (fs : Fields) (name : String) (decode : Json → Option α) : Option (Option α) :=
  match fs.lookup name with
  | none | some .null => some none
  | some j => (decode j).map some

end Fields

/-! ## Forms -/

/-- Where a document is taken from. What belongs to a record with several forms is kept until the
form of the record is known, and a form in it can be named in more ways: by its number too, if the
format of the text has natural numbers. -/
inductive Origin where
  | text
  | kept (numbered : Bool)
  deriving DecidableEq, Inhabited

/-- The name of a form without fields: a text, or an object with the name as its only member. Its
value is null, or perhaps an empty object. -/
def formName? (o : Origin) : Json → Option String
  | .str s => some s
  | .obj [(name, .null)] => some name
  | .obj [(name, .obj [])] => if o = .text then none else some name
  | _ => none

/-- The form that a tag names, perhaps by its number among all forms. -/
def tagName? (o : Origin) (forms : List String) : Json → Option String
  | .str t => some t
  | .int i => if o = .kept true ∧ 0 ≤ i then forms[i.toNat]? else none
  | _ => none

/-- The form of a record and the record without its tag. The tag is a member of an object or the
first element of a list. -/
def tagged? (o : Origin) (tag : String) (forms : List String) : Json → Option (String × Json)
  | .obj members =>
    match members.filter fun m => m.1 == tag with
    | [(_, t)] => (tagName? o forms t).map (·, .obj (members.filter fun m => m.1 != tag))
    | _ => none
  | .arr (t :: rest) => (tagName? o forms t).map (·, .arr rest)
  | _ => none

/-- A record without fields: other members are ignored, elements are not. -/
def asEmpty? : Json → Option Unit
  | .obj _ | .arr [] => some ()
  | _ => none

/-! ## Scalars -/

/-- A text. -/
def asString? : Json → Option String
  | .str s => some s
  | _ => none

/-- A truth value. -/
def asBool? : Json → Option Bool
  | .bool b => some b
  | _ => none

/-- A natural number below a bound. -/
def asNatBelow? (bound : Nat) : Json → Option Nat
  | .int i => if 0 ≤ i ∧ i < bound then some i.toNat else none
  | _ => none

/-- A natural number of 64 bits. -/
def asNat64? : Json → Option Nat := asNatBelow? 0x10000000000000000

/-- A binary64 number; an integer is rounded. -/
def asBinary64? : Json → Option Binary64
  | .int i => some (Binary64.ofInt i)
  | .float x => some x
  | _ => none

/-- A list whose elements decode. -/
def asList? {α : Type} (decode : Json → Option α) : Json → Option (List α)
  | .arr elements => elements.mapM decode
  | _ => none

/-- The members of an object, decoded; the last one of a name counts, at the first place. -/
def asMap? {α : Type} (decode : Json → Option α) : Json → Option (List (String × α))
  | .obj members => members.foldlM (fun entries m =>
      (decode m.2).map fun a => insertInPlace m.1 a entries) []
  | _ => none
where
  /-- Replaces the entry of a name or adds one at the end. -/
  insertInPlace (name : String) (a : α) : List (String × α) → List (String × α)
    | [] => [(name, a)]
    | (k, b) :: rest => if k = name then (k, a) :: rest else (k, b) :: insertInPlace name a rest

/-- The value that a document stands for. -/
def asValue? (j : Json) : Option Json := some j.canonical

/-! ## Encoding fields -/

/-- A member that is left out if there is nothing to write. -/
def optionalMember {α : Type} (name : String) (encode : α → Json) :
    Option α → List (String × Json)
  | none => []
  | some a => [(name, encode a)]

/-- Null if there is nothing to write. -/
def ofOption {α : Type} (encode : α → Json) : Option α → Json
  | none => .null
  | some a => encode a

/-- A natural number. -/
def ofNat (n : Nat) : Json := .int n

end FlowEngine.Json
