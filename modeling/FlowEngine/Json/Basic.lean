import FlowEngine.Number.Binary64

/-!
# JSON documents

A document keeps the members of an object in the order they were written, repeated names included.
A value is a document in canonical form: members sorted by name, no name twice.

* `Json.canonical` — the value of a document; of a repeated name the last member counts.
* `Json.insertMember` — puts a member into a sorted list of members.
* `Json.Canonical` — canonical form as a predicate.
* `Json.depth` — how deep containers are nested.
-/

namespace FlowEngine

/-- A JSON document. Integers lie in `-2⁶³ … 2⁶⁴ - 1`; any other number is binary64. -/
inductive Json where
  | null
  | bool (value : Bool)
  | int (value : Int)
  | float (value : Binary64)
  | str (value : String)
  | arr (elements : List Json)
  | obj (members : List (String × Json))
  deriving Inhabited

namespace Json

/-! ## Equality -/

mutual

/-- Whether two documents are the same, number kinds and member order included. -/
def same : Json → Json → Bool
  | null, null => true
  | bool a, bool b => a == b
  | int a, int b => a == b
  | float a, float b => decide (a = b)
  | str a, str b => a == b
  | arr a, arr b => sameElements a b
  | obj a, obj b => sameMembers a b
  | _, _ => false

/-- Element by element. -/
def sameElements : List Json → List Json → Bool
  | [], [] => true
  | a :: as, b :: bs => same a b && sameElements as bs
  | _, _ => false

/-- Member by member. -/
def sameMembers : List (String × Json) → List (String × Json) → Bool
  | [], [] => true
  | (k, a) :: as, (l, b) :: bs => k == l && same a b && sameMembers as bs
  | _, _ => false

end

mutual

theorem same_iff : ∀ a b : Json, same a b = true ↔ a = b
  | .null, b => by cases b <;> simp [same]
  | .bool _, b => by cases b <;> simp [same]
  | .int _, b => by cases b <;> simp [same]
  | .float _, b => by cases b <;> simp [same]
  | .str _, b => by cases b <;> simp [same]
  | .arr as, b => by cases b <;> simp [same, sameElements_iff as]
  | .obj as, b => by cases b <;> simp [same, sameMembers_iff as]

theorem sameElements_iff : ∀ as bs : List Json, sameElements as bs = true ↔ as = bs
  | [], bs => by cases bs <;> simp [sameElements]
  | a :: as, bs => by cases bs <;> simp [sameElements, same_iff a, sameElements_iff as]

theorem sameMembers_iff :
    ∀ as bs : List (String × Json), sameMembers as bs = true ↔ as = bs
  | [], bs => by cases bs <;> simp [sameMembers]
  | (k, a) :: as, bs => by
    cases bs with
    | nil => simp [sameMembers]
    | cons b bs => obtain ⟨l, b⟩ := b; simp [sameMembers, same_iff a, sameMembers_iff as]

end

instance : DecidableEq Json := fun a b => decidable_of_iff _ (same_iff a b)

/-! ## Members -/

/-- Puts a member into a list sorted by name, in place of one of the same name. -/
def insertMember (name : String) (value : Json) : List (String × Json) → List (String × Json)
  | [] => [(name, value)]
  | (k, v) :: rest =>
    if name < k then (name, value) :: (k, v) :: rest
    else if name = k then (name, value) :: rest
    else (k, v) :: insertMember name value rest

/-- Sorts members by name; of a repeated name the last member counts. -/
def sortMembers (members : List (String × Json)) : List (String × Json) :=
  members.foldl (fun sorted m => insertMember m.1 m.2 sorted) []

mutual

/-- The value that a document stands for. A number that is not finite stands for nothing. -/
def canonical : Json → Json
  | .arr elements => .arr (canonicalElements elements)
  | .obj members => .obj (sortMembers (canonicalMembers members))
  | .float x => if x.isFinite then .float x else .null
  | j => j

/-- The values of a list of documents. -/
def canonicalElements : List Json → List Json
  | [] => []
  | j :: rest => canonical j :: canonicalElements rest

/-- The values of members, not sorted yet. -/
def canonicalMembers : List (String × Json) → List (String × Json)
  | [] => []
  | (k, j) :: rest => (k, canonical j) :: canonicalMembers rest

end

/-- The integers that can stand in a document. -/
abbrev InRange (i : Int) : Prop := -0x8000000000000000 ≤ i ∧ i < 0x10000000000000000

mutual

/-- Members are sorted by name without repetition at every depth, numbers are finite, and integers
are in range. -/
def Canonical : Json → Prop
  | .arr elements => CanonicalElements elements
  | .obj members => (members.map Prod.fst).Pairwise (· < ·) ∧ CanonicalMembers members
  | .float x => x.isFinite = true
  | .int i => InRange i
  | _ => True

/-- Every element is canonical. -/
def CanonicalElements : List Json → Prop
  | [] => True
  | j :: rest => Canonical j ∧ CanonicalElements rest

/-- Every member's value is canonical. -/
def CanonicalMembers : List (String × Json) → Prop
  | [] => True
  | (_, j) :: rest => Canonical j ∧ CanonicalMembers rest

end

/-- The value of a member, if the document is an object that has it. -/
def member? (name : String) : Json → Option Json
  | .obj members => members.lookup name
  | _ => none

/-- The value of a member, unless it is absent or null. -/
def present? (name : String) (j : Json) : Option Json :=
  (j.member? name).filter (· ≠ .null)

/-! ## Nesting -/

mutual

/-- How deep containers are nested; a scalar has depth zero. -/
def depth : Json → Nat
  | .arr elements => depthElements elements + 1
  | .obj members => depthMembers members + 1
  | _ => 0

/-- The greatest depth among elements. -/
def depthElements : List Json → Nat
  | [] => 0
  | j :: rest => max (depth j) (depthElements rest)

/-- The greatest depth among members. -/
def depthMembers : List (String × Json) → Nat
  | [] => 0
  | (_, j) :: rest => max (depth j) (depthMembers rest)

end

/-- The word for the kind of a value. -/
def kindName : Json → String
  | .null => "null"
  | .bool _ => "boolean"
  | .int _ | .float _ => "number"
  | .str _ => "string"
  | .arr _ => "list"
  | .obj _ => "object"

end Json

end FlowEngine
