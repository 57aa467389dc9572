import FlowEngine.Proofs.Documents.Canonical
import FlowEngine.Proofs.Expr.Paths

/-!
# Documents as values

Lookups in a document that has become a value find the parts of the document, and nothing else.

* `Accessor.in?`, `Json.at?` — what stands under an accessor, or at the end of a path, in a document.
* `follow_ofJson` — so it is for the value of a document.
* `Value.toJson_ofJson` — a document that has become a value comes back as it was.
-/

namespace FlowEngine.Expr

/-! ## Paths in documents -/

/-- What stands under an accessor in a document. -/
def Accessor.in? (j : Json) : Accessor → Option Json
  | dot name | key name => j.member? name
  | index n =>
    match j with
    | .arr elements => elements[n]?
    | _ => none

end FlowEngine.Expr

namespace FlowEngine.Json

open FlowEngine.Expr

/-- What stands at the end of a path in a document. -/
def at? : Json → List Accessor → Option Json
  | j, [] => some j
  | j, a :: path => (a.in? j).bind fun k => k.at? path

/-- A path goes on with an index into a text. -/
def IndexesText : Json → List Accessor → Prop
  | _, [] => False
  | j, a :: path => (∃ s n, j = .str s ∧ a = .index n) ∨ ∃ k, a.in? j = some k ∧ k.IndexesText path

end FlowEngine.Json

namespace FlowEngine.Expr

variable {j : Json} {name : String} {a : Accessor} {path : List Accessor}

namespace Value

theorem order_str (s t : String) : order (str s) (str t) = .eq ↔ s = t := by
  simp [order, kindsThen, orderScalars, coerce?, kind]

theorem order_str_int (s : String) (w : Width) (i : Int) : order (str s) (int w i) ≠ .eq := by
  simp [order, kindsThen, kind, Kind.rank]

theorem entry?_str (name : String) (members : List (String × Json)) :
    entry? (str name) (ofMembers members) = (members.lookup name).map ofJson := by
  induction members with
  | nil => rfl
  | cons m members ih =>
    obtain ⟨k, j⟩ := m
    rw [ofMembers, entry?, List.find?_cons, List.lookup_cons]
    by_cases h : k = name
    · subst h
      rw [(order_str k k).mpr rfl]
      simp
    · have horder : (order (str k) (str name) == .eq) = false := by simpa [order_str] using h
      have hname : (name == k) = false := by simpa using Ne.symm h
      rw [horder, hname]
      exact ih

/-- An integer is no key of a document. -/
theorem entry?_int (w : Width) (i : Int) (members : List (String × Json)) :
    entry? (int w i) (ofMembers members) = Option.none := by
  induction members with
  | nil => rfl
  | cons m members ih =>
    obtain ⟨k, j⟩ := m
    have horder : (order (str k) (int w i) == .eq) = false := by simpa using order_str_int k w i
    rw [ofMembers, entry?, List.find?_cons, horder]
    exact ih

theorem getElem?_ofElements (elements : List Json) (n : Nat) :
    (ofElements elements)[n]? = (elements[n]?).map ofJson := by
  induction elements generalizing n with
  | nil => rfl
  | cons j elements ih =>
    cases n with
    | zero => rfl
    | succ n => exact ih n

theorem at?_int (items : List Value) (w : Width) (n : Nat) : at? items (int w n) = items[n]? := by
  simp [at?, asInt?]

end Value

/-! ## Following paths -/

/-- What a document has for an accessor, its value has. -/
theorem Accessor.get_ofJson (h : ¬ ∃ s n, j = .str s ∧ a = .index n) :
    a.get (.ofJson j) = ((a.in? j).map .ofJson).getD .undefined := by
  cases a with
  | dot name =>
    cases j with
    | obj members => simp [get, in?, Json.member?, Value.ofJson, Value.field?, Value.mapItem?,
        Value.item?, Value.entry?_str]
    | _ => rfl
  | key name =>
    cases j with
    | obj members => simp [get, in?, Json.member?, Value.ofJson, Value.item?, Value.entry?_str]
    | arr elements => rfl
    | _ => rfl
  | index n =>
    cases j with
    | obj members => simp [get, in?, Value.ofJson, Value.item?, Value.entry?_int]
    | arr elements =>
      simp [get, in?, Value.ofJson, Value.item?, Value.at?_int, Value.getElem?_ofElements]
    | str s => exact absurd ⟨s, n, rfl, rfl⟩ h
    | _ => rfl

theorem follow_undefined (path : List Accessor) : follow .undefined path = .undefined := by
  induction path with
  | nil => rfl
  | cons a path ih =>
    have ha : a.get .undefined = .undefined := by cases a <;> rfl
    rw [follow, List.foldl_cons, ha]
    exact ih

/-- A path leads to the value of what is at its end. -/
theorem follow_ofJson (h : ¬ j.IndexesText path) :
    follow (.ofJson j) path = ((j.at? path).map .ofJson).getD .undefined := by
  induction path generalizing j with
  | nil => rfl
  | cons a path ih =>
    rw [Json.IndexesText, not_or] at h
    rw [follow, List.foldl_cons, Accessor.get_ofJson h.1, Json.at?]
    cases ha : a.in? j with
    | none => exact follow_undefined path
    | some k =>
      refine ih fun hk => h.2 ⟨k, ha, hk⟩

/-! ## Back to documents -/

namespace Value

mutual

/-- A document that has become a value comes back as it was. -/
theorem toJson_ofJson : ∀ j : Json, j.Canonical → (ofJson j).toJson = j
  | .null, _ => rfl
  | .bool _, _ => rfl
  | .int i, h => by
    have h : Json.InRange i := h
    rw [ofJson, toJson, intJson, if_pos h]
  | .float x, h => by
    have h : x.isFinite = true := h
    rw [ofJson, toJson, floatJson, if_pos h]
  | .str _, _ => rfl
  | .arr elements, h => by rw [ofJson, toJson, toElements_ofElements elements h]
  | .obj members, h => by
    rw [ofJson, toJson, toMembers_ofMembers members h.2, Json.sortMembers_sorted h.1]

theorem toElements_ofElements : ∀ elements : List Json, Json.CanonicalElements elements →
    toElements (ofElements elements) = elements
  | [], _ => rfl
  | j :: rest, h => by
    rw [ofElements, toElements, toJson_ofJson j h.1, toElements_ofElements rest h.2]

theorem toMembers_ofMembers : ∀ members : List (String × Json), Json.CanonicalMembers members →
    toMembers (ofMembers members) = members
  | [], _ => rfl
  | (k, j) :: rest, h => by
    rw [ofMembers, toMembers, toJson_ofJson j h.1, toMembers_ofMembers rest h.2]
    rfl

end

end Value

end FlowEngine.Expr

namespace FlowEngine.Json

open FlowEngine.Expr

variable {j k : Json} {a : Accessor} {path : List Accessor}

theorem CanonicalElements.getElem? {elements : List Json} (h : CanonicalElements elements) {n : Nat}
    (hk : elements[n]? = some k) : k.Canonical := by
  induction elements generalizing n with
  | nil => cases hk
  | cons j elements ih =>
    cases n with
    | zero => cases hk; exact h.1
    | succ n => exact ih h.2 hk

theorem CanonicalMembers.lookup {members : List (String × Json)} (h : CanonicalMembers members)
    {name : String} (hk : members.lookup name = some k) : k.Canonical := by
  induction members with
  | nil => cases hk
  | cons m members ih =>
    obtain ⟨name', j⟩ := m
    rw [List.lookup_cons] at hk
    split at hk
    · cases hk; exact h.1
    · exact ih h.2 hk

theorem Canonical.in? (h : j.Canonical) (hk : a.in? j = some k) : k.Canonical := by
  cases a with
  | index n =>
    cases j with
    | arr elements => exact CanonicalElements.getElem? h hk
    | _ => cases hk
  | dot name =>
    cases j with
    | obj members => exact CanonicalMembers.lookup h.2 hk
    | _ => cases hk
  | key name =>
    cases j with
    | obj members => exact CanonicalMembers.lookup h.2 hk
    | _ => cases hk

/-- What is in a canonical document is canonical. -/
theorem Canonical.at? (h : j.Canonical) (hk : j.at? path = some k) : k.Canonical := by
  induction path generalizing j with
  | nil => cases hk; exact h
  | cons a path ih =>
    obtain ⟨k', ha, hk⟩ := Option.bind_eq_some_iff.mp hk
    exact ih (h.in? ha) hk

/-- A path from the value of a document gives the document at its end, or nothing. -/
theorem toJson_follow (h : j.Canonical) (hpath : ¬ j.IndexesText path) :
    (follow (.ofJson j) path).toJson = (j.at? path).getD .null := by
  rw [follow_ofJson hpath]
  cases hk : j.at? path with
  | none => rfl
  | some k => exact Value.toJson_ofJson k (h.at? hk)

end FlowEngine.Json
