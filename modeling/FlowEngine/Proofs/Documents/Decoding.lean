import FlowEngine.Json.Decode
import FlowEngine.Proofs.Documents.Canonical
import Mathlib.Data.List.Forall2
import Mathlib.Data.List.Nodup

/-!
# Decoding fields

* `Json.knownMembers?_between`, `Json.fields?_known` — the known fields among members.
* `Json.tagged?_between` — the form of a record that has several.
* `Json.asMap?_members`, `Json.asList?_elements` — maps and lists whose entries decode.
* `Json.asValue?_canonical`, `Json.asNat64?_ofNat` — scalars.

The other way around, what is decoded has what all decoded values have.

* `Json.required_of_writable`, `Json.defaulted_of_writable`, `Json.optional_of_writable`,
  `Json.asList?_of_writable` — what is decoded from the parts of a document that has a text.
* `Json.fields?_writable`, `Json.tagged?_writable` — these parts have texts too.
-/

namespace FlowEngine.Json

variable {α : Type} {names : List String} {members : List (String × Json)}
  {decode : Json → Option α} {entries : List (String × α)} {elements : List Json} {as : List α}
  {value : Json} {n : Nat}

/-! ## Fields -/

theorem filter_known (h : ∀ m ∈ members, m.1 ∈ names) :
    members.filter (fun m => names.contains m.1) = members :=
  List.filter_eq_self.mpr fun m hm => by simpa using h m hm

theorem filter_unknown (h : ∀ m ∈ members, m.1 ∉ names) :
    members.filter (fun m => names.contains m.1) = [] :=
  List.filter_eq_nil_iff.mpr fun m hm => by simpa using h m hm

/-- The known members before and after others. -/
theorem knownMembers?_around (before others after : List (String × Json))
    (hbefore : ∀ m ∈ before, m.1 ∈ names) (hothers : ∀ m ∈ others, m.1 ∉ names)
    (hafter : ∀ m ∈ after, m.1 ∈ names) (hnd : ((before ++ after).map Prod.fst).Nodup) :
    knownMembers? names (before ++ (others ++ after)) = some (before ++ after) := by
  rw [knownMembers?, List.filter_append, List.filter_append, filter_known hbefore, filter_unknown hothers,
    filter_known hafter, List.nil_append]
  exact if_pos hnd

/-- The known members between others. -/
theorem knownMembers?_between (before known after : List (String × Json))
    (hbefore : ∀ m ∈ before, m.1 ∉ names) (hknown : ∀ m ∈ known, m.1 ∈ names)
    (hafter : ∀ m ∈ after, m.1 ∉ names) (hnd : (known.map Prod.fst).Nodup) :
    knownMembers? names (before ++ (known ++ after)) = some known := by
  rw [knownMembers?, List.filter_append, List.filter_append, filter_unknown hbefore, filter_known hknown,
    filter_unknown hafter, List.append_nil, List.nil_append]
  exact if_pos hnd

/-- Members that are all known. -/
theorem knownMembers?_known (names : List String) (known : List (String × Json))
    (hknown : ∀ m ∈ known, m.1 ∈ names) (hnd : (known.map Prod.fst).Nodup) :
    knownMembers? names known = some known := by
  have h := knownMembers?_between [] known [] (by simp) hknown (by simp) hnd
  rwa [List.nil_append, List.append_nil] at h

theorem objectFields?_known (names : List String) (known : List (String × Json))
    (hknown : ∀ m ∈ known, m.1 ∈ names) (hnd : (known.map Prod.fst).Nodup) :
    objectFields? names (.obj known) = some known :=
  knownMembers?_known names known hknown hnd

theorem fields?_known (names : List String) (known : List (String × Json))
    (hknown : ∀ m ∈ known, m.1 ∈ names) (hnd : (known.map Prod.fst).Nodup) :
    fields? names (.obj known) = some known :=
  knownMembers?_known names known hknown hnd

/-- A step of a decoder that gives a result. -/
theorem bind_of_some {β : Type} {x : Option α} {a : α} {f : α → Option β} (h : x = some a) :
    (x >>= f) = f a := by
  rw [h]
  rfl

/-- A field that is there and decodes. -/
theorem required_of_lookup {fs : Fields} {name : String} {a : α} (h : fs.lookup name = some value)
    (hdecode : decode value = some a) : fs.required name decode = some a := by
  rw [Fields.required, h]
  exact hdecode

theorem defaulted_of_lookup {fs : Fields} {name : String} {a default : α}
    (h : fs.lookup name = some value) (hdecode : decode value = some a) :
    fs.defaulted name default decode = some a := by
  rw [Fields.defaulted, h]
  exact hdecode

/-- A field that may be absent, and is not written as null. -/
theorem optional_of_lookup {fs : Fields} {name : String} {encode : α → Json} {a : Option α}
    (h : fs.lookup name = a.map encode) (hne : ∀ x ∈ a, encode x ≠ .null)
    (hdecode : ∀ x ∈ a, decode (encode x) = some x) : fs.optional name decode = some a := by
  rw [Fields.optional, h]
  rcases a with _ | x
  · rfl
  · -- a null would be read like a field that is absent
    rw [Option.map_some]
    split
    · next heq => cases heq
    · next heq => exact absurd (Option.some.inj heq) (hne x rfl)
    · next heq =>
      rw [← Option.some.inj heq, hdecode x rfl]
      rfl

/-- A field that is written as null if there is nothing to write. -/
theorem optional_ofOption {fs : Fields} {name : String} {encode : α → Json} {a : Option α}
    (h : fs.lookup name = some (ofOption encode a)) (hne : ∀ x ∈ a, encode x ≠ .null)
    (hdecode : ∀ x ∈ a, decode (encode x) = some x) : fs.optional name decode = some a := by
  rcases a with _ | x
  · rw [Fields.optional, h]
    rfl
  · exact optional_of_lookup (a := some x) h hne hdecode

/-- The form that the tag among members names, and the members without the tag. -/
theorem tagged?_between (o : Origin) (forms : List String) (tag form : String)
    (before after : List (String × Json)) (hbefore : ∀ m ∈ before, m.1 ≠ tag)
    (hafter : ∀ m ∈ after, m.1 ≠ tag) :
    tagged? o tag forms (.obj (before ++ (tag, .str form) :: after)) =
      some (form, .obj (before ++ after)) := by
  have hnone {ms : List (String × Json)} (h : ∀ m ∈ ms, m.1 ≠ tag) :
      ms.filter (fun m => m.1 == tag) = [] :=
    List.filter_eq_nil_iff.mpr fun m hm => by simpa using h m hm
  have hall {ms : List (String × Json)} (h : ∀ m ∈ ms, m.1 ≠ tag) :
      ms.filter (fun m => m.1 != tag) = ms :=
    List.filter_eq_self.mpr fun m hm => by simpa using h m hm
  simp [tagged?, tagName?, List.filter_append, hnone hbefore, hnone hafter, hall hbefore, hall hafter]

/-! ## Maps and lists -/

theorem insertInPlace_append {name : String} {a : α} (h : name ∉ entries.map Prod.fst) :
    asMap?.insertInPlace name a entries = entries ++ [(name, a)] := by
  induction entries with
  | nil => rfl
  | cons e entries ih =>
    rw [List.map_cons, List.mem_cons, not_or] at h
    rw [asMap?.insertInPlace, if_neg (Ne.symm h.1), ih h.2, List.cons_append]

/-- A member that decodes as an entry of a map. -/
def EntryOf (decode : Json → Option α) (m : String × Json) (e : String × α) : Prop :=
  m.1 = e.1 ∧ decode m.2 = some e.2

theorem foldlM_members (h : List.Forall₂ (EntryOf decode) members entries) (done : List (String × α))
    (hnd : ((done ++ entries).map Prod.fst).Nodup) :
    members.foldlM (fun done m => (decode m.2).map fun a => asMap?.insertInPlace m.1 a done) done =
      some (done ++ entries) := by
  induction h generalizing done with
  | nil => rw [List.append_nil]; rfl
  | @cons m e members entries hm _ ih =>
    obtain ⟨k, a⟩ := e
    obtain ⟨hname, hdecode⟩ := hm
    have hnew : k ∉ done.map Prod.fst := by
      rw [List.map_append, List.nodup_append] at hnd
      exact fun hk => hnd.2.2 _ hk _ (by simp) rfl
    rw [List.foldlM_cons, hdecode, hname]
    simp only [Option.map_some, Option.bind_eq_bind, Option.bind_some, insertInPlace_append hnew]
    rw [ih _ (by simpa using hnd), List.append_assoc, List.singleton_append]

/-- A map whose entries decode decodes, in the same order. -/
theorem asMap?_members (h : List.Forall₂ (EntryOf decode) members entries)
    (hnd : (entries.map Prod.fst).Nodup) : asMap? decode (.obj members) = some entries :=
  foldlM_members h [] hnd

/-- A list whose elements decode decodes. -/
theorem asList?_elements (h : List.Forall₂ (fun j a => decode j = some a) elements as) :
    asList? decode (.arr elements) = some as := by
  rw [asList?]
  induction h with
  | nil => rfl
  | cons hj _ ih => rw [List.mapM_cons, hj, ih]; rfl

/-! ## Scalars -/

theorem asValue?_canonical (h : value.Canonical) : asValue? value = some value :=
  congrArg some (canonical_eq value h)

theorem asNat64?_ofNat (h : n < 2 ^ 64) : asNat64? (ofNat n) = some n := by
  rw [asNat64?, ofNat, asNatBelow?, if_pos (by omega), Int.toNat_natCast]

/-! ## What is decoded -/

section Decoded

variable {fs : Fields} {name : String} {j : Json} {P : α → Prop}

/-- A field that may be missing has what all values of it and the default have. -/
theorem defaulted_spec {a default : α} (h : fs.defaulted name default decode = some a) (hdefault : P default)
    (hdecode : ∀ {j a}, fs.lookup name = some j → decode j = some a → P a) : P a := by
  unfold Fields.defaulted at h
  split at h
  · cases h
    exact hdefault
  · next hj => exact hdecode hj h

theorem asNat64?_lt {n : Nat} (h : asNat64? j = some n) : n < 0x10000000000000000 := by
  unfold asNat64? asNatBelow? at h
  split at h
  · split_ifs at h
    cases h
    omega
  · cases h

/-! ## Fields of documents -/

theorem writableMembers_iff : WritableMembers members ↔ ∀ m ∈ members, m.2.Writable := by
  induction members with
  | nil => exact iff_of_true trivial (by simp)
  | cons m members ih => rw [WritableMembers, ih, List.forall_mem_cons]

theorem writableElements_iff {elements : List Json} :
    WritableElements elements ↔ ∀ j ∈ elements, j.Writable := by
  induction elements with
  | nil => exact iff_of_true trivial (by simp)
  | cons j elements ih => rw [WritableElements, ih, List.forall_mem_cons]

theorem knownMembers?_writable (h : WritableMembers members) (hfs : knownMembers? names members = some fs) :
    WritableMembers fs := by
  unfold knownMembers? at hfs
  dsimp only at hfs
  split_ifs at hfs
  obtain rfl := Option.some.inj hfs
  exact writableMembers_iff.mpr fun m hm => writableMembers_iff.mp h m (List.mem_of_mem_filter hm)

theorem zip_writable {elements : List Json} (h : WritableElements elements) (names : List String) :
    WritableMembers (names.zip elements) :=
  writableMembers_iff.mpr fun _ hm => writableElements_iff.mp h _ (List.of_mem_zip hm).2

theorem objectFields?_writable (h : j.Writable) (hfs : j.objectFields? names = some fs) :
    WritableMembers fs := by
  cases j with
  | obj members => exact knownMembers?_writable h hfs
  | _ => cases hfs

theorem fields?_writable (h : j.Writable) (hfs : j.fields? names = some fs) : WritableMembers fs := by
  cases j with
  | obj members => exact knownMembers?_writable h hfs
  | arr elements =>
    unfold fields? at hfs
    dsimp only at hfs
    split_ifs at hfs
    obtain rfl := Option.some.inj hfs
    exact zip_writable h names
  | _ => cases hfs

theorem completeFields?_writable (h : j.Writable) (hfs : j.completeFields? names = some fs) :
    WritableMembers fs := by
  cases j with
  | obj members => exact knownMembers?_writable h hfs
  | arr elements =>
    unfold completeFields? at hfs
    dsimp only at hfs
    split_ifs at hfs
    obtain rfl := Option.some.inj hfs
    exact zip_writable h names
  | _ => cases hfs

theorem lookup_writable (h : WritableMembers fs) (hlookup : fs.lookup name = some j) : j.Writable := by
  obtain ⟨before, after, rfl, -⟩ := List.lookup_eq_some_iff.mp hlookup
  exact writableMembers_iff.mp h (name, j) (by simp)

/-- A field that is there has what all values of it have. -/
theorem required_of_writable {a : α} (hfs : WritableMembers fs) (h : fs.required name decode = some a)
    (hdecode : ∀ {j a}, j.Writable → decode j = some a → P a) : P a := by
  obtain ⟨j, hj, ha⟩ := Option.bind_eq_some_iff.mp h
  exact hdecode (lookup_writable hfs hj) ha

theorem defaulted_of_writable {a default : α} (hfs : WritableMembers fs)
    (h : fs.defaulted name default decode = some a) (hdefault : P default)
    (hdecode : ∀ {j a}, j.Writable → decode j = some a → P a) : P a :=
  defaulted_spec h hdefault fun hj ha => hdecode (lookup_writable hfs hj) ha

theorem optional_of_writable {a : Option α} (hfs : WritableMembers fs) (h : fs.optional name decode = some a)
    (hdecode : ∀ {j a}, j.Writable → decode j = some a → P a) : ∀ x ∈ a, P x := by
  unfold Fields.optional at h
  split at h
  · cases h
    exact fun _ hx => nomatch hx
  · cases h
    exact fun _ hx => nomatch hx
  · next heq =>
    obtain ⟨x, hx, rfl⟩ := Option.map_eq_some_iff.mp h
    rintro _ ⟨⟩
    exact hdecode (lookup_writable hfs heq) hx

theorem asList?_of_writable {as : List α} (hj : j.Writable) (h : asList? decode j = some as)
    (hdecode : ∀ {j a}, j.Writable → decode j = some a → P a) : ∀ a ∈ as, P a := by
  cases j with
  | arr elements =>
    replace h : elements.mapM decode = some as := h
    replace hj : WritableElements elements := hj
    induction elements generalizing as with
    | nil =>
      obtain rfl : [] = as := Option.some.inj h
      exact fun _ ha => nomatch ha
    | cons j elements ih =>
      rw [List.mapM_cons] at h
      obtain ⟨a, ha, h⟩ := Option.bind_eq_some_iff.mp h
      obtain ⟨as, has, h⟩ := Option.bind_eq_some_iff.mp h
      obtain rfl := Option.some.inj h
      exact List.forall_mem_cons.mpr ⟨hdecode hj.1 ha, ih has hj.2⟩
  | _ => cases h

/-- What is left of a record without its tag. -/
theorem tagged?_writable {o : Origin} {forms : List String} {tag form : String} {k : Json} (hj : j.Writable)
    (h : j.tagged? o tag forms = some (form, k)) : k.Writable := by
  cases j with
  | obj members =>
    rw [tagged?] at h
    split at h
    · obtain ⟨_, -, heq⟩ := Option.map_eq_some_iff.mp h
      obtain ⟨-, rfl⟩ := Prod.mk.inj heq
      exact writableMembers_iff.mpr fun m hm => writableMembers_iff.mp hj m (List.mem_of_mem_filter hm)
    · cases h
  | arr elements =>
    cases elements with
    | nil => cases h
    | cons t rest =>
      obtain ⟨_, -, heq⟩ := Option.map_eq_some_iff.mp h
      obtain ⟨-, rfl⟩ := Prod.mk.inj heq
      exact hj.2
  | _ => cases h

theorem asValue?_of_writable {a : Json} (hj : j.Writable) (h : asValue? j = some a) : a.Canonical := by
  obtain rfl := Option.some.inj h
  exact hj.canonical

end Decoded

end FlowEngine.Json
