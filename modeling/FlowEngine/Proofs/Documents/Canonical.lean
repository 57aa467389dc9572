import FlowEngine.Proofs.Documents.Reading
import Mathlib.Data.String.Basic

/-!
# Values in canonical form

* `Json.canonical_eq` — a value in canonical form stands for itself.
* `Json.Canonical.writable`, `Json.Canonical.reread` — it has a text, and is read back in canonical form.
* `Json.canonical_reread` — the value of what is read is what the value is read as.
-/

namespace FlowEngine.Json

variable {members sorted : List (String × Json)} {name : String} {value : Json}

/-! ## Sorted members -/

theorem insertMember_append (h : ∀ m ∈ sorted, m.1 < name) :
    insertMember name value sorted = sorted ++ [(name, value)] := by
  induction sorted with
  | nil => rfl
  | cons m sorted ih =>
    obtain ⟨k, v⟩ := m
    have hk : k < name := h (k, v) List.mem_cons_self
    rw [insertMember, if_neg (lt_asymm hk), if_neg (ne_of_gt hk),
      ih fun m hm => h m (List.mem_cons_of_mem _ hm), List.cons_append]

/-- Sorting leaves sorted members as they are. -/
theorem sortMembers_sorted (h : (members.map Prod.fst).Pairwise (· < ·)) :
    sortMembers members = members := by
  -- every member is inserted behind those that are sorted already
  have hfold : ∀ members sorted : List (String × Json),
      ((sorted ++ members).map Prod.fst).Pairwise (· < ·) →
        members.foldl (fun sorted m => insertMember m.1 m.2 sorted) sorted = sorted ++ members := by
    intro members
    induction members with
    | nil => simp
    | cons m members ih =>
      intro sorted h
      have hbelow : ∀ m' ∈ sorted, m'.1 < m.1 := by
        rw [List.map_append, List.pairwise_append] at h
        exact fun m' hm' => h.2.2 _ (List.mem_map_of_mem hm') _ (by simp)
      rw [List.foldl_cons, insertMember_append hbelow, ih _ (by simpa using h), List.append_assoc,
        List.singleton_append]
  exact hfold members [] h

theorem mem_of_mem_insertMember {m : String × Json}
    (h : m ∈ insertMember name value members) : m = (name, value) ∨ m ∈ members := by
  induction members with
  | nil => exact .inl (List.mem_singleton.mp h)
  | cons p members ih =>
    rw [insertMember] at h
    split_ifs at h
    · exact List.mem_cons.mp h
    · exact (List.mem_cons.mp h).imp_right (List.mem_cons_of_mem _)
    · rcases List.mem_cons.mp h with rfl | h
      · exact .inr List.mem_cons_self
      · exact (ih h).imp_right (List.mem_cons_of_mem _)

theorem mem_of_mem_sortMembers {m : String × Json} (h : m ∈ sortMembers members) : m ∈ members := by
  induction members using List.reverseRecOn with
  | nil => exact h
  | append_singleton members p ih =>
    rw [sortMembers, List.foldl_append] at h
    rcases mem_of_mem_insertMember h with rfl | h
    · exact List.mem_append_right _ List.mem_cons_self
    · exact List.mem_append_left _ (ih h)

theorem mem_insertMember (name : String) (value : Json) (members : List (String × Json)) :
    (name, value) ∈ insertMember name value members := by
  induction members with
  | nil => exact List.mem_singleton_self _
  | cons p members ih =>
    rw [insertMember]
    split_ifs
    · exact List.mem_cons_self
    · exact List.mem_cons_self
    · exact List.mem_cons_of_mem _ ih

theorem mem_insertMember_of_ne {m : String × Json} (hne : m.1 ≠ name) (h : m ∈ members) :
    m ∈ insertMember name value members := by
  induction members with
  | nil => cases h
  | cons p members ih =>
    rw [insertMember]
    split_ifs with hlt heq
    · exact List.mem_cons_of_mem _ h
    · rcases List.mem_cons.mp h with rfl | h
      · exact absurd heq.symm hne
      · exact List.mem_cons_of_mem _ h
    · rcases List.mem_cons.mp h with rfl | h
      · exact List.mem_cons_self
      · exact List.mem_cons_of_mem _ (ih h)

/-- Sorting loses no member unless its name is repeated. -/
theorem mem_sortMembers {m : String × Json} (hnd : (members.map Prod.fst).Nodup) (h : m ∈ members) :
    m ∈ sortMembers members := by
  induction members using List.reverseRecOn with
  | nil => cases h
  | append_singleton members p ih =>
    rw [List.map_append, List.nodup_append] at hnd
    rw [sortMembers, List.foldl_append]
    rcases List.mem_append.mp h with h | h
    · exact mem_insertMember_of_ne (hnd.2.2 _ (List.mem_map_of_mem h) _ (by simp)) (ih hnd.1 h)
    · rw [List.mem_singleton.mp h]
      exact mem_insertMember _ _ _

theorem pairwise_insertMember (h : (sorted.map Prod.fst).Pairwise (· < ·)) :
    ((insertMember name value sorted).map Prod.fst).Pairwise (· < ·) := by
  induction sorted with
  | nil => simp [insertMember]
  | cons m sorted ih =>
    obtain ⟨k, v⟩ := m
    obtain ⟨hbelow, hsorted⟩ := List.pairwise_cons.mp h
    rw [insertMember]
    split_ifs with hlt heq
    · refine List.pairwise_cons.mpr ⟨fun k' hk' => ?_, h⟩
      rcases List.mem_cons.mp hk' with rfl | hk'
      · exact hlt
      · exact hlt.trans (hbelow k' hk')
    · rw [heq]
      exact List.pairwise_cons.mpr ⟨hbelow, hsorted⟩
    · refine List.pairwise_cons.mpr ⟨fun k' hk' => ?_, ih hsorted⟩
      obtain ⟨m, hm, rfl⟩ := List.mem_map.mp hk'
      rcases mem_of_mem_insertMember hm with rfl | hm
      · exact lt_of_le_of_ne (not_lt.mp hlt) (Ne.symm heq)
      · exact hbelow m.1 (List.mem_map_of_mem hm)

/-- Members are sorted, and no name is left twice. -/
theorem pairwise_sortMembers (members : List (String × Json)) :
    ((sortMembers members).map Prod.fst).Pairwise (· < ·) := by
  induction members using List.reverseRecOn with
  | nil => exact List.Pairwise.nil
  | append_singleton members m ih =>
    rw [sortMembers, List.foldl_append]
    exact pairwise_insertMember ih

theorem canonicalMembers_iff : CanonicalMembers members ↔ ∀ m ∈ members, m.2.Canonical := by
  induction members with
  | nil => exact iff_of_true trivial (by simp)
  | cons m members ih => rw [CanonicalMembers, ih, List.forall_mem_cons]

mutual

/-- A value in canonical form stands for itself. -/
theorem canonical_eq : ∀ j : Json, Canonical j → j.canonical = j
  | .null, _ | .bool _, _ | .int _, _ | .str _, _ => rfl
  | .float _, h => if_pos h
  | .arr elements, h => congrArg arr (canonicalElements_eq elements h)
  | .obj members, h => by
    rw [canonical, canonicalMembers_eq members h.2, sortMembers_sorted h.1]

theorem canonicalElements_eq : ∀ elements : List Json, CanonicalElements elements →
    canonicalElements elements = elements
  | [], _ => rfl
  | j :: elements, h => by rw [canonicalElements, canonical_eq j h.1, canonicalElements_eq elements h.2]

theorem canonicalMembers_eq : ∀ members : List (String × Json), CanonicalMembers members →
    canonicalMembers members = members
  | [], _ => rfl
  | (_, j) :: members, h => by rw [canonicalMembers, canonical_eq j h.1, canonicalMembers_eq members h.2]

end

theorem canonicalElements_eq_map (elements : List Json) :
    canonicalElements elements = elements.map canonical := by
  induction elements with
  | nil => rfl
  | cons j elements ih => rw [canonicalElements, ih, List.map_cons]

theorem canonicalMembers_eq_map (members : List (String × Json)) :
    canonicalMembers members = members.map fun m => (m.1, m.2.canonical) := by
  induction members with
  | nil => rfl
  | cons m members ih => rw [canonicalMembers, ih, List.map_cons]

/-! ## Nesting -/

theorem depthMembers_append (as bs : List (String × Json)) :
    depthMembers (as ++ bs) = max (depthMembers as) (depthMembers bs) := by
  induction as with
  | nil => exact (Nat.zero_max _).symm
  | cons m as ih => rw [List.cons_append, depthMembers, depthMembers, ih, Nat.max_assoc]

theorem depth_le_depthMembers {m : String × Json} (h : m ∈ members) : m.2.depth ≤ depthMembers members := by
  induction members with
  | nil => cases h
  | cons m' members ih =>
    obtain ⟨k, j⟩ := m'
    rcases List.mem_cons.mp h with rfl | h
    · exact Nat.le_max_left _ _
    · exact (ih h).trans (Nat.le_max_right _ _)

theorem depth_le_depthElements {elements : List Json} (h : value ∈ elements) :
    value.depth ≤ depthElements elements := by
  induction elements with
  | nil => cases h
  | cons j elements ih =>
    rcases List.mem_cons.mp h with rfl | h
    · exact Nat.le_max_left _ _
    · exact (ih h).trans (Nat.le_max_right _ _)

/-- Texts are not nested. -/
theorem depth_texts (texts : List String) : depthElements (texts.map .str) = 0 := by
  induction texts with
  | nil => rfl
  | cons t texts ih => exact Nat.max_eq_zero_iff.mpr ⟨rfl, ih⟩

/-! ## Texts -/

mutual

/-- A value in canonical form has a text. -/
theorem Canonical.writable : ∀ {j : Json}, Canonical j → Writable j
  | .null, _ | .bool _, _ | .str _, _ => trivial
  | .int _, h | .float _, h => h
  | .arr _, h => CanonicalElements.writable h
  | .obj _, h => CanonicalMembers.writable h.2

theorem CanonicalElements.writable : ∀ {elements : List Json}, CanonicalElements elements →
    WritableElements elements
  | [], _ => trivial
  | _ :: _, h => ⟨Canonical.writable h.1, CanonicalElements.writable h.2⟩

theorem CanonicalMembers.writable : ∀ {members : List (String × Json)}, CanonicalMembers members →
    WritableMembers members
  | [], _ => trivial
  | (_, _) :: _, h => ⟨Canonical.writable h.1, CanonicalMembers.writable h.2⟩

end

theorem writableMembers_append (as bs : List (String × Json)) :
    WritableMembers (as ++ bs) ↔ WritableMembers as ∧ WritableMembers bs := by
  induction as with
  | nil => exact (iff_of_eq (true_and _)).symm
  | cons m as ih =>
    rw [List.cons_append, WritableMembers, ih, WritableMembers, and_assoc]

theorem rereadMembers_append (as bs : List (String × Json)) :
    rereadMembers (as ++ bs) = rereadMembers as ++ rereadMembers bs := by
  induction as with
  | nil => rfl
  | cons m as ih => exact congrArg _ ih

/-- A list of texts is read as it is written. -/
theorem reread_texts (texts : List String) :
    WritableElements (texts.map .str) ∧ rereadElements (texts.map .str) = texts.map .str := by
  induction texts with
  | nil => exact ⟨trivial, rfl⟩
  | cons s texts ih => exact ⟨⟨trivial, ih.1⟩, congrArg _ ih.2⟩

theorem names_rereadMembers : ∀ members : List (String × Json),
    (rereadMembers members).map Prod.fst = members.map Prod.fst
  | [] => rfl
  | (k, _) :: members => congrArg (k :: ·) (names_rereadMembers members)

mutual

/-- What a value in canonical form is read as is in canonical form. -/
theorem Canonical.reread : ∀ {j : Json}, Canonical j → Canonical j.reread
  | .null, _ | .bool _, _ | .str _, _ => trivial
  | .int _, h => h
  | .float _, h => Binary64.isFinite_reread h
  | .arr _, h => CanonicalElements.reread h
  | .obj members, h => ⟨(names_rereadMembers members).symm ▸ h.1, CanonicalMembers.reread h.2⟩

theorem CanonicalElements.reread : ∀ {elements : List Json}, CanonicalElements elements →
    CanonicalElements (rereadElements elements)
  | [], _ => trivial
  | _ :: _, h => ⟨Canonical.reread h.1, CanonicalElements.reread h.2⟩

theorem CanonicalMembers.reread : ∀ {members : List (String × Json)}, CanonicalMembers members →
    CanonicalMembers (rereadMembers members)
  | [], _ => trivial
  | (_, _) :: _, h => ⟨Canonical.reread h.1, CanonicalMembers.reread h.2⟩

end

mutual

/-- The value of a document that has a text is in canonical form. -/
theorem Writable.canonical : ∀ {j : Json}, Writable j → Canonical j.canonical
  | .null, _ | .bool _, _ | .str _, _ => trivial
  | .int _, h => h
  | .float x, h => by
    have hx : x.isFinite = true := h
    rw [Json.canonical, if_pos hx]
    exact hx
  | .arr _, h => WritableElements.canonical h
  | .obj _, h => ⟨pairwise_sortMembers _, canonicalMembers_iff.mpr fun m hm =>
      canonicalMembers_iff.mp (WritableMembers.canonical h) m (mem_of_mem_sortMembers hm)⟩

theorem WritableElements.canonical : ∀ {elements : List Json}, WritableElements elements →
    CanonicalElements (canonicalElements elements)
  | [], _ => trivial
  | _ :: _, h => ⟨Writable.canonical h.1, WritableElements.canonical h.2⟩

theorem WritableMembers.canonical : ∀ {members : List (String × Json)}, WritableMembers members →
    CanonicalMembers (canonicalMembers members)
  | [], _ => trivial
  | (_, _) :: _, h => ⟨Writable.canonical h.1, WritableMembers.canonical h.2⟩

end

/-! ## Values of documents that are read again -/

theorem insertMember_reread (name : String) (value : Json) (members : List (String × Json)) :
    insertMember name value.reread (rereadMembers members) =
      rereadMembers (insertMember name value members) := by
  induction members with
  | nil => rfl
  | cons m members ih =>
    obtain ⟨k, j⟩ := m
    rw [rereadMembers, insertMember, insertMember]
    split_ifs
    · rfl
    · rfl
    · rw [ih, rereadMembers]

theorem sortMembers_reread (members : List (String × Json)) :
    sortMembers (rereadMembers members) = rereadMembers (sortMembers members) := by
  have hfold (sorted : List (String × Json)) :
      (rereadMembers members).foldl (fun sorted m => insertMember m.1 m.2 sorted) (rereadMembers sorted) =
        rereadMembers (members.foldl (fun sorted m => insertMember m.1 m.2 sorted) sorted) := by
    induction members generalizing sorted with
    | nil => rfl
    | cons m members ih =>
      obtain ⟨k, j⟩ := m
      rw [rereadMembers, List.foldl_cons, List.foldl_cons, insertMember_reread, ih]
  exact hfold []

mutual

/-- The value of what is read is what the value is read as. -/
theorem canonical_reread : ∀ {j : Json}, Writable j → j.reread.canonical = j.canonical.reread
  | .null, _ | .bool _, _ | .str _, _ | .int _, _ => rfl
  | .float x, h => by
    have hx : x.isFinite = true := h
    rw [Json.reread, canonical, canonical, if_pos (Binary64.isFinite_reread hx), if_pos hx, Json.reread]
  | .arr _, h => congrArg arr (canonicalElements_reread h)
  | .obj members, h => by
    rw [Json.reread, canonical, canonical, Json.reread, canonicalMembers_reread h, sortMembers_reread]

theorem canonicalElements_reread : ∀ {elements : List Json}, WritableElements elements →
    canonicalElements (rereadElements elements) = rereadElements (canonicalElements elements)
  | [], _ => rfl
  | j :: elements, h => by
    rw [rereadElements, canonicalElements, canonicalElements, rereadElements, canonical_reread h.1,
      canonicalElements_reread h.2]

theorem canonicalMembers_reread : ∀ {members : List (String × Json)}, WritableMembers members →
    canonicalMembers (rereadMembers members) = rereadMembers (canonicalMembers members)
  | [], _ => rfl
  | (_, j) :: members, h => by
    rw [rereadMembers, canonicalMembers, canonicalMembers, rereadMembers, canonical_reread h.1,
      canonicalMembers_reread h.2]

end

end FlowEngine.Json
