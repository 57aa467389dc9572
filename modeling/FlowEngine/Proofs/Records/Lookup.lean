import FlowEngine.Engine.Split
import Mathlib.Data.List.Nodup

/-!
# Looking up records

What a map of records shows of a step after it was changed.

* `StepMap.get?_insert` — after an insertion.
* `StepMap.get?_edit` — after all records were edited.
* `StepMap.withdrawPauses_eq`, `StepMap.get?_withdrawPauses` — after pauses were withdrawn.
* `get?_mergeSteps` — after the records that a branch changed were put into a map.
-/

namespace FlowEngine.Run

namespace StepMap

/-! ## Names and records -/

@[simp] theorem get?_nil (n : String) : get? [] n = none := rfl

theorem get?_cons (k : String) (r : StepRecord) (m : StepMap) (n : String) :
    get? ((k, r) :: m) n = if k = n then some r else m.get? n := by
  unfold get?
  rw [List.lookup_cons]
  by_cases h : k = n
  · simp [h]
  · rw [if_neg h, beq_eq_false_iff_ne.mpr (Ne.symm h)]

theorem mem_names_iff {m : StepMap} {n : String} : n ∈ m.names ↔ ∃ r, m.get? n = some r := by
  induction m with
  | nil => simp [names]
  | cons e m ih =>
    obtain ⟨k, r⟩ := e
    rw [get?_cons]
    by_cases h : k = n
    · simp [names, h]
    · rw [if_neg h, ← ih]
      simp [names, Ne.symm h]

theorem get?_eq_none_iff {m : StepMap} {n : String} : m.get? n = none ↔ n ∉ m.names := by
  rw [mem_names_iff, Option.eq_none_iff_forall_ne_some, not_exists]

theorem mem_of_get? {m : StepMap} {n : String} {r : StepRecord} (h : m.get? n = some r) :
    (n, r) ∈ m := by
  induction m with
  | nil => simp at h
  | cons e m ih =>
    obtain ⟨k, r'⟩ := e
    rw [get?_cons] at h
    split_ifs at h with hk
    · cases h; subst hk; exact List.mem_cons_self
    · exact List.mem_cons_of_mem _ (ih h)

theorem get?_of_mem {m : StepMap} (hm : m.names.Nodup) {n : String} {r : StepRecord}
    (h : (n, r) ∈ m) : m.get? n = some r := by
  induction m with
  | nil => simp at h
  | cons e m ih =>
    obtain ⟨k, r'⟩ := e
    obtain ⟨hk, hm⟩ := List.nodup_cons.mp hm
    rw [get?_cons]
    rcases List.mem_cons.mp h with h | h
    · cases h; simp
    · have : k ≠ n := by
        rintro rfl
        exact hk (List.mem_map.mpr ⟨(k, r), h, rfl⟩)
      rw [if_neg this, ih hm h]

theorem get?_append (m m' : StepMap) (n : String) :
    (m ++ m').get? n = (m.get? n).or (m'.get? n) := by
  induction m with
  | nil => rfl
  | cons e m ih =>
    obtain ⟨k, r⟩ := e
    rw [List.cons_append, get?_cons, get?_cons]
    split_ifs
    · rfl
    · exact ih

/-! ## Insertion -/

theorem get?_insert (m : StepMap) (k : String) (r : StepRecord) (n : String) :
    (m.insert k r).get? n = if k = n then some r else m.get? n := by
  induction m with
  | nil => rw [insert, get?_cons]
  | cons e m ih =>
    obtain ⟨l, old⟩ := e
    rw [insert]
    by_cases h : l = k
    · subst h
      rw [if_pos rfl, get?_cons, get?_cons]
      split_ifs <;> rfl
    · rw [if_neg h, get?_cons, get?_cons, ih]
      by_cases hl : l = n
      · rw [if_pos hl, if_pos hl, if_neg (by rintro rfl; exact h hl)]
      · rw [if_neg hl, if_neg hl]

theorem get?_insert_self (m : StepMap) (k : String) (r : StepRecord) :
    (m.insert k r).get? k = some r := by rw [get?_insert, if_pos rfl]

theorem get?_insert_of_ne (m : StepMap) {k n : String} (r : StepRecord) (h : k ≠ n) :
    (m.insert k r).get? n = m.get? n := by rw [get?_insert, if_neg h]

theorem mem_names_insert {m : StepMap} {k n : String} {r : StepRecord} :
    n ∈ (m.insert k r).names ↔ n = k ∨ n ∈ m.names := by
  rw [mem_names_iff, mem_names_iff, get?_insert]
  by_cases h : k = n
  · simp [h]
  · simp [h, Ne.symm h]

theorem nodup_insert {m : StepMap} (hm : m.names.Nodup) (k : String) (r : StepRecord) :
    (m.insert k r).names.Nodup := by
  induction m with
  | nil => simp [insert, names]
  | cons e m ih =>
    obtain ⟨l, old⟩ := e
    obtain ⟨hl, hm⟩ := List.nodup_cons.mp hm
    rw [insert]
    by_cases h : l = k
    · subst h; rw [if_pos rfl]; exact List.nodup_cons.mpr ⟨hl, hm⟩
    · rw [if_neg h]
      refine List.nodup_cons.mpr ⟨fun hn => ?_, ih hm⟩
      rcases mem_names_insert.mp hn with rfl | hn
      · exact h rfl
      · exact hl hn

theorem insert_append {m : StepMap} {k : String} (r : StepRecord) (h : m.get? k = none)
    (m' : StepMap) : (m ++ m').insert k r = m ++ m'.insert k r := by
  induction m with
  | nil => rfl
  | cons e m ih =>
    obtain ⟨l, old⟩ := e
    rw [get?_cons] at h
    split_ifs at h with hl
    rw [List.cons_append, insert, if_neg hl, ih h, List.cons_append]

theorem insert_of_none {m : StepMap} {k : String} (r : StepRecord) (h : m.get? k = none) :
    m.insert k r = m ++ [(k, r)] := by
  have := insert_append r h []
  rwa [List.append_nil] at this

theorem names_insert_of_none {m : StepMap} {k : String} (r : StepRecord) (h : m.get? k = none) :
    (m.insert k r).names = m.names ++ [k] := by
  rw [insert_of_none r h, names, List.map_append]
  rfl

/-- A record that takes the place of another one stands where that did. -/
theorem names_insert_of_mem {m : StepMap} {k : String} (r : StepRecord) (h : k ∈ m.names) :
    (m.insert k r).names = m.names := by
  induction m with
  | nil => cases h
  | cons e m ih =>
    obtain ⟨l, old⟩ := e
    rw [insert]
    by_cases hl : l = k
    · rw [if_pos hl]
      rfl
    · rw [if_neg hl]
      exact congrArg (l :: ·) (ih ((List.mem_cons.mp h).resolve_left (Ne.symm hl)))

/-! ## Editing -/

theorem edit_cons (f : String → StepRecord → Option StepRecord) (n : String) (r : StepRecord)
    (m : StepMap) :
    edit f ((n, r) :: m) = ((f n r).map fun r => (n, r)).toList ++ m.edit f := by
  rw [edit, List.filterMap_cons]
  cases f n r <;> rfl

theorem edit_congr {f g : String → StepRecord → Option StepRecord} {m : StepMap}
    (h : ∀ n r, (n, r) ∈ m → f n r = g n r) : m.edit f = m.edit g :=
  List.filterMap_congr fun s hs => by rw [h s.1 s.2 hs]

theorem edit_some (m : StepMap) : (m.edit fun _ r => some r) = m := by
  simp [edit]

theorem edit_edit (f g : String → StepRecord → Option StepRecord) (m : StepMap) :
    (m.edit f).edit g = m.edit fun n r => (f n r).bind (g n) := by
  rw [edit, edit, List.filterMap_filterMap]
  refine List.filterMap_congr fun s _ => ?_
  dsimp only
  cases f s.1 s.2 <;> rfl

theorem names_edit_sublist (f : String → StepRecord → Option StepRecord) (m : StepMap) :
    (m.edit f).names.Sublist m.names := by
  induction m with
  | nil => exact .refl _
  | cons e m ih =>
    obtain ⟨n, r⟩ := e
    rw [edit_cons]
    cases f n r with
    | none => exact ih.cons n
    | some r' => exact ih.cons_cons n

theorem get?_edit (f : String → StepRecord → Option StepRecord) {m : StepMap} (hm : m.names.Nodup)
    (n : String) : (m.edit f).get? n = (m.get? n).bind (f n) := by
  induction m with
  | nil => rfl
  | cons e m ih =>
    obtain ⟨k, r⟩ := e
    obtain ⟨hk, hm⟩ := List.nodup_cons.mp hm
    rw [edit_cons, get?_append, ih hm, get?_cons]
    by_cases h : k = n
    · subst h
      rw [if_pos rfl, get?_eq_none_iff.mpr hk, Option.bind_none, Option.or_none, Option.bind_some]
      cases f k r <;> simp [get?_cons]
    · rw [if_neg h]
      cases f k r <;> simp [get?_cons, h]

end StepMap

/-! ## Withdrawing pauses

The paused steps are gone through one by one, but every record is changed once. -/

namespace StepRecord

/-- What is left of a record when its pause and those of its iterations are withdrawn. -/
def withoutPause (r : StepRecord) : Option StepRecord := r.withoutPauseBy StepMap.withdrawPauses

theorem withoutPauseBy_of_status_ne {r : StepRecord} (change : StepMap → StepMap)
    (h : r.status ≠ .paused) : r.withoutPauseBy change = some r := by
  cases r with
  | loop s item index its => exact if_neg h
  | _ => exact if_neg h

theorem withoutPause_of_status_ne {r : StepRecord} (h : r.status ≠ .paused) :
    r.withoutPause = some r := withoutPauseBy_of_status_ne _ h

theorem withoutPause_loop {s : Summary} (h : s.status = .paused) (item : Json) (index : Nat)
    (its : List StepMap) : (loop s item index its).withoutPause =
      some (loop { s with status := .running } item index (its.map StepMap.withdrawPauses)) :=
  if_pos h

/-- A paused record is removed, if it is not that of a loop. -/
theorem withoutPause_eq_none {r : StepRecord} (h : r.status = .paused) (hr : r.iterations? = none) :
    r.withoutPause = none := by
  cases r with
  | loop => cases hr
  | _ => exact if_pos h

/-- A record whose pause was withdrawn is not paused. -/
theorem status_ne_of_withoutPauseBy {change : StepMap → StepMap} {r r' : StepRecord}
    (h : r.withoutPauseBy change = some r') : r'.status ≠ .paused := by
  by_cases hs : r.status = .paused
  · cases r with
    | loop s item index its =>
      cases (if_pos hs).symm.trans h
      exact StepStatus.noConfusion
    | _ => cases (if_pos hs).symm.trans h
  · cases (withoutPauseBy_of_status_ne change hs).symm.trans h
    exact hs

theorem withoutPauseBy_congr {change change' : StepMap → StepMap} {r : StepRecord}
    (h : ∀ its k, r.iterations? = some its → k ∈ its → change k = change' k) :
    r.withoutPauseBy change = r.withoutPauseBy change' := by
  cases r with
  | loop s item index its =>
    simp only [withoutPauseBy, List.map_congr_left fun k hk => h its k rfl hk]
  | _ => rfl

theorem nestingIn_le_nestingAll {its : List StepMap} {k : StepMap} (hk : k ∈ its) :
    nestingIn k ≤ nestingAll its := by
  induction its with
  | nil => cases hk
  | cons k' its ih =>
    rw [nestingAll]
    rcases List.mem_cons.mp hk with rfl | hk
    · exact Nat.le_max_left _ _
    · exact Nat.le_trans (ih hk) (Nat.le_max_right _ _)

theorem nesting_le_nestingIn {m : StepMap} {s : String × StepRecord} (hs : s ∈ m) :
    s.2.nesting ≤ nestingIn m := by
  induction m with
  | nil => cases hs
  | cons e m ih =>
    rw [nestingIn]
    rcases List.mem_cons.mp hs with rfl | hs
    · exact Nat.le_max_left _ _
    · exact Nat.le_trans (ih hs) (Nat.le_max_right _ _)

/-- An iteration of a loop is less nested than the map that the loop is in. -/
theorem nestingIn_lt {m : StepMap} {s : String × StepRecord} (hs : s ∈ m) {its : List StepMap}
    (hits : s.2.iterations? = some its) {k : StepMap} (hk : k ∈ its) :
    nestingIn k < nestingIn m := by
  obtain ⟨name, r⟩ := s
  cases r with
  | loop summary item index its' =>
    cases hits
    have h : nestingAll its + 1 ≤ nestingIn m := nesting_le_nestingIn hs
    exact Nat.lt_of_lt_of_le (Nat.lt_succ_of_le (nestingIn_le_nestingAll hk)) h
  | _ => cases hits

end StepRecord

namespace StepMap

/-- Going through names changes their records once. -/
theorem foldl_withdrawPauseBy (change : StepMap → StepMap) (m : StepMap) (xs : List String) :
    xs.foldl (withdrawPauseBy change) m =
      m.edit fun n r => if n ∈ xs then r.withoutPauseBy change else some r := by
  induction xs generalizing m with
  | nil => simpa using (edit_some m).symm
  | cons x xs ih =>
    rw [List.foldl_cons, ih, withdrawPauseBy, edit_edit]
    refine edit_congr fun n r _ => ?_
    by_cases hx : n = x
    · rw [if_pos hx, if_pos (List.mem_cons.mpr (.inl hx))]
      cases hr : r.withoutPauseBy change with
      | none => rfl
      | some r' =>
        rw [Option.bind_some, StepRecord.withoutPauseBy_of_status_ne change
          (StepRecord.status_ne_of_withoutPauseBy hr), ite_self]
    · rw [if_neg hx, Option.bind_some]
      simp [hx]

theorem mem_withStatus {status : StepStatus} {m : StepMap} {n : String} :
    n ∈ m.withStatus status ↔ ∃ r, (n, r) ∈ m ∧ r.status = status := by
  simp [withStatus]

/-- Going through all names with a pause leaves what the withdrawal leaves of every record. -/
theorem foldl_withdrawPauseBy_of_subset (change : StepMap → StepMap) {m : StepMap}
    {xs : List String} (h : m.withStatus .paused ⊆ xs) :
    xs.foldl (withdrawPauseBy change) m = m.edit fun _ r => r.withoutPauseBy change := by
  rw [foldl_withdrawPauseBy]
  refine edit_congr fun n r hr => ?_
  split_ifs with hx
  · rfl
  · have hne : r.status ≠ .paused := fun hp => hx (h (mem_withStatus.mpr ⟨r, hr, hp⟩))
    rw [StepRecord.withoutPauseBy_of_status_ne change hne]

theorem withdrawPausesWithin_succ (depth : Nat) (m : StepMap) :
    withdrawPausesWithin (depth + 1) m =
      m.edit fun _ r => r.withoutPauseBy (withdrawPausesWithin depth) :=
  foldl_withdrawPauseBy_of_subset _ (List.Subset.refl _)

/-- Any depth will do that exceeds the nesting. -/
theorem withdrawPausesWithin_eq {depth depth' : Nat} {m : StepMap}
    (h : StepRecord.nestingIn m < depth) (h' : StepRecord.nestingIn m < depth') :
    withdrawPausesWithin depth m = withdrawPausesWithin depth' m := by
  induction depth generalizing depth' m with
  | zero => cases h
  | succ depth ih =>
    cases depth' with
    | zero => cases h'
    | succ depth' =>
      rw [withdrawPausesWithin_succ, withdrawPausesWithin_succ]
      refine edit_congr fun n r hr => StepRecord.withoutPauseBy_congr fun its k hits hk => ?_
      have hk := StepRecord.nestingIn_lt hr hits hk
      exact ih (by omega) (by omega)

theorem withdrawPauses_eq (m : StepMap) : m.withdrawPauses = m.edit fun _ r => r.withoutPause := by
  rw [withdrawPauses, withdrawPausesWithin_succ]
  refine edit_congr fun n r hr => StepRecord.withoutPauseBy_congr fun its k hits hk => ?_
  exact withdrawPausesWithin_eq (StepRecord.nestingIn_lt hr hits hk) (Nat.lt_succ_self _)

theorem withdrawPause_eq (m : StepMap) (x : String) :
    m.withdrawPause x = m.edit fun n r => if n = x then r.withoutPause else some r := rfl

/-- Going through all names with a pause withdraws all pauses. -/
theorem foldl_withdrawPause {m : StepMap} {xs : List String} (h : m.withStatus .paused ⊆ xs) :
    xs.foldl withdrawPause m = m.withdrawPauses :=
  (foldl_withdrawPauseBy_of_subset _ h).trans (withdrawPauses_eq m).symm

theorem withdrawPauses_cons (n : String) (r : StepRecord) (m : StepMap) :
    withdrawPauses ((n, r) :: m) =
      (r.withoutPause.map fun r => (n, r)).toList ++ m.withdrawPauses := by
  rw [withdrawPauses_eq, edit_cons, withdrawPauses_eq]

theorem names_withdrawPauses_subset (m : StepMap) :
    ∀ n ∈ m.withdrawPauses.names, n ∈ m.names := by
  rw [withdrawPauses_eq]
  exact (names_edit_sublist _ m).subset

theorem nodup_withdrawPauses {m : StepMap} (hm : m.names.Nodup) : m.withdrawPauses.names.Nodup := by
  rw [withdrawPauses_eq]
  exact hm.sublist (names_edit_sublist _ m)

theorem get?_withdrawPauses {m : StepMap} (hm : m.names.Nodup) (n : String) :
    m.withdrawPauses.get? n = (m.get? n).bind StepRecord.withoutPause := by
  rw [withdrawPauses_eq]
  exact get?_edit _ hm n

theorem names_withdrawPause_sublist (m : StepMap) (x : String) :
    (m.withdrawPause x).names.Sublist m.names := by
  rw [withdrawPause_eq]
  exact names_edit_sublist _ m

theorem names_foldl_withdrawPause_sublist (m : StepMap) (xs : List String) :
    (xs.foldl withdrawPause m).names.Sublist m.names := by
  induction xs generalizing m with
  | nil => exact .refl _
  | cons x xs ih => exact (ih _).trans (names_withdrawPause_sublist m x)

theorem nodup_foldl_withdrawPause {m : StepMap} (hm : m.names.Nodup) (xs : List String) :
    (xs.foldl withdrawPause m).names.Nodup := hm.sublist (names_foldl_withdrawPause_sublist m xs)

theorem get?_foldl_withdrawPause {m : StepMap} (hm : m.names.Nodup) (xs : List String)
    (n : String) :
    (xs.foldl withdrawPause m).get? n =
      if n ∈ xs then (m.get? n).bind StepRecord.withoutPause else m.get? n := by
  have h : xs.foldl withdrawPause m = m.edit _ := foldl_withdrawPauseBy _ m xs
  rw [h, get?_edit _ hm]
  split_ifs
  · rfl
  · cases m.get? n <;> rfl

/-- A pause is withdrawn once. -/
theorem bind_withoutPause (r : Option StepRecord) :
    (r.bind StepRecord.withoutPause).bind StepRecord.withoutPause =
      r.bind StepRecord.withoutPause := by
  cases h : r.bind StepRecord.withoutPause with
  | none => rfl
  | some r' =>
    obtain ⟨r₀, -, hr⟩ := Option.bind_eq_some_iff.mp h
    exact StepRecord.withoutPauseBy_of_status_ne _ (StepRecord.status_ne_of_withoutPauseBy hr)

/-! ## Merging -/

theorem nodup_insertAll {m : StepMap} (hm : m.names.Nodup) (new : StepMap) :
    (m.insertAll new).names.Nodup := by
  unfold insertAll
  induction new generalizing m with
  | nil => exact hm
  | cons e new ih => exact ih (nodup_insert hm e.1 e.2)

theorem get?_insertAll (m : StepMap) {new : StepMap} (hn : new.names.Nodup) (n : String) :
    (m.insertAll new).get? n = (new.get? n).or (m.get? n) := by
  unfold insertAll
  induction new generalizing m with
  | nil => rfl
  | cons e new ih =>
    obtain ⟨k, r⟩ := e
    obtain ⟨hk, hn⟩ := List.nodup_cons.mp hn
    rw [List.foldl_cons, ih _ hn, get?_insert, get?_cons]
    by_cases h : k = n
    · subst h
      rw [if_pos rfl, if_pos rfl, get?_eq_none_iff.mpr hk]
      rfl
    · rw [if_neg h, if_neg h]

/-- Records of new names stand after the others, in their order. -/
theorem names_insertAll (m : StepMap) {new : StepMap} (hn : new.names.Nodup) :
    (m.insertAll new).names = m.names ++ new.names.filter fun n => n ∉ m.names := by
  unfold insertAll
  induction new generalizing m with
  | nil => exact (List.append_nil _).symm
  | cons e new ih =>
    obtain ⟨k, r⟩ := e
    obtain ⟨hk, hn⟩ := List.nodup_cons.mp hn
    rw [List.foldl_cons, ih _ hn]
    change _ = m.names ++ (k :: names new).filter _
    by_cases hmem : k ∈ m.names
    · rw [names_insert_of_mem r hmem, List.filter_cons_of_neg (by simpa using hmem)]
    · have hins := names_insert_of_none r (get?_eq_none_iff.mpr hmem)
      -- the name itself does not come again
      have hrest : (names new).filter (fun n => n ∉ (m.insert k r).names) =
          (names new).filter fun n => n ∉ m.names := by
        refine List.filter_congr fun n hmem' => ?_
        have hne : n ≠ k := by rintro rfl; exact hk hmem'
        simp [hins, hne]
      rw [hrest, hins, List.filter_cons_of_pos (by simpa using hmem), List.append_assoc]
      rfl

theorem nodup_filter {m : StepMap} (hm : m.names.Nodup) (p : String × StepRecord → Bool) :
    names (m.filter p) |>.Nodup :=
  hm.sublist (List.filter_sublist.map Prod.fst)

theorem get?_filter {m : StepMap} (hm : m.names.Nodup) (p : String × StepRecord → Bool)
    (n : String) : get? (m.filter p) n = (m.get? n).filter fun r => p (n, r) := by
  induction m with
  | nil => rfl
  | cons e m ih =>
    obtain ⟨k, r⟩ := e
    obtain ⟨hk, hm⟩ := List.nodup_cons.mp hm
    rw [List.filter_cons, get?_cons]
    by_cases h : k = n
    · subst h
      rw [if_pos rfl, Option.filter_some]
      split_ifs with hp
      · rw [get?_cons, if_pos rfl]
      · rw [ih hm, get?_eq_none_iff.mpr hk, Option.filter_none]
    · rw [if_neg h, ← ih hm]
      split_ifs
      · rw [get?_cons, if_neg h]
      · rfl

end StepMap

end FlowEngine.Run

namespace FlowEngine.Engine

open FlowEngine.Run

theorem nodup_mergeSteps {base merged branch : StepMap} (hm : merged.names.Nodup) :
    (mergeSteps base merged branch).names.Nodup :=
  StepMap.nodup_insertAll hm _

/-- What a branch did not change stays as it was merged before. -/
theorem get?_mergeSteps (base merged : StepMap) {branch : StepMap} (hb : branch.names.Nodup)
    (n : String) :
    (mergeSteps base merged branch).get? n =
      if branch.get? n = base.get? n then merged.get? n
      else (branch.get? n).or (merged.get? n) := by
  change (merged.insertAll (branch.filter fun r => base.get? r.1 ≠ some r.2)).get? n = _
  rw [StepMap.get?_insertAll _ (StepMap.nodup_filter hb _), StepMap.get?_filter hb]
  cases hr : branch.get? n with
  | none => simp
  | some r =>
    by_cases h : base.get? n = some r
    · simp [h, Option.filter_some]
    · simp [h, Ne.symm h, Option.filter_some]

end FlowEngine.Engine
