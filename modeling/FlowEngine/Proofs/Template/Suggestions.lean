import FlowEngine.Template.Error
import Mathlib.Data.List.Forall2
import Mathlib.Order.Bounds.Basic
import Mathlib.Order.MinMax

/-!
# Suggested names

An edit inserts, deletes or substitutes one character of a text. The distance of two texts is the
least number of edits that lead from one to the other.

* `Edit`, `Edits` — one edit, and several.
* `Aligned` — edits done from left to right, with the characters that are kept in between.
* `levenshtein` — the distance by recursion on the texts; `editDistance_eq` — the rows compute it.
* `editDistance_isLeast` — no fewer edits lead from one text to the other.
* `suggest_nearest` — the name that is suggested is the nearest one.
-/

namespace FlowEngine.Template

/-! ## Edits -/

/-- One character is inserted, deleted or substituted. -/
inductive Edit : List Char → List Char → Prop
  | insertion (before after : List Char) (c : Char) : Edit (before ++ after) (before ++ c :: after)
  | deletion (before after : List Char) (c : Char) : Edit (before ++ c :: after) (before ++ after)
  | substitution (before after : List Char) (c d : Char) :
    Edit (before ++ c :: after) (before ++ d :: after)

/-- One text becomes another one by so many edits, one after the other. -/
inductive Edits : Nat → List Char → List Char → Prop
  | refl (s : List Char) : Edits 0 s s
  | step {n : Nat} {s t u : List Char} (first : Edit s t) (rest : Edits n t u) : Edits (n + 1) s u

/-- The number of edits that lead from one text to another one, character by character from left to
right. -/
inductive Aligned : Nat → List Char → List Char → Prop
  | nil : Aligned 0 [] []
  | keep {n : Nat} {s t : List Char} (c : Char) (h : Aligned n s t) : Aligned n (c :: s) (c :: t)
  | substitute {n : Nat} {s t : List Char} (c d : Char) (h : Aligned n s t) :
    Aligned (n + 1) (c :: s) (d :: t)
  | insert {n : Nat} {s t : List Char} (d : Char) (h : Aligned n s t) : Aligned (n + 1) s (d :: t)
  | delete {n : Nat} {s t : List Char} (c : Char) (h : Aligned n s t) : Aligned (n + 1) (c :: s) t

variable {n : Nat} {s t : List Char}

theorem Edit.cons (c : Char) (h : Edit s t) : Edit (c :: s) (c :: t) := by
  cases h with
  | insertion before after d => exact .insertion (c :: before) after d
  | deletion before after d => exact .deletion (c :: before) after d
  | substitution before after d e => exact .substitution (c :: before) after d e

theorem Edit.reverse (h : Edit s t) : Edit s.reverse t.reverse := by
  cases h with
  | insertion before after c => simpa using Edit.insertion after.reverse before.reverse c
  | deletion before after c => simpa using Edit.deletion after.reverse before.reverse c
  | substitution before after c d =>
    simpa using Edit.substitution after.reverse before.reverse c d

theorem Edits.cons (c : Char) (h : Edits n s t) : Edits n (c :: s) (c :: t) := by
  induction h with
  | refl s => exact .refl _
  | step first _ ih => exact .step (first.cons c) ih

theorem Edits.reverse (h : Edits n s t) : Edits n s.reverse t.reverse := by
  induction h with
  | refl s => exact .refl _
  | step first _ ih => exact .step first.reverse ih

theorem edits_reverse_iff : Edits n s.reverse t.reverse ↔ Edits n s t :=
  ⟨fun h => by simpa using h.reverse, Edits.reverse⟩

/-! ## Edits from left to right -/

namespace Aligned

theorem refl : ∀ s : List Char, Aligned 0 s s
  | [] => .nil
  | c :: s => .keep c (refl s)

theorem edits (h : Aligned n s t) : Edits n s t := by
  induction h with
  | nil => exact .refl []
  | keep c _ ih => exact ih.cons c
  | @substitute n s t c d _ ih => exact .step (.substitution [] s c d) (ih.cons d)
  | @insert n s t d _ ih => exact .step (.insertion [] s d) (ih.cons d)
  | @delete n s t c _ ih => exact .step (.deletion [] s c) ih

/-- Without the first character there is at most one edit more: where it was kept, it is now
inserted. -/
theorem tail {c : Char} (h : Aligned n (c :: s) t) : ∃ m ≤ n + 1, Aligned m s t := by
  generalize hs : c :: s = s' at h
  induction h with
  | nil => cases hs
  | keep d h => cases hs; exact ⟨_, le_refl _, .insert c h⟩
  | substitute _ d h => cases hs; exact ⟨_, Nat.le_succ _, .insert d h⟩
  | insert d _ ih =>
    obtain ⟨m, hm, h⟩ := ih hs
    exact ⟨m + 1, by omega, .insert d h⟩
  | delete _ h => cases hs; exact ⟨_, by omega, h⟩

/-- With another first character there is at most one edit more. -/
theorem replace {c : Char} (d : Char) (h : Aligned n (c :: s) t) :
    ∃ m ≤ n + 1, Aligned m (d :: s) t := by
  generalize hs : c :: s = s' at h
  induction h with
  | nil => cases hs
  | keep e h => cases hs; exact ⟨_, le_refl _, .substitute d c h⟩
  | substitute _ e h => cases hs; exact ⟨_, Nat.le_succ _, .substitute d e h⟩
  | insert e _ ih =>
    obtain ⟨m, hm, h⟩ := ih hs
    exact ⟨m + 1, by omega, .insert e h⟩
  | delete _ h => cases hs; exact ⟨_, Nat.le_succ _, .delete d h⟩

/-- What follows a character stays aligned, where it is replaced by something that takes at most one
edit more. -/
theorem after {c : Char} {s' : List Char} (h : Aligned n (c :: s) t)
    (hs : ∀ n t, Aligned n s t → ∃ m ≤ n + 1, Aligned m s' t) :
    ∃ m ≤ n + 1, Aligned m (c :: s') t := by
  generalize hc : c :: s = r at h
  induction h with
  | nil => cases hc
  | keep d h =>
    cases hc
    obtain ⟨m, hm, h⟩ := hs _ _ h
    exact ⟨m, hm, .keep c h⟩
  | substitute _ e h =>
    cases hc
    obtain ⟨m, hm, h⟩ := hs _ _ h
    exact ⟨m + 1, by omega, .substitute c e h⟩
  | insert e _ ih =>
    obtain ⟨m, hm, h⟩ := ih hc
    exact ⟨m + 1, by omega, .insert e h⟩
  | delete _ h =>
    cases hc
    obtain ⟨m, hm, h⟩ := hs _ _ h
    exact ⟨m + 1, by omega, .delete c h⟩

/-- An edit before the others. -/
theorem edit (he : Edit s t) : ∀ n u, Aligned n t u → ∃ m ≤ n + 1, Aligned m s u := by
  cases he with
  | insertion before after c =>
    induction before with
    | nil => exact fun n u h => h.tail
    | cons b before ih => exact fun n u h => h.after ih
  | deletion before after c =>
    induction before with
    | nil => exact fun n u h => ⟨n + 1, le_refl _, .delete c h⟩
    | cons b before ih => exact fun n u h => h.after ih
  | substitution before after c d =>
    induction before with
    | nil => exact fun n u h => h.replace c
    | cons b before ih => exact fun n u h => h.after ih

end Aligned

theorem Edits.aligned (h : Edits n s t) : ∃ m ≤ n, Aligned m s t := by
  induction h with
  | refl s => exact ⟨0, le_refl 0, .refl s⟩
  | step first _ ih =>
    obtain ⟨m, hm, h⟩ := ih
    obtain ⟨k, hk, h⟩ := Aligned.edit first m _ h
    exact ⟨k, by omega, h⟩

/-! ## The distance by recursion -/

/-- The distance of two texts: if both have a first character, these are taken for one another, or
the one of the second text is inserted, or that of the first one deleted. -/
def levenshtein : List Char → List Char → Nat
  | [], t => t.length
  | _ :: s, [] => s.length + 1
  | c :: s, d :: t =>
    min (min (levenshtein s t + if c = d then 0 else 1) (levenshtein (c :: s) t + 1))
      (levenshtein s (d :: t) + 1)
termination_by s t => s.length + t.length

theorem levenshtein_nil_right (s : List Char) : levenshtein s [] = s.length := by
  cases s <;> simp [levenshtein]

theorem Aligned.levenshtein_le (h : Aligned n s t) : levenshtein s t ≤ n := by
  induction h with
  | nil => simp [levenshtein]
  | keep c _ ih => rw [levenshtein]; simp; omega
  | substitute c d _ ih => rw [levenshtein]; split_ifs <;> omega
  | @insert n s t d _ ih =>
    cases s with
    | nil => simp only [levenshtein, List.length_cons] at ih ⊢; omega
    | cons c s => rw [levenshtein]; omega
  | @delete n s t c _ ih =>
    cases t with
    | nil => rw [levenshtein_nil_right] at ih ⊢; simpa using ih
    | cons d t => rw [levenshtein]; omega

theorem aligned_nil_left : ∀ t : List Char, Aligned t.length [] t
  | [] => .nil
  | d :: t => .insert d (aligned_nil_left t)

theorem aligned_nil_right : ∀ s : List Char, Aligned s.length s []
  | [] => .nil
  | c :: s => .delete c (aligned_nil_right s)

theorem aligned_levenshtein (s t : List Char) : Aligned (levenshtein s t) s t := by
  fun_induction levenshtein s t with
  | case1 t => exact aligned_nil_left t
  | case2 c s => exact aligned_nil_right (c :: s)
  | case3 c s d t hsub hins hdel =>
    rcases min_choice (min (levenshtein s t + if c = d then 0 else 1) (levenshtein (c :: s) t + 1))
      (levenshtein s (d :: t) + 1) with h | h
    · rw [h]
      rcases min_choice (levenshtein s t + if c = d then 0 else 1) (levenshtein (c :: s) t + 1)
        with h | h
      · rw [h]
        split_ifs with hcd
        · subst hcd
          exact .keep c hsub
        · exact .substitute c d hsub
      · rw [h]
        exact .insert d hins
    · rw [h]
      exact .delete c hdel

theorem levenshtein_isLeast (s t : List Char) : IsLeast {n | Edits n s t} (levenshtein s t) := by
  refine ⟨(aligned_levenshtein s t).edits, fun n h => ?_⟩
  obtain ⟨m, hm, h⟩ := h.aligned
  exact h.levenshtein_le.trans hm

/-! ## The distance by rows

The texts are read from their ends here, since a row is about the beginning that was read so far. -/

/-- The distances of one text to the ends of another one, from `q` on. -/
def distancesFrom (p : List Char) : (q rest : List Char) → List Nat
  | _, [] => []
  | q, d :: rest => levenshtein p (d :: q) :: distancesFrom p (d :: q) rest

theorem rowFrom_distancesFrom (c : Char) (p : List Char) : ∀ rest q : List Char,
    rowFrom c (levenshtein (c :: p) q) (levenshtein p q) rest (distancesFrom p q rest) =
      distancesFrom (c :: p) q rest
  | [], _ => rfl
  | d :: rest, q => by
    have entry : min (min (levenshtein p q + if c = d then 0 else 1) (levenshtein (c :: p) q + 1))
        (levenshtein p (d :: q) + 1) = levenshtein (c :: p) (d :: q) := by rw [levenshtein]
    simp only [distancesFrom, rowFrom, entry, rowFrom_distancesFrom c p rest (d :: q)]

/-- A whole row. -/
def distances (target p : List Char) : List Nat :=
  levenshtein p [] :: distancesFrom p [] target

theorem nextRow_distances (target p : List Char) (c : Char) :
    nextRow target (distances target p) c = distances target (c :: p) := by
  have first : levenshtein p [] + 1 = levenshtein (c :: p) [] := by
    simp [levenshtein_nil_right]
  simp only [nextRow, distances, first, rowFrom_distancesFrom]

theorem distancesFrom_nil : ∀ rest q : List Char,
    distancesFrom [] q rest = List.range' (q.length + 1) rest.length
  | [], _ => rfl
  | d :: rest, q => by
    rw [distancesFrom, distancesFrom_nil rest (d :: q), List.length_cons, List.length_cons,
      List.range'_succ, levenshtein, List.length_cons]

theorem range_eq_distances (target : List Char) :
    List.range (target.length + 1) = distances target [] := by
  rw [distances, distancesFrom_nil, List.range_eq_range', List.range'_succ, levenshtein]
  rfl

theorem foldl_nextRow (target source p : List Char) :
    source.foldl (nextRow target) (distances target p) =
      distances target (source.reverse ++ p) := by
  induction source generalizing p with
  | nil => rfl
  | cons c source ih => simp [nextRow_distances, ih]

theorem getLast?_distancesFrom (p : List Char) : ∀ rest q : List Char,
    (levenshtein p q :: distancesFrom p q rest).getLast? = some (levenshtein p (rest.reverse ++ q))
  | [], _ => rfl
  | d :: rest, q => by
    rw [distancesFrom, List.getLast?_cons_cons, getLast?_distancesFrom p rest (d :: q)]
    simp

theorem editDistance_eq (source target : List Char) :
    editDistance source target = levenshtein source.reverse target.reverse := by
  rw [editDistance, range_eq_distances, foldl_nextRow, distances, getLast?_distancesFrom]
  simp

/-- No fewer edits lead from one text to the other. -/
theorem editDistance_isLeast (source target : List Char) :
    IsLeast {n | Edits n source target} (editDistance source target) := by
  have h := levenshtein_isLeast source.reverse target.reverse
  simpa only [editDistance_eq, edits_reverse_iff] using h

/-! ## The nearest name -/

theorem nearest?_eq_none {xs : List (Nat × String)} : nearest? xs = none ↔ xs = [] := by
  cases xs with
  | nil => simp [nearest?]
  | cons x rest => simp only [nearest?]; grind

/-- What `nearest?` finds is nearer than all names before it and no farther than those after it. -/
theorem nearest?_eq_some {xs : List (Nat × String)} {x : Nat × String} :
    nearest? xs = some x ↔ ∃ before after, xs = before ++ x :: after ∧
      (∀ y ∈ before, x.1 < y.1) ∧ ∀ y ∈ after, x.1 ≤ y.1 := by
  induction xs generalizing x with
  | nil => simp [nearest?]
  | cons z rest ih =>
    constructor
    · intro h
      cases hrest : nearest? rest with
      | none =>
        rw [nearest?_eq_none] at hrest
        subst hrest
        cases h
        exact ⟨[], [], rfl, by simp, by simp⟩
      | some y =>
        obtain ⟨before, after, rfl, hbefore, hafter⟩ := ih.mp hrest
        simp only [nearest?, hrest] at h
        split_ifs at h with hzy <;> cases h
        · refine ⟨[], before ++ y :: after, rfl, by simp, fun w hw => ?_⟩
          rcases List.mem_append.mp hw with hw | hw
          · exact hzy.trans (hbefore w hw).le
          · rcases List.mem_cons.mp hw with rfl | hw
            · exact hzy
            · exact hzy.trans (hafter w hw)
        · refine ⟨z :: before, after, rfl, ?_, hafter⟩
          exact List.forall_mem_cons.mpr ⟨Nat.not_le.mp hzy, hbefore⟩
    · rintro ⟨before, after, hsplit, hbefore, hafter⟩
      cases before with
      | nil =>
        obtain ⟨rfl, rfl⟩ := List.cons.inj hsplit
        cases hrest : nearest? rest with
        | none => simp only [nearest?, hrest]
        | some y =>
          obtain ⟨b, a, hba, -⟩ := ih.mp hrest
          have hy : z.1 ≤ y.1 := hafter y (by simp [hba])
          simp only [nearest?, hrest, if_pos hy]
      | cons b before =>
        obtain ⟨rfl, hrest⟩ := List.cons.inj hsplit
        have hx : nearest? rest = some x :=
          ih.mpr ⟨before, after, hrest, fun y hy => hbefore y (by simp [hy]), hafter⟩
        have hz : ¬z.1 ≤ x.1 := Nat.not_le.mpr (hbefore z (by simp))
        simp only [nearest?, hx, if_neg hz]

/-- The cut-off may as well come after the choice. -/
theorem nearest?_filter (limit : Nat) (xs : List (Nat × String)) :
    nearest? (xs.filter fun x => x.1 ≤ limit) = (nearest? xs).filter fun x => x.1 ≤ limit := by
  induction xs with
  | nil => rfl
  | cons x rest ih =>
    cases hrest : nearest? rest with
    | none =>
      rw [nearest?_eq_none.mp hrest]
      by_cases hx : x.1 ≤ limit <;> simp [nearest?, Option.filter, hx]
    | some y =>
      rw [hrest] at ih
      by_cases hx : x.1 ≤ limit <;> by_cases hy : y.1 ≤ limit <;>
        simp [nearest?, Option.filter, hrest, ih, hx, hy] <;> grind

/-! ## The same letters -/

/-- The same character, or the same one of the letters `A` to `Z` in upper and lower case. -/
def SameLetter (c d : Char) : Prop :=
  c = d ∨ c.isUpper ∧ d.toNat = c.toNat + 32 ∨ d.isUpper ∧ c.toNat = d.toNat + 32

/-- The texts agree up to the case of the letters `A` to `Z`. -/
def SameLetters (s t : String) : Prop := List.Forall₂ SameLetter s.toList t.toList

theorem isUpper_iff (c : Char) : c.isUpper = true ↔ 65 ≤ c.toNat ∧ c.toNat ≤ 90 :=
  decide_eq_true_iff.trans (and_congr UInt32.le_iff_toNat_le UInt32.le_iff_toNat_le)

theorem toNat_toLower (c : Char) :
    c.toLower.toNat = if c.isUpper then c.toNat + 32 else c.toNat := by
  by_cases h : c.isUpper
  · have hc := (isUpper_iff c).mp h
    have hlower : c.toLower = _ := dif_pos (decide_eq_true_iff.mp h)
    have hsum : c.toLower.toNat = (c.val + 32).toNat := by rw [hlower]; rfl
    rw [← Char.toNat_val] at hc
    have h32 : UInt32.toNat 32 = 32 := rfl
    rw [if_pos h, hsum, UInt32.toNat_add, ← Char.toNat_val, h32]
    omega
  · have hlower : c.toLower = c := dif_neg (mt decide_eq_true_iff.mpr h)
    rw [if_neg h, hlower]

theorem toLower_eq_iff (c d : Char) : c.toLower = d.toLower ↔ SameLetter c d := by
  rw [← Char.toNat_inj, toNat_toLower, toNat_toLower, SameLetter, ← Char.toNat_inj]
  have hc := isUpper_iff c
  have hd := isUpper_iff d
  split_ifs <;> grind

theorem eqIgnoringAsciiCase_iff (s t : String) :
    Text.eqIgnoringAsciiCase s t = true ↔ SameLetters s t := by
  simp only [Text.eqIgnoringAsciiCase, SameLetters, beq_iff_eq]
  rw [← List.forall₂_eq_eq_eq, List.forall₂_map_left_iff, List.forall₂_map_right_iff]
  simp only [toLower_eq_iff]

/-! ## Suggestions -/

/-- The distance of two texts: the least number of insertions, deletions and substitutions. -/
def Distance (s t : String) (d : Nat) : Prop := IsLeast {n | Edits n s.toList t.toList} d

theorem distance_editDistance (s t : String) : Distance s t (editDistance s.toList t.toList) :=
  editDistance_isLeast s.toList t.toList

/-- What is suggested for a name that is not there. -/
inductive Suggested (typo : String) (names : List String) : Option String → Prop
  /-- The first name with the same letters. -/
  | sameLetters (before after : List String) (name : String)
    (split : names = before ++ name :: after) (same : SameLetters name typo)
    (first : ∀ other ∈ before, ¬SameLetters other typo) : Suggested typo names (some name)
  /-- The first name at the least distance. -/
  | nearest (before after : List String) (name : String) (d : Nat)
    (split : names = before ++ name :: after) (others : ∀ other ∈ names, ¬SameLetters other typo)
    (distance : Distance typo name d) (within : d ≤ max 2 (typo.length / 2))
    (first : ∀ other ∈ before, ∀ k, Distance typo other k → d < k)
    (least : ∀ other ∈ after, ∀ k, Distance typo other k → d ≤ k) : Suggested typo names (some name)
  /-- All names are too far. -/
  | none (others : ∀ other ∈ names, ¬SameLetters other typo)
    (far : ∀ other ∈ names, ∀ k, Distance typo other k → max 2 (typo.length / 2) < k) :
    Suggested typo names none

/-- A distance is the one that the rows compute. -/
theorem distance_iff {s t : String} {d : Nat} :
    Distance s t d ↔ d = editDistance s.toList t.toList :=
  ⟨fun h => h.unique (distance_editDistance s t), fun h => h ▸ distance_editDistance s t⟩

/-- The names with their distances. -/
def withDistances (typo : String) (names : List String) : List (Nat × String) :=
  names.map fun n => (editDistance typo.toList n.toList, n)

variable {typo : String} {names : List String}

theorem nearest?_withDistances {d : Nat} {name : String} :
    nearest? (withDistances typo names) = some (d, name) ↔ ∃ before after,
      names = before ++ name :: after ∧ Distance typo name d ∧
      (∀ other ∈ before, ∀ k, Distance typo other k → d < k) ∧
      ∀ other ∈ after, ∀ k, Distance typo other k → d ≤ k := by
  simp only [distance_iff, forall_eq, nearest?_eq_some, withDistances]
  constructor
  · rintro ⟨before', after', hsplit, hbefore, hafter⟩
    obtain ⟨before, rest, rfl, rfl, hrest⟩ := List.map_eq_append_iff.mp hsplit
    obtain ⟨n, after, rfl, hn, rfl⟩ := List.map_eq_cons_iff.mp hrest
    obtain ⟨rfl, rfl⟩ := Prod.mk.inj hn
    exact ⟨before, after, rfl, rfl, by simpa using hbefore, by simpa using hafter⟩
  · rintro ⟨before, after, rfl, rfl, hbefore, hafter⟩
    exact ⟨_, _, List.map_append, by simpa using hbefore, by simpa using hafter⟩

theorem find?_sameLetters_eq_none :
    (names.find? fun n => Text.eqIgnoringAsciiCase n typo) = none ↔
      ∀ other ∈ names, ¬SameLetters other typo := by
  simp [List.find?_eq_none, ← eqIgnoringAsciiCase_iff]

theorem find?_sameLetters_eq_some {name : String} :
    (names.find? fun n => Text.eqIgnoringAsciiCase n typo) = some name ↔
      SameLetters name typo ∧ ∃ before after, names = before ++ name :: after ∧
        ∀ other ∈ before, ¬SameLetters other typo := by
  simp [List.find?_eq_some_iff_append, ← eqIgnoringAsciiCase_iff]

theorem suggest?_of_sameLetters {name : String}
    (h : (names.find? fun n => Text.eqIgnoringAsciiCase n typo) = some name) :
    suggest? typo names = some name := by
  rw [suggest?, h]

/-- Where no name has the same letters, the cut-off is about the nearest one. -/
theorem suggest?_of_others
    (h : (names.find? fun n => Text.eqIgnoringAsciiCase n typo) = none) :
    suggest? typo names = ((nearest? (withDistances typo names)).filter
      fun x => x.1 ≤ max 2 (typo.length / 2)).map Prod.snd := by
  rw [suggest?, h]
  simp only [nearest?_filter, withDistances, Nat.max_comm 2]

theorem suggested_suggest? (typo : String) (names : List String) :
    Suggested typo names (suggest? typo names) := by
  cases hsame : names.find? fun n => Text.eqIgnoringAsciiCase n typo with
  | some name =>
    rw [suggest?_of_sameLetters hsame]
    obtain ⟨same, before, after, split, first⟩ := find?_sameLetters_eq_some.mp hsame
    exact .sameLetters before after name split same first
  | none =>
    rw [suggest?_of_others hsame]
    have others := find?_sameLetters_eq_none.mp hsame
    cases hnear : nearest? (withDistances typo names) with
    | none =>
      obtain rfl : names = [] := by simpa [withDistances] using nearest?_eq_none.mp hnear
      exact .none others (by simp)
    | some x =>
      obtain ⟨d, name⟩ := x
      obtain ⟨before, after, split, distance, first, least⟩ := nearest?_withDistances.mp hnear
      by_cases hd : d ≤ max 2 (typo.length / 2)
      · simp only [Option.filter, hd, decide_true, if_true, Option.map_some]
        exact .nearest before after name d split others distance hd first least
      · simp only [Option.filter, hd, decide_false, Option.map_none, Bool.false_eq_true, if_false]
        refine .none others fun other hother k hk => ?_
        have hdk : d ≤ k := by
          rw [split, List.mem_append, List.mem_cons] at hother
          rcases hother with h | rfl | h
          · exact (first other h k hk).le
          · exact (distance.unique hk).le
          · exact least other h k hk
        omega

/-- What is suggested is determined. -/
theorem Suggested.suggest?_eq {r : Option String} (h : Suggested typo names r) :
    suggest? typo names = r := by
  cases h with
  | sameLetters before after name split same first =>
    exact suggest?_of_sameLetters
      (find?_sameLetters_eq_some.mpr ⟨same, before, after, split, first⟩)
  | nearest before after name d split others distance within first least =>
    rw [suggest?_of_others (find?_sameLetters_eq_none.mpr others),
      nearest?_withDistances.mpr ⟨before, after, split, distance, first, least⟩]
    simp only [Option.filter, within, decide_true, if_true, Option.map_some]
  | none others far =>
    rw [suggest?_of_others (find?_sameLetters_eq_none.mpr others), Option.map_eq_none_iff,
      Option.filter_eq_none_iff]
    rintro ⟨d, name⟩ hnear
    obtain ⟨before, after, split, distance, -⟩ := nearest?_withDistances.mp hnear
    simpa using far name (by simp [split]) d distance

/-- The first name with the same letters is suggested, or else the first one at the least distance
if that is at most half the length, or at most two. -/
theorem suggest_nearest (typo : String) (names : List String) :
    (∀ name, Distance typo name (editDistance typo.toList name.toList)) ∧
      ∀ r, suggest? typo names = r ↔ Suggested typo names r :=
  ⟨distance_editDistance typo, fun _ =>
    ⟨fun h => h ▸ suggested_suggest? typo names, Suggested.suggest?_eq⟩⟩

/-- The name `step_10` is farther. -/
example : suggest? "step_2" ["step_10", "step_1"] = some "step_1" := by decide

end FlowEngine.Template
