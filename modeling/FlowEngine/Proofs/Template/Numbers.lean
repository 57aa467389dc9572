import FlowEngine.Proofs.Number.Order
import FlowEngine.Template.Condition

/-!
# Comparisons of numbers

The three comparisons of numbers look at the same order. Unless both operands have numbers that can be
compared, either none of the comparisons holds or none of them has an outcome.

* `numberOperator` — the comparison that holds for an order.
* `SaysNaN`, `Unordered` — the texts that are read as a number which cannot be compared.
* `numbers_ordered` — the comparisons of two operands, in both directions, and those of two integers.
-/

namespace FlowEngine

namespace Binary64

variable {s : String} {x : Binary64}

theorem isNaN_ofMagnitude (negative : Bool) (m : Nat) : (ofMagnitude negative m).isNaN = false := by
  rw [isNaN, magnitude_ofMagnitude, decide_eq_false_iff_not]
  exact Nat.not_lt.mpr (Nat.min_le_right _ _)

theorem isNaN_ofDecimal (negative : Bool) (d : Decimal) : (ofDecimal negative d).isNaN = false := by
  unfold ofDecimal
  dsimp only
  split_ifs <;> exact isNaN_ofMagnitude _ _

/-- A text that stands for what is not a number: `nan` in any case, perhaps with a sign. -/
def SaysNaN (s : String) : Prop :=
  ∃ word, (s.toList = word ∨ s.toList = '-' :: word ∨ s.toList = '+' :: word) ∧
    word.map Char.toLower = "nan".toList

theorem saysNaN_of_unsigned {negative : Bool} {word : List Char} (hx : x.isNaN = true)
    (h : (if word.map Char.toLower = "inf".toList ∨ word.map Char.toLower = "infinity".toList then
        some (infinity negative)
      else if word.map Char.toLower = "nan".toList then some (nan negative)
      else unsignedOf? negative word) = some x) : word.map Char.toLower = "nan".toList := by
  split_ifs at h with hinf hnan
  · cases h
    cases (isNaN_ofMagnitude _ _).symm.trans hx
  · exact hnan
  · unfold unsignedOf? at h
    dsimp only at h
    split_ifs at h
    obtain ⟨e, -, rfl⟩ := Option.map_eq_some_iff.mp h
    cases (isNaN_ofDecimal _ _).symm.trans hx

/-- A text is read as what is not a number only if it says so. -/
theorem saysNaN_of_ofText? (h : ofText? s = some x) (hx : x.isNaN = true) : SaysNaN s := by
  unfold ofText? at h
  split at h
  next negative word hsign =>
    refine ⟨word, ?_, saysNaN_of_unsigned hx h⟩
    split at hsign
    next cs hs => cases hsign; exact .inr (.inl hs)
    next cs hs => cases hsign; exact .inr (.inr hs)
    next cs => cases hsign; exact .inl rfl

end Binary64

namespace Template

open FlowEngine.Flow

variable {a b j : Json} {caseSensitive : Bool} {x y : Binary64}

/-! ## Operands -/

/-- An operand is a text that is read as what is not a number. -/
def Unordered (j : Json) : Prop := ∃ s, j = .str s ∧ Binary64.SaysNaN (Text.trimText s)

theorem isNaN_ofInt {i : Int} : (Binary64.ofInt i).isNaN = false := Binary64.isNaN_ofMagnitude _ _

theorem unordered_of_isNaN (hj : j.Canonical) (h : number? j = some x) (hx : x.isNaN = true) :
    Unordered j := by
  cases j with
  | int i =>
    cases h
    cases isNaN_ofInt.symm.trans hx
  | float y =>
    cases h
    have hfin : x.magnitude < Binary64.infinityBits := of_decide_eq_true hj
    have hnan : Binary64.infinityBits < x.magnitude := of_decide_eq_true hx
    omega
  | str s => exact ⟨s, rfl, Binary64.saysNaN_of_ofText? h hx⟩
  | null => cases h
  | bool b => cases h
  | arr elements => cases h
  | obj members => cases h

/-! ## The three comparisons -/

/-- The comparison of numbers that holds for an order. -/
def numberOperator : Ordering → Operator
  | .lt => .numberIsLessThan
  | .eq => .numberIsEqualTo
  | .gt => .numberIsGreaterThan

theorem compareNumbers_eq (a b : Json) (relation : Binary64 → Binary64 → Bool) :
    compareNumbers a b relation =
      (numbers a b).map fun pair => pair.any fun p => relation p.1 p.2 := by
  unfold compareNumbers
  cases numbers a b <;> rfl

/-- Each of the comparisons asks for one order of the two numbers. -/
theorem compare_numberOperator (o : Ordering) : compare (numberOperator o) caseSensitive a b =
    (numbers a b).map fun pair => pair.any fun p => p.1.compare? p.2 == some o := by
  have hgt (x y : Binary64) : y.valueLt x = (x.compare? y == some .gt) := by
    rw [Binary64.valueLt, Binary64.compare?_swap x y]
    cases x.compare? y with
    | none => rfl
    | some o => cases o <;> rfl
  cases o with
  | lt => exact compareNumbers_eq a b Binary64.valueLt
  | eq => exact compareNumbers_eq a b Binary64.valueEq
  | gt =>
    rw [numberOperator, compare, compareNumbers_eq]
    simp only [hgt]

theorem absent_of_not (h : ¬ (isPresent a = true ∧ isPresent b = true)) :
    isPresent a = false ∨ isPresent b = false := by
  rwa [not_and_or, Bool.not_eq_true, Bool.not_eq_true] at h

theorem numbers_absent (h : isPresent a = false ∨ isPresent b = false) : numbers a b = .ok none := by
  rw [numbers, if_neg (by simpa using fun ha => by simpa [ha] using h)]

theorem numbers_first (ha : isPresent a = true) (hb : isPresent b = true) (h : number? a = none) :
    numbers a b = mismatch "number" a := by
  rw [numbers, if_pos (by simp [ha, hb]), asNumber, h]
  rfl

theorem numbers_second (ha : isPresent a = true) (hb : isPresent b = true) (hx : number? a = some x)
    (h : number? b = none) : numbers a b = mismatch "number" b := by
  rw [numbers, if_pos (by simp [ha, hb]), asNumber, asNumber, hx, h]
  rfl

theorem numbers_both (ha : isPresent a = true) (hb : isPresent b = true) (hx : number? a = some x)
    (hy : number? b = some y) : numbers a b = .ok (some (x, y)) := by
  rw [numbers, if_pos (by simp [ha, hb]), asNumber, asNumber, hx, hy]
  rfl

/-! ## Outcomes -/

/-- What the three comparisons come to: a mismatch, nothing but false, or the one order that holds. -/
inductive Compared (caseSensitive : Bool) (a b : Json) : Prop
  /-- Both operands are there, and one of them has no number. -/
  | mismatch (j : Json) (operand : j = a ∨ j = b) (present : isPresent a = true ∧ isPresent b = true)
    (other : number? j = none) (outcome : ∀ o, compare (numberOperator o) caseSensitive a b =
      .error (.typeMismatch "number" j.kindName))
  /-- An operand is absent, or cannot be compared with anything. -/
  | none (missing : isPresent a = false ∨ isPresent b = false ∨ Unordered a ∨ Unordered b)
    (outcome : ∀ o, compare (numberOperator o) caseSensitive a b = .ok false)
  /-- The operands are in one order. -/
  | one (order : Ordering)
    (outcome : ∀ o, compare (numberOperator o) caseSensitive a b = .ok (o == order))

/-- The comparisons of operands that have numbers ask for their order. -/
theorem compare_of_numbers (ha : isPresent a = true) (hb : isPresent b = true)
    (hx : number? a = some x) (hy : number? b = some y) (o : Ordering) :
    compare (numberOperator o) caseSensitive a b = .ok (x.compare? y == some o) := by
  rw [compare_numberOperator, numbers_both ha hb hx hy]
  rfl

theorem compared (ha : a.Canonical) (hb : b.Canonical) (caseSensitive : Bool) :
    Compared caseSensitive a b := by
  by_cases hpresent : isPresent a = true ∧ isPresent b = true
  · obtain ⟨hpa, hpb⟩ := hpresent
    cases hx : number? a with
    | none =>
      refine .mismatch a (.inl rfl) ⟨hpa, hpb⟩ hx fun o => ?_
      rw [compare_numberOperator, numbers_first hpa hpb hx]
      rfl
    | some x =>
      cases hy : number? b with
      | none =>
        refine .mismatch b (.inr rfl) ⟨hpa, hpb⟩ hy fun o => ?_
        rw [compare_numberOperator, numbers_second hpa hpb hx hy]
        rfl
      | some y =>
        have houtcome (o : Ordering) :
            compare (numberOperator o) caseSensitive a b = .ok (x.compare? y == some o) :=
          compare_of_numbers hpa hpb hx hy o
        cases horder : x.compare? y with
        | none =>
          refine .none ?_ fun o => by rw [houtcome, horder]; rfl
          rcases Binary64.compare?_eq_none_iff.mp horder with hnan | hnan
          · exact .inr (.inr (.inl (unordered_of_isNaN ha hx hnan)))
          · exact .inr (.inr (.inr (unordered_of_isNaN hb hy hnan)))
        | some order =>
          refine .one order fun o => ?_
          rw [houtcome, horder]
          cases o <;> cases order <;> rfl
  · have habsent := absent_of_not hpresent
    refine .none (habsent.imp_right .inl) fun o => ?_
    rw [compare_numberOperator, numbers_absent habsent]
    rfl

/-- With its operands swapped, a comparison comes to what its opposite does. -/
theorem compare_swap (caseSensitive : Bool) (a b : Json) (o : Ordering) :
    (compare (numberOperator o.swap) caseSensitive b a).toOption =
      (compare (numberOperator o) caseSensitive a b).toOption := by
  by_cases hpresent : isPresent a = true ∧ isPresent b = true
  · obtain ⟨hpa, hpb⟩ := hpresent
    rw [compare_numberOperator, compare_numberOperator]
    cases hx : number? a with
    | none =>
      rw [numbers_first hpa hpb hx]
      cases hy : number? b with
      | none => rw [numbers_first hpb hpa hy]; rfl
      | some y => rw [numbers_second hpb hpa hy hx]; rfl
    | some x =>
      cases hy : number? b with
      | none => rw [numbers_second hpa hpb hx hy, numbers_first hpb hpa hy]; rfl
      | some y =>
        rw [numbers_both hpa hpb hx hy, numbers_both hpb hpa hy hx]
        refine congrArg some ?_
        change (y.compare? x == some o.swap) = (x.compare? y == some o)
        rw [Binary64.compare?_swap x y]
        cases x.compare? y with
        | none => rfl
        | some order => cases order <;> cases o <;> rfl
  · have habsent := absent_of_not hpresent
    rw [compare_numberOperator, compare_numberOperator, numbers_absent habsent,
      numbers_absent habsent.symm]
    rfl

/-- The three comparisons of numbers report the same mismatch, or are all false because an operand is
absent or is read as what is not a number, or just one of them holds. Swapping the operands swaps
greater and less. Of two integers, the one that holds is the order of the numbers nearest to them: it is
the order of the integers or equality, and up to `2 ^ 53` it is the order of the integers. -/
theorem numbers_ordered (ha : a.Canonical) (hb : b.Canonical) (caseSensitive : Bool) :
    Compared caseSensitive a b ∧
    (∀ o, (compare (numberOperator o.swap) caseSensitive b a).toOption =
      (compare (numberOperator o) caseSensitive a b).toOption) ∧
    ∀ i j, a = .int i → b = .int j → ∃ order,
      (∀ o, compare (numberOperator o) caseSensitive a b = .ok (o == order)) ∧
      order = Ord.compare (Binary64.nearest i) (Binary64.nearest j) ∧
      (order = Ord.compare i j ∨ order = .eq) ∧
      (i.natAbs ≤ 2 ^ 53 → j.natAbs ≤ 2 ^ 53 → order = Ord.compare i j) := by
  refine ⟨compared ha hb caseSensitive, compare_swap caseSensitive a b, ?_⟩
  rintro i j rfl rfl
  refine ⟨_, fun o => ?_, rfl, Binary64.compare_nearest i j, Binary64.compare_nearest_of_le⟩
  rw [compare_of_numbers rfl rfl rfl rfl, Binary64.compare?_ofInt ha hb]
  cases o <;> cases Ord.compare (Binary64.nearest i) (Binary64.nearest j) <;> rfl

/-- The longest integers for which that is so. -/
theorem longest_ordered : (Json.int 9007199254740992).Canonical ∧
    (Json.int (-9007199254740992)).Canonical ∧
    ∀ o, compare (numberOperator o) false (.int 9007199254740992) (.int (-9007199254740992)) =
      .ok (o == .gt) := by
  have hlong : (Json.int 9007199254740992).Canonical := ⟨by decide, by decide⟩
  have hnegative : (Json.int (-9007199254740992)).Canonical := ⟨by decide, by decide⟩
  obtain ⟨-, -, hints⟩ := numbers_ordered hlong hnegative false
  obtain ⟨order, houtcome, -, -, horder⟩ := hints _ _ rfl rfl
  obtain rfl : order = .gt := horder (by decide) (by decide)
  exact ⟨hlong, hnegative, houtcome⟩

/-- Two integers beyond `2 ^ 53` that differ count as equal, and neither as greater. A text that is read
as what is not a number is there, and yet none of the comparisons holds. -/
theorem long_integers_equal :
    (∀ o, compare (numberOperator o) false (.int 9007199254740993) (.int 9007199254740992) =
      .ok (o == .eq)) ∧
    Ord.compare (9007199254740993 : Int) 9007199254740992 = .gt ∧
    isPresent (.str "NaN") = true ∧
    ∀ o, compare (numberOperator o) false (.str "NaN") (.int 1) = .ok false := by
  refine ⟨fun o => ?_, rfl, rfl, fun o => ?_⟩ <;> cases o <;> decide +kernel

end Template

end FlowEngine
