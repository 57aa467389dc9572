import FlowEngine.Json.Basic
import FlowEngine.Proofs.Number.Signs

/-!
# The order of binary64 numbers

Any two numbers can be compared unless one of them is not a number. Integers are rounded before they are
compared. That never turns their order around, but beyond `2 ^ 53` different integers may be rounded to
the same number.

* `Binary64.compare?_swap`, `Binary64.compare?_eq_none_iff` — the order turned around, and where there
  is none.
* `Binary64.nearest` — the number nearest to an integer; `nearest_mono`, `nearest_eq` its order.
* `Binary64.compare?_ofInt` — the order of two integers after rounding.
-/

namespace FlowEngine.Binary64

variable {x y : Binary64} {n : Nat} {i j : Int}

/-! ## Comparable numbers -/

theorem isNaN_iff_view : x.isNaN = true ↔ x.view = .nan := by
  unfold view isNaN
  split_ifs <;> simp <;> omega

/-- Two numbers can be compared unless one of them is not a number. -/
theorem compare?_eq_none_iff : x.compare? y = none ↔ x.isNaN = true ∨ y.isNaN = true := by
  rw [isNaN_iff_view, isNaN_iff_view]
  unfold compare?
  split <;> simp_all

/-- The order is turned around with its operands. -/
theorem compare?_swap (x y : Binary64) : y.compare? x = (x.compare? y).map Ordering.swap := by
  unfold compare?
  cases x.view with
  | nan => cases y.view <;> rfl
  | infinite s => cases y.view <;> cases s <;> grind [Ordering.swap]
  | finite s m =>
    cases y.view with
    | nan => rfl
    | infinite t => cases t <;> rfl
    | finite t k => exact congrArg some (Int.compare_swap _ _).symm

/-! ## Rounded integers -/

/-- The number nearest to an integer, in units. -/
def nearest (i : Int) : Int :=
  signedUnits (decide (i < 0)) (unitsOf (roundUnits (i.natAbs * unitsOfOne) 1))

theorem roundUnits_le_of_le {k : Nat} (h : n ≤ k) :
    roundUnits (n * unitsOfOne) 1 ≤ roundUnits (k * unitsOfOne) 1 :=
  roundUnits_mono Nat.one_pos Nat.one_pos (Nat.mul_le_mul_right 1 (Nat.mul_le_mul_right unitsOfOne h))

/-- Rounding does not turn the order of integers around. -/
theorem nearest_mono (h : i ≤ j) : nearest i ≤ nearest j := by
  have hunits {a b : Nat} (hab : a ≤ b) : unitsOf (roundUnits (a * unitsOfOne) 1) ≤
      unitsOf (roundUnits (b * unitsOfOne) 1) := unitsOf_mono (roundUnits_le_of_le hab)
  unfold nearest signedUnits
  by_cases hi : i < 0 <;> by_cases hj : j < 0
  · have := hunits (show j.natAbs ≤ i.natAbs by omega)
    simp only [hi, hj, decide_true, if_true]
    omega
  · simp only [hi, hj, decide_true, decide_false, if_true, if_false, Bool.false_eq_true]
    omega
  · omega
  · have := hunits (show i.natAbs ≤ j.natAbs by omega)
    simp only [hi, hj, decide_false, if_false, Bool.false_eq_true]
    omega

theorem roundHalfEven_of_dvd {num den : Nat} (hden : 0 < den) (h : den ∣ num) :
    roundHalfEven num den = num / den := by
  have : num % den = 0 := Nat.mod_eq_zero_of_dvd h
  unfold roundHalfEven
  rw [this, if_pos (by omega)]

theorem unitsOf_of_normal {k q : Nat} (hge : 2 ^ 52 ≤ q) (hlt : q < 2 ^ 53) :
    unitsOf (k * 2 ^ 52 + q) = q * 2 ^ k := by
  have hexp : (k * 2 ^ 52 + q) / 2 ^ 52 = k + 1 := by omega
  have hrest : (k * 2 ^ 52 + q) % 2 ^ 52 + 2 ^ 52 = q := by omega
  rw [unitsOf, if_neg (by omega), hexp, hrest, Nat.add_sub_cancel]

theorem unitsOf_of_subnormal {q : Nat} (hlt : q < 2 ^ 52) : unitsOf q = q := by
  have hexp : q / 2 ^ 52 = 0 := by omega
  have hrest : q % 2 ^ 52 = q := by omega
  rw [unitsOf, hexp, if_pos rfl, hrest, Nat.zero_sub, Nat.pow_zero, Nat.mul_one]

/-- A count of units with at most 53 digits before its zeros is rounded to itself. -/
theorem unitsOf_roundUnits {k : Nat} (hk : cutPlaces n 1 = k) (h : 2 ^ k ∣ n) :
    unitsOf (roundUnits n 1) = n := by
  obtain ⟨q, hq⟩ := h
  have hcut : 0 < 2 ^ k := Nat.two_pow_pos _
  have hround : roundHalfEven n (1 * 2 ^ k) = q := by
    rw [Nat.one_mul, roundHalfEven_of_dvd hcut ⟨q, hq⟩]
    exact Nat.div_eq_of_eq_mul_right hcut hq
  have hlt : q < 2 ^ 53 := by
    have h := lt_cut n 1 Nat.one_pos
    rw [hk, Nat.one_mul, Nat.mul_comm (2 ^ 53), hq] at h
    exact Nat.lt_of_mul_lt_mul_left h
  rw [roundUnits_eq, hk, hround, hq]
  rcases Nat.lt_or_ge q (2 ^ 52) with hsub | hge
  · -- so few digits are left only if nothing is cut off
    have hzero : k = 0 := by
      by_contra hpos
      have h := cut_le (hk.symm ▸ Nat.pos_of_ne_zero hpos) Nat.one_pos
      rw [hk, Nat.one_mul, Nat.mul_comm (2 ^ 52), hq] at h
      exact Nat.not_le.mpr hsub (Nat.le_of_mul_le_mul_left h hcut)
    rw [hzero, Nat.zero_mul, Nat.zero_add, Nat.pow_zero, Nat.one_mul, unitsOf_of_subnormal hsub]
  · rw [unitsOf_of_normal hge hlt, Nat.mul_comm]

theorem dvd_of_le (e : Nat) (h : n ≤ 2 ^ 53) :
    2 ^ cutPlaces (n * Nat.pow 2 e) 1 ∣ n * Nat.pow 2 e := by
  rw [Nat.pow_eq]
  rcases Nat.lt_or_eq_of_le h with hlt | rfl
  · -- what is cut off is less than the power
    refine Nat.dvd_trans (Nat.pow_dvd_pow 2 ?_) (Nat.dvd_mul_left _ _)
    rcases Nat.eq_zero_or_pos n with rfl | hpos
    · rw [Nat.zero_mul]
      exact Nat.zero_le _
    · have hlog : Nat.log2 (n * 2 ^ e) < 53 + e := by
        rw [Nat.log2_lt (Nat.ne_of_gt (Nat.mul_pos hpos (Nat.two_pow_pos _))), Nat.pow_add]
        exact Nat.mul_lt_mul_of_pos_right hlt (Nat.two_pow_pos _)
      rw [cutPlaces, Nat.div_one]
      omega
  · rw [← Nat.pow_add]
    refine Nat.pow_dvd_pow 2 ?_
    rw [cutPlaces, Nat.div_one, Nat.log2_two_pow]
    exact Nat.sub_le _ _

theorem signedUnits_natAbs (i : Int) (n : Nat) :
    signedUnits (decide (i < 0)) (i.natAbs * n) = i * n := by
  unfold signedUnits
  split_ifs with hneg
  · have habs : (i.natAbs : Int) = -i := by have := of_decide_eq_true hneg; omega
    rw [Int.natCast_mul, habs, Int.neg_mul, Int.neg_neg]
  · have habs : (i.natAbs : Int) = i := by
      have : ¬ i < 0 := fun h => hneg (decide_eq_true h)
      omega
    rw [Int.natCast_mul, habs]

/-- Integers up to `2 ^ 53` are binary64 numbers. -/
theorem nearest_eq (h : i.natAbs ≤ 2 ^ 53) : nearest i = i * unitsOfOne := by
  have hdvd : 2 ^ cutPlaces (i.natAbs * unitsOfOne) 1 ∣ i.natAbs * unitsOfOne := by
    unfold unitsOfOne
    exact dvd_of_le unitExponent h
  rw [nearest, unitsOf_roundUnits rfl hdvd, signedUnits_natAbs]

/-- An integer of a document is rounded to a finite number. -/
theorem view_ofInt (h : Json.InRange i) : (ofInt i).view =
    .finite (decide (i < 0)) (unitsOf (roundUnits (i.natAbs * unitsOfOne) 1)) := by
  have hmax : roundUnits (0x10000000000000000 * unitsOfOne) 1 < infinityBits := by decide +kernel
  have hlt : roundUnits (i.natAbs * unitsOfOne) 1 < infinityBits :=
    Nat.lt_of_le_of_lt (roundUnits_le_of_le (by have := h.1; have := h.2; omega)) hmax
  have hunits : (ofInt i).units = unitsOf (roundUnits (i.natAbs * unitsOfOne) 1) := by
    rw [ofInt, ofRatio]
    change unitsOf (ofMagnitude _ _).magnitude = _
    rw [magnitude_ofMagnitude, Nat.min_eq_left (Nat.le_of_lt hlt)]
  have hsign : (ofInt i).negative = decide (i < 0) := negative_of_sign? (sign?_ofMagnitude _ _)
  have hfin : (ofInt i).isFinite = true := (isFinite_ofMagnitude _ _).mpr hlt
  rw [view_of_isFinite hfin, hunits, hsign]

/-- The order of two integers is that of the numbers nearest to them. -/
theorem compare?_ofInt (hi : Json.InRange i) (hj : Json.InRange j) :
    (ofInt i).compare? (ofInt j) = some (compare (nearest i) (nearest j)) := by
  rw [compare?, view_ofInt hi, view_ofInt hj]
  rfl

/-- The nearest numbers are in the order of the integers, or are the same. -/
theorem compare_nearest (i j : Int) :
    compare (nearest i) (nearest j) = compare i j ∨ compare (nearest i) (nearest j) = .eq := by
  rcases Int.lt_trichotomy i j with h | rfl | h
  · rcases Int.lt_or_eq_of_le (nearest_mono (Int.le_of_lt h)) with hlt | heq
    · left
      rw [Int.compare_eq_lt.mpr h, Int.compare_eq_lt.mpr hlt]
    · exact .inr (Int.compare_eq_eq.mpr heq)
  · exact .inr (Int.compare_eq_eq.mpr rfl)
  · rcases Int.lt_or_eq_of_le (nearest_mono (Int.le_of_lt h)) with hlt | heq
    · left
      rw [Int.compare_eq_gt.mpr h, Int.compare_eq_gt.mpr hlt]
    · exact .inr (Int.compare_eq_eq.mpr heq.symm)

/-- Up to `2 ^ 53` they are in the order of the integers. -/
theorem compare_nearest_of_le (hi : i.natAbs ≤ 2 ^ 53) (hj : j.natAbs ≤ 2 ^ 53) :
    compare (nearest i) (nearest j) = compare i j := by
  have hpos : (0 : Int) < unitsOfOne := Int.natCast_pos.mpr unitsOfOne_pos
  rw [nearest_eq hi, nearest_eq hj]
  rcases Int.lt_trichotomy i j with h | rfl | h
  · rw [Int.compare_eq_lt.mpr h, Int.compare_eq_lt.mpr (Int.mul_lt_mul_of_pos_right h hpos)]
  · rw [Int.compare_eq_eq.mpr rfl, Int.compare_eq_eq.mpr rfl]
  · rw [Int.compare_eq_gt.mpr h, Int.compare_eq_gt.mpr (Int.mul_lt_mul_of_pos_right h hpos)]

end FlowEngine.Binary64
