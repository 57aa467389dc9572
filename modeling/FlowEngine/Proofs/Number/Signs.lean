import FlowEngine.Proofs.Number.Rounding

/-!
# Signs of binary64 numbers

Every number has a sign, also zero and infinity; what is not a number has none.

* `Binary64.sign?` — the sign of a number.
* `sign?_mul`, `sign?_div` — the sign of a product or a quotient, if it is a number.
* `sign?_powNat` — a power has a sign only if its base is negative and its exponent is odd.
* `isFinite_add_mono`, `magnitude_div_mono` — sums and quotients below others that are finite.
-/

namespace FlowEngine.Binary64

variable {x y x' y' : Binary64} {m n : Nat} {s t b : Bool}

/-- Whether a number is negative; minus zero is. -/
def sign? (x : Binary64) : Option Bool := if x.isNaN then none else some x.negative

/-! ## Views -/

theorem sign?_of_nan (h : x.view = .nan) : x.sign? = none := by
  unfold view at h
  split_ifs at h with hlt heq
  rw [sign?, isNaN, if_pos (decide_eq_true (by omega))]

theorem sign?_of_infinite (h : x.view = .infinite s) : x.sign? = some s := by
  unfold view at h
  split_ifs at h with hlt heq
  cases h
  rw [sign?, if_neg (by simp [isNaN, heq])]

theorem sign?_of_finite (h : x.view = .finite s m) : x.sign? = some s := by
  unfold view at h
  split_ifs at h with hlt
  cases h
  rw [sign?, if_neg (by simp [isNaN]; omega)]

theorem sign?_ofMagnitude (s : Bool) (m : Nat) : (ofMagnitude s m).sign? = some s := by
  have hle : min m infinityBits ≤ 0x7FF0000000000000 := Nat.min_le_right _ _
  have hnan : (ofMagnitude s m).isNaN = false := by
    rw [isNaN, magnitude_ofMagnitude, decide_eq_false_iff_not]
    omega
  rw [sign?, hnan, if_neg Bool.false_ne_true, negative, ofMagnitude]
  dsimp only
  rw [UInt64.toNat_ofNat']
  cases s
  · simp only [Bool.false_eq_true, if_false, Option.some.injEq, decide_eq_false_iff_not]
    omega
  · simp only [if_true, Option.some.injEq, decide_eq_true_eq]
    omega

theorem sign?_infinity (s : Bool) : (infinity s).sign? = some s := sign?_ofMagnitude s _

theorem sign?_ofNat (n : Nat) : (ofNat n).sign? = some false := sign?_ofMagnitude _ _

theorem negative_of_sign? (h : x.sign? = some s) : x.negative = s := by
  rw [sign?] at h
  split_ifs at h
  exact Option.some.inj h

/-! ## Products and quotients -/

/-- The sign of a product, if it is a number. -/
theorem sign?_mul (h : (x.mul y).sign? = some b) :
    ∃ s t, x.sign? = some s ∧ y.sign? = some t ∧ b = (s != t) := by
  unfold mul at h
  split at h
  next hx => rw [sign?_of_nan hx] at h; cases h
  next hy _ => rw [sign?_of_nan hy] at h; cases h
  next s t hx hy =>
    rw [sign?_infinity] at h
    exact ⟨s, t, sign?_of_infinite hx, sign?_of_infinite hy, (Option.some.inj h).symm⟩
  next s t n hx hy =>
    split_ifs at h
    · cases h
    · rw [sign?_infinity] at h
      exact ⟨s, t, sign?_of_infinite hx, sign?_of_finite hy, (Option.some.inj h).symm⟩
  next t n s hx hy =>
    split_ifs at h
    · cases h
    · rw [sign?_infinity, bne_comm] at h
      exact ⟨t, s, sign?_of_finite hx, sign?_of_infinite hy, (Option.some.inj h).symm⟩
  next s m t n hx hy =>
    rw [sign?_ofMagnitude] at h
    exact ⟨s, t, sign?_of_finite hx, sign?_of_finite hy, (Option.some.inj h).symm⟩

/-- The sign of a quotient, if it is a number. -/
theorem sign?_div (h : (x.div y).sign? = some b) :
    ∃ s t, x.sign? = some s ∧ y.sign? = some t ∧ b = (s != t) := by
  unfold div at h
  split at h
  next hx => rw [sign?_of_nan hx] at h; cases h
  next hy _ => rw [sign?_of_nan hy] at h; cases h
  next => cases h
  next s t n hx hy =>
    rw [sign?_infinity] at h
    exact ⟨s, t, sign?_of_infinite hx, sign?_of_finite hy, (Option.some.inj h).symm⟩
  next s m t hx hy =>
    rw [zero, sign?_ofMagnitude] at h
    exact ⟨s, t, sign?_of_finite hx, sign?_of_infinite hy, (Option.some.inj h).symm⟩
  next s m t n hx hy =>
    refine ⟨s, t, sign?_of_finite hx, sign?_of_finite hy, ?_⟩
    split_ifs at h
    · cases h
    · exact (Option.some.inj ((sign?_infinity _).symm.trans h)).symm
    · exact (Option.some.inj ((sign?_ofMagnitude _ _).symm.trans h)).symm

/-- The sign of a quotient by a number that is not zero. -/
theorem sign?_div_of_pos (hx : x.sign? = some s) (hy : y.sign? = some t) (hfin : y.isFinite = true)
    (hpos : 0 < y.units) : (x.div y).sign? = some (s != t) := by
  rw [div, view_of_isFinite hfin, negative_of_sign? hy]
  cases hv : x.view with
  | nan => rw [sign?_of_nan hv] at hx; cases hx
  | infinite s' =>
    obtain rfl := Option.some.inj ((sign?_of_infinite hv).symm.trans hx)
    exact sign?_infinity _
  | finite s' m =>
    obtain rfl := Option.some.inj ((sign?_of_finite hv).symm.trans hx)
    dsimp only
    rw [if_neg (Nat.ne_of_gt hpos)]
    exact sign?_ofMagnitude _ _

theorem sign?_mul_self (x : Binary64) : (x.mul x).sign? ≠ some true := fun h => by
  obtain ⟨s, t, hs, ht, hb⟩ := sign?_mul h
  rw [Option.some.inj (hs.symm.trans ht)] at hb
  simp at hb

theorem sign?_powNat_go {fuel : Nat} {acc : Binary64} (hacc : acc.sign? ≠ some true)
    (h : (powNat.go fuel x n acc).sign? = some true) : x.sign? = some true ∧ n % 2 = 1 := by
  induction fuel generalizing x n acc with
  | zero => exact absurd h hacc
  | succ fuel ih =>
    rw [powNat.go] at h
    -- the digit of this step decides; squares have no sign to pass on
    have hdigit (hneg : (if n % 2 = 1 then acc.mul x else acc).sign? = some true) :
        x.sign? = some true ∧ n % 2 = 1 := by
      split_ifs at hneg with hodd
      · obtain ⟨s, t, hs, ht, hb⟩ := sign?_mul hneg
        cases s with
        | true => exact absurd hs hacc
        | false => exact ⟨by simpa [hb] using ht, hodd⟩
      · exact absurd hneg hacc
    generalize (if n % 2 = 1 then acc.mul x else acc) = acc' at h hdigit
    split_ifs at h with hlast
    · exact hdigit h
    · by_contra hno
      exact sign?_mul_self x (ih (fun hneg => hno (hdigit hneg)) h).1

/-- A power is negative only if its base is and its exponent is odd. -/
theorem sign?_powNat (h : (x.powNat n).sign? = some true) : x.sign? = some true ∧ n % 2 = 1 :=
  sign?_powNat_go (by rw [sign?_ofNat]; decide) h

/-! ## Sums -/

/-- Positive numbers have a positive sum. -/
theorem sign?_add (hx : x.sign? = some false) (hy : y.sign? = some false) :
    (x.add y).sign? = some false := by
  unfold add
  split
  next hnan => rw [sign?_of_nan hnan] at hx; cases hx
  next hnan _ => rw [sign?_of_nan hnan] at hy; cases hy
  next s t hs ht =>
    obtain rfl := Option.some.inj ((sign?_of_infinite hs).symm.trans hx)
    obtain rfl := Option.some.inj ((sign?_of_infinite ht).symm.trans hy)
    exact sign?_infinity _
  next s hs _ _ =>
    obtain rfl := Option.some.inj ((sign?_of_infinite hs).symm.trans hx)
    exact sign?_infinity _
  next s hs _ _ =>
    obtain rfl := Option.some.inj ((sign?_of_infinite hs).symm.trans hy)
    exact sign?_infinity _
  next s m t n hs ht =>
    obtain rfl := Option.some.inj ((sign?_of_finite hs).symm.trans hx)
    obtain rfl := Option.some.inj ((sign?_of_finite ht).symm.trans hy)
    rw [ofSigned, sign?_ofMagnitude]
    simp only [signedUnits, Bool.false_eq_true, if_false, Bool.and_false, Option.some.injEq]
    split_ifs
    · rfl
    · simp; omega

/-- A sum of finite positive numbers is finite if that of greater ones is. -/
theorem isFinite_add_mono (hx : x.magnitude ≤ x'.magnitude) (hy : y.magnitude ≤ y'.magnitude)
    (hx' : x'.isFinite = true) (hy' : y'.isFinite = true) (sx : x.negative = false)
    (sy : y.negative = false) (sx' : x'.negative = false) (sy' : y'.negative = false)
    (h : (x'.add y').isFinite = true) : (x.add y).isFinite = true := by
  have hadd {x y : Binary64} (hx : x.isFinite = true) (hy : y.isFinite = true)
      (sx : x.negative = false) (sy : y.negative = false) :
      (x.add y).isFinite = true ↔ roundUnits (x.units + y.units) 1 < infinityBits := by
    rw [add, view_of_isFinite hx, view_of_isFinite hy, sx, sy]
    exact isFinite_ofMagnitude _ _
  rw [hadd (isFinite_of_magnitude_le hx hx') (isFinite_of_magnitude_le hy hy') sx sy]
  refine Nat.lt_of_le_of_lt (roundUnits_mono Nat.one_pos Nat.one_pos ?_)
    ((hadd hx' hy' sx' sy').mp h)
  have := units_mono hx
  have := units_mono hy
  omega

/-- A quotient by a positive number grows with the dividend. -/
theorem magnitude_div_mono (h : x.magnitude ≤ x'.magnitude) (hx' : x'.isFinite = true)
    (hy : y.isFinite = true) (hpos : 0 < y.units) :
    (x.div y).magnitude ≤ (x'.div y).magnitude := by
  have hdiv {x : Binary64} (hx : x.isFinite = true) :
      (x.div y).magnitude = min (roundUnits (x.units * unitsOfOne) y.units) infinityBits := by
    rw [div, view_of_isFinite hx, view_of_isFinite hy]
    dsimp only
    rw [if_neg (Nat.ne_of_gt hpos), ofRatio, magnitude_ofMagnitude]
  rw [hdiv (isFinite_of_magnitude_le h hx'), hdiv hx']
  have := roundUnits_mono hpos hpos
    (Nat.mul_le_mul_right y.units (Nat.mul_le_mul_right unitsOfOne (units_mono h)))
  omega

end FlowEngine.Binary64
