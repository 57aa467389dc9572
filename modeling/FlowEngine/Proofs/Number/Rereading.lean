import Mathlib.Tactic.IntervalCases
import FlowEngine.Proofs.Number.Shortest

/-!
# Reading written numbers

The fewest digits of a number round to it, but they are read in two roundings, so that what is read may
be a neighbour of the number. It is always a finite number.

* `Binary64.reread` — the number that the text of a number is read as.
* `Binary64.ofScientific_written` — it is finite.
-/

namespace FlowEngine.Binary64

variable {x y : Binary64} {m n : Nat}

/-! ## Powers of ten -/

theorem powerOfTen_eq (h : n ≤ 308) : powerOfTen n = ofNat (10 ^ n) := by
  have hplace : ¬ ((1 = 0) ∨ (n : Int) + decimalLength 1 < -400) ∧
      ¬ 400 < (n : Int) + decimalLength 1 := by
    rw [show decimalLength 1 = 1 from by decide]
    omega
  unfold powerOfTen ofDecimal
  dsimp only
  rw [if_neg hplace.1, if_neg hplace.2, if_pos (Int.natCast_nonneg n), Int.toNat_natCast, Nat.one_mul]
  rfl

theorem isFinite_ofNat (hn : n ≤ 308) (h : m ≤ 10 ^ n) : (ofNat m).isFinite = true := by
  -- the exponent is a variable, so that no tactic evaluates the power
  obtain ⟨k, hk, htop⟩ : ∃ k, k = 308 ∧ (powerOfTen k).isFinite = true :=
    ⟨308, rfl, by decide +kernel⟩
  rw [powerOfTen_eq (by omega)] at htop
  exact isFinite_of_magnitude_le
    (magnitude_ofNat_mono (h.trans (Nat.pow_le_pow_right (Nat.succ_pos 9) (by omega)))) htop

theorem isFinite_powerOfTen (h : n ≤ 308) : (powerOfTen n).isFinite = true := by
  rw [powerOfTen_eq h]
  exact isFinite_ofNat h (le_refl _)

theorem one_le_powerOfTen (h : n ≤ 308) : unitsOfOne ≤ (powerOfTen n).units := by
  have hone : (ofNat 1).units = unitsOfOne := by decide +kernel
  rw [powerOfTen_eq h, ← hone]
  exact units_mono (magnitude_ofNat_mono (Nat.one_le_pow _ _ (Nat.succ_pos 9)))

/-! ## Numbers that are not too large -/

/-- Dividing by a power of ten gives a finite number. -/
theorem isFinite_ofScientific_go (fuel : Nat) (hx : x.isFinite = true) :
    (ofScientific.go fuel x n).isFinite = true := by
  induction fuel generalizing x n with
  | zero => exact hx
  | succ fuel ih =>
    rw [ofScientific.go]
    split_ifs with hn
    · exact isFinite_div hx (isFinite_powerOfTen hn) (one_le_powerOfTen hn)
    · exact hx
    · exact ih (isFinite_div hx (isFinite_powerOfTen (le_refl _)) (one_le_powerOfTen (le_refl _)))

/-- A decimal with digits after the point is read as a finite number. -/
theorem ofScientific_of_neg {e : Int} (he : e < 0) (hn : n ≤ 308) (h : m ≤ 10 ^ n) :
    ∃ y, ofScientific m e = some y ∧ y.isFinite = true := by
  refine ⟨_, if_neg (by omega), isFinite_ofScientific_go _ (isFinite_ofNat hn h)⟩

/-! ## Large numbers -/

/-- No decimal that is above this rounds to a number below the greatest one. -/
def limit : Nat := (2 ^ 54 - 3) * 2 ^ 970

theorem upper_le (hx : x.magnitude < infinityBits - 1) :
    x.basin.upper ≤ limit * 2 ^ basinExponent := by
  -- the exponent is a variable here as well
  obtain ⟨k, hk, hexponent⟩ : ∃ k, k = 2044 ∧ 970 + basinExponent = k + 1 + 1 := ⟨2044, rfl, rfl⟩
  have hlimit : limit * 2 ^ basinExponent = (2 ^ 55 - 6) * 2 ^ (k + 1) := by
    calc limit * 2 ^ basinExponent = (2 ^ 54 - 3) * 2 ^ (970 + basinExponent) := by
          rw [limit, Nat.mul_assoc, ← Nat.pow_add]
      _ = (2 ^ 55 - 6) * 2 ^ (k + 1) := by rw [hexponent, Nat.pow_succ']; omega
  have hupper : x.basin.upper = (4 * x.significand + 2) * 2 ^ x.stepExponent := by
    unfold basin units
    dsimp only
    rw [Nat.add_mul, Nat.mul_assoc]
    rfl
  have hinf : infinityBits = 0x7FF0000000000000 := rfl
  have hexp : x.exponentField = x.magnitude / 2 ^ 52 := rfl
  have hfrac : x.fraction = x.magnitude % 2 ^ 52 := rfl
  have hsig : x.significand ≤ x.fraction + 2 ^ 52 := by
    unfold significand
    split_ifs <;> omega
  have hstep : x.stepExponent = x.exponentField - 1 := rfl
  rw [hlimit, hupper]
  -- below the last binade there is room for any significand
  rcases Nat.lt_or_ge x.exponentField 2046 with hlt | hge
  · calc (4 * x.significand + 2) * 2 ^ x.stepExponent
        ≤ 2 ^ 55 * 2 ^ k :=
          Nat.mul_le_mul (by omega) (Nat.pow_le_pow_right Nat.two_pos (by omega))
      _ ≤ (2 ^ 55 - 6) * 2 * 2 ^ k := Nat.mul_le_mul_right _ (by omega)
      _ = (2 ^ 55 - 6) * 2 ^ (k + 1) := by rw [Nat.mul_assoc, ← Nat.pow_succ']
  · exact Nat.mul_le_mul (by omega) (Nat.pow_le_pow_right Nat.two_pos (by omega))

theorem shortest_le_limit (hx : x.units ≠ 0) (hmax : x.magnitude < infinityBits - 1)
    (he : x.shortest.exponent = n) : x.shortest.digits * 10 ^ n ≤ limit := by
  have h2 : (0 : ℚ) < 2 ^ basinExponent := by positivity
  have hle := (shortest_spec hx).2.2
  rw [le_div_iff₀ h2, Decimal.toRat, he, zpow_natCast] at hle
  have hle : x.shortest.digits * 10 ^ n * 2 ^ basinExponent ≤ x.basin.upper := by exact_mod_cast hle
  exact Nat.le_of_mul_le_mul_right (hle.trans (upper_le hmax)) (Nat.two_pow_pos _)

theorem isFinite_at_limit : ∀ n < 309, 291 ≤ n →
    ((ofNat (min (10 ^ 17) (limit / 10 ^ n))).mul (ofNat (10 ^ n))).isFinite = true := by
  intro n hn hge
  -- each power is evaluated for itself, so that what one of them leaves is not kept for the others
  interval_cases n <;> decide +kernel

/-- The digits of a number below the greatest one, times their power of ten. -/
theorem isFinite_mul_shortest (hx : x.units ≠ 0) (hmax : x.magnitude < infinityBits - 1)
    (he : x.shortest.exponent = n) : n ≤ 308 ∧
      ((ofNat x.shortest.digits).mul (powerOfTen n)).isFinite = true := by
  obtain ⟨hpos, hdigits, -⟩ := shortest_spec hx
  have hle := shortest_le_limit hx hmax he
  have hn : n < 309 := by
    obtain ⟨k, hk, htop⟩ : ∃ k, k = 309 ∧ limit < 10 ^ k := ⟨309, rfl, by decide +kernel⟩
    rw [← hk, ← Nat.pow_lt_pow_iff_right (show 1 < 10 by omega)]
    exact Nat.lt_of_le_of_lt ((Nat.le_mul_of_pos_left _ hpos).trans hle) htop
  rw [powerOfTen_eq (by omega)]
  refine ⟨by omega, ?_⟩
  -- products grow with their factors, so that the product at the limit bounds this one
  have hmin {k : Nat} (hk : n ≤ k) (h : x.shortest.digits ≤ min (10 ^ 17) (limit / 10 ^ k))
      (hk' : k < 309) (hge : 291 ≤ k) :
      ((ofNat x.shortest.digits).mul (ofNat (10 ^ n))).isFinite = true := by
    refine isFinite_mul_mono (magnitude_ofNat_mono h)
      (magnitude_ofNat_mono (Nat.pow_le_pow_right (Nat.succ_pos 9) hk))
      (isFinite_ofNat (show 17 ≤ 308 by omega) (Nat.min_le_left _ _))
      (isFinite_ofNat (show k ≤ 308 by omega) (le_refl _)) (isFinite_at_limit k hk' hge)
  rcases Nat.le_total 291 n with hge | hlt
  · exact hmin (le_refl _)
      (Nat.le_min.mpr ⟨hdigits, (Nat.le_div_iff_mul_le (Nat.pow_pos (Nat.succ_pos 9))).mpr hle⟩) hn hge
  · have hsmall : 10 ^ 17 ≤ min (10 ^ 17) (limit / 10 ^ 291) := by decide +kernel
    exact hmin hlt (hdigits.trans hsmall) (by omega) (le_refl _)

/-! ## Texts of numbers -/

/-- The digits and the power of ten that the text of a number is read as: a zero after the point of an
integral number is a digit. -/
def written (x : Binary64) : Nat × Int :=
  let d := x.shortest
  if 0 ≤ d.exponent ∧ d.pointPosition ≤ 16 then (d.digits * 10 ^ (d.exponent.toNat + 1), -1)
  else (d.digits, d.exponent)

/-- The number that the text of a number is read as. -/
def reread (x : Binary64) : Binary64 :=
  let y := (ofScientific x.written.1 x.written.2).getD x
  if x.negative then y.neg else y

/-- What is written depends on the magnitude only. -/
theorem written_congr (h : x.magnitude = y.magnitude) : x.written = y.written := by
  have hexp : x.exponentField = y.exponentField := by rw [exponentField, exponentField, h]
  have hfrac : x.fraction = y.fraction := by rw [fraction, fraction, h]
  have hstep : x.stepExponent = y.stepExponent := by rw [stepExponent, stepExponent, hexp]
  have hsig : x.significand = y.significand := by rw [significand, significand, hexp, hfrac]
  have hunits : x.units = y.units := by rw [units, units, hsig, hstep]
  have hbasin : x.basin = y.basin := by rw [basin, basin, hunits, hstep, hexp, hfrac, hsig]
  rw [written, written, shortest, shortest, hunits, hbasin]

theorem written_zero (hx : x.units = 0) : x.written = (0, -1) := by
  have hshortest : x.shortest = ⟨0, 0⟩ := if_pos hx
  rw [written, hshortest]
  rfl

/-- The greatest number is written with digits below it, whose product with their power of ten is
finite. -/
theorem ofScientific_greatest (hx : x.magnitude = infinityBits - 1) : ∃ y,
    ofScientific x.written.1 x.written.2 = some y ∧ y.isFinite = true := by
  have hmag : x.magnitude = (Binary64.mk 0x7FEFFFFFFFFFFFFF).magnitude := by rw [hx]; rfl
  have hread : (ofScientific (Binary64.mk 0x7FEFFFFFFFFFFFFF).written.1
      (Binary64.mk 0x7FEFFFFFFFFFFFFF).written.2).any isFinite = true := by decide +kernel
  rw [written_congr hmag]
  exact (Option.any_eq_true _ _).mp hread

/-- The digits of a number, times a power of ten that is not below one. -/
theorem ofScientific_shortest (hx : x.isFinite = true) (hzero : x.units ≠ 0)
    (he : 0 ≤ x.shortest.exponent)
    (hmax : x.magnitude ≠ infinityBits - 1) : ∃ y,
      ofScientific x.shortest.digits x.shortest.exponent = some y ∧ y.isFinite = true := by
  obtain ⟨n, hn⟩ := Int.eq_ofNat_of_zero_le he
  have hlt : x.magnitude < infinityBits := of_decide_eq_true hx
  have hinf : infinityBits = 0x7FF0000000000000 := rfl
  obtain ⟨hle, hfin⟩ := isFinite_mul_shortest hzero (by omega) hn
  have hdigits := (shortest_spec hzero).2.1
  rw [hn, ofScientific]
  dsimp only
  rw [if_pos (Int.natCast_nonneg n), if_neg (show ¬ (308 : Int) < n by omega), Int.toNat_natCast]
  simp only [if_pos hfin]
  split_ifs
  · exact ⟨_, rfl, isFinite_ofNat (show 17 ≤ 308 by omega) hdigits⟩
  · exact ⟨_, rfl, hfin⟩

/-- The digits of an integral number that is written without an exponent, and the zero after its
point. -/
theorem digits_mul_le (he : 0 ≤ x.shortest.exponent) (hpoint : x.shortest.pointPosition ≤ 16) :
    x.shortest.digits * 10 ^ (x.shortest.exponent.toNat + 1) ≤ 10 ^ 17 := by
  have hlen := Nat.length_toDigits_pos (b := 10) (n := x.shortest.digits)
  have hlt := (Nat.length_toDigits_le_iff (by decide) hlen).mp (le_refl _)
  rw [Decimal.pointPosition, Decimal.digitChars] at hpoint
  calc x.shortest.digits * 10 ^ (x.shortest.exponent.toNat + 1)
      ≤ 10 ^ (Nat.toDigits 10 x.shortest.digits).length *
          10 ^ (x.shortest.exponent.toNat + 1) := Nat.mul_le_mul_right _ hlt.le
    _ = 10 ^ ((Nat.toDigits 10 x.shortest.digits).length + (x.shortest.exponent.toNat + 1)) :=
      (Nat.pow_add ..).symm
    _ ≤ 10 ^ 17 := Nat.pow_le_pow_right (Nat.succ_pos 9) (by omega)

/-- The text of a finite number is read as a finite number. -/
theorem ofScientific_written (hx : x.isFinite = true) : ∃ y,
    ofScientific x.written.1 x.written.2 = some y ∧ y.isFinite = true := by
  by_cases hzero : x.units = 0
  · rw [written_zero hzero]
    exact ofScientific_of_neg (n := 0) (by decide) (by decide) (by decide)
  -- the limit says nothing about the greatest number, which is read by itself
  by_cases hmax : x.magnitude = infinityBits - 1
  · exact ofScientific_greatest hmax
  have hdigits := (shortest_spec hzero).2.1
  unfold written
  dsimp only
  split_ifs with h
  · exact ofScientific_of_neg (n := 17) (e := -1) (by decide) (by decide) (digits_mul_le h.1 h.2)
  · rcases Int.lt_or_le x.shortest.exponent 0 with he | he
    · exact ofScientific_of_neg he (show 17 ≤ 308 by omega) hdigits
    · exact ofScientific_shortest hx hzero he hmax

theorem magnitude_neg (x : Binary64) : x.neg.magnitude = x.magnitude := by
  change (x.bits ^^^ 0x8000000000000000).toNat % 2 ^ 63 = x.bits.toNat % 2 ^ 63
  rw [UInt64.toNat_xor, Nat.xor_mod_two_pow]
  exact Nat.xor_zero _

/-- What is read is finite. -/
theorem isFinite_reread (hx : x.isFinite = true) : x.reread.isFinite = true := by
  obtain ⟨y, hy, hfin⟩ := ofScientific_written hx
  rw [reread, hy]
  dsimp only [Option.getD_some]
  split_ifs
  · rwa [isFinite, magnitude_neg]
  · exact hfin

end FlowEngine.Binary64
