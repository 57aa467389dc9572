import FlowEngine.Number.Binary64
import Mathlib.Algebra.Ring.Nat
import Mathlib.Data.List.Basic

/-!
# Rounding to binary64

* `roundUnits_mono` — a greater number is not rounded to a smaller one.
* `units_mono` — greater magnitude bits stand for greater numbers.
* `isFinite_mul_mono`, `isFinite_div` — products and quotients that are finite.
-/

namespace FlowEngine

variable {num num' den den' n m m' : Nat} {x x' y y' : Binary64}

/-! ## Integers -/

theorem div_le_roundHalfEven (num den : Nat) : num / den ≤ roundHalfEven num den := by
  unfold roundHalfEven
  dsimp only
  split_ifs <;> omega

theorem roundHalfEven_le_div_succ (num den : Nat) : roundHalfEven num den ≤ num / den + 1 := by
  unfold roundHalfEven
  dsimp only
  split_ifs <;> omega

/-- A greater fraction is not rounded to a smaller integer. -/
theorem roundHalfEven_mono (hden : 0 < den) (hden' : 0 < den') (h : num * den' ≤ num' * den) :
    roundHalfEven num den ≤ roundHalfEven num' den' := by
  have hdiv : num / den ≤ num' / den' := by
    rw [Nat.le_div_iff_mul_le hden']
    refine Nat.le_of_mul_le_mul_right (Nat.le_trans ?_ h) hden
    calc num / den * den' * den = num / den * den * den' := Nat.mul_right_comm _ _ _
      _ ≤ num * den' := Nat.mul_le_mul_right _ (Nat.div_mul_le_self _ _)
  rcases Nat.lt_or_eq_of_le hdiv with hlt | heq
  · exact Nat.le_trans (roundHalfEven_le_div_succ num den)
      (Nat.le_trans hlt (div_le_roundHalfEven num' den'))
  · -- between the same integers, only the remainder grows
    have hr : num % den * den' ≤ num' % den' * den := by
      have h₁ := congrArg (· * den') (Nat.div_add_mod num den)
      have h₂ := congrArg (· * den) (Nat.div_add_mod num' den')
      simp only [Nat.add_mul, ← heq] at h₁ h₂
      have : den * (num / den) * den' = den' * (num / den) * den := by
        rw [Nat.mul_right_comm den' _ den, Nat.mul_right_comm den _ den', Nat.mul_comm den den']
      omega
    have hbelow (hb : 2 * (num' % den') < den') : 2 * (num % den) < den := by
      refine Nat.lt_of_mul_lt_mul_right (a := den') ?_
      have := Nat.mul_lt_mul_of_pos_right hb hden
      rw [Nat.mul_assoc] at this ⊢
      rw [Nat.mul_comm den den']
      omega
    have habove (ha : den < 2 * (num % den)) : den' < 2 * (num' % den') := by
      refine Nat.lt_of_mul_lt_mul_right (a := den) ?_
      have := Nat.mul_lt_mul_of_pos_right ha hden'
      rw [Nat.mul_assoc] at this ⊢
      rw [Nat.mul_comm den' den]
      omega
    unfold roundHalfEven
    dsimp only
    rw [heq]
    split_ifs <;> omega

theorem roundHalfEven_lt_of_lt (hden : 0 < den) (h : num < n * den) : roundHalfEven num den ≤ n :=
  Nat.le_trans (roundHalfEven_le_div_succ num den) ((Nat.div_lt_iff_lt_mul hden).mpr h)

theorem le_roundHalfEven_of_le (hden : 0 < den) (h : n * den ≤ num) : n ≤ roundHalfEven num den :=
  Nat.le_trans ((Nat.le_div_iff_mul_le hden).mpr h) (div_le_roundHalfEven num den)

namespace Binary64

/-! ## Magnitude bits -/

/-- How many places are cut off to leave 53 bits. -/
def cutPlaces (num den : Nat) : Nat := Nat.log2 (num / den) - 52

theorem lt_cut (num den : Nat) (hden : 0 < den) : num < 2 ^ 53 * (den * 2 ^ cutPlaces num den) := by
  have h : num / den < 2 ^ (53 + cutPlaces num den) :=
    Nat.lt_of_lt_of_le Nat.lt_log2_self (Nat.pow_le_pow_right (by decide) (by unfold cutPlaces; omega))
  rw [Nat.div_lt_iff_lt_mul hden, Nat.pow_add] at h
  rwa [Nat.mul_comm den, ← Nat.mul_assoc]

theorem cut_le (hcut : 0 < cutPlaces num den) (hden : 0 < den) :
    2 ^ 52 * (den * 2 ^ cutPlaces num den) ≤ num := by
  have hne : num / den ≠ 0 := by
    rintro h
    rw [cutPlaces, h] at hcut
    exact absurd hcut (by decide)
  have h : 2 ^ (52 + cutPlaces num den) ≤ num / den :=
    Nat.le_trans (Nat.pow_le_pow_right (by decide) (by unfold cutPlaces at hcut ⊢; omega))
      (Nat.log2_self_le hne)
  rw [Nat.le_div_iff_mul_le hden, Nat.pow_add] at h
  rwa [Nat.mul_comm den, ← Nat.mul_assoc]

theorem roundUnits_eq (num den : Nat) : roundUnits num den =
    cutPlaces num den * 2 ^ 52 + roundHalfEven num (den * 2 ^ cutPlaces num den) := rfl

theorem cutPlaces_mono (h : num / den ≤ num' / den') : cutPlaces num den ≤ cutPlaces num' den' := by
  have hlog : Nat.log2 (num / den) ≤ Nat.log2 (num' / den') := by
    rcases Nat.eq_zero_or_pos (num / den) with hzero | hpos
    · rw [hzero]
      exact Nat.zero_le _
    · exact (Nat.le_log2 (by omega)).mpr (Nat.le_trans (Nat.log2_self_le (by omega)) h)
  exact Nat.sub_le_sub_right hlog 52

/-- A greater fraction is not rounded to smaller magnitude bits. -/
theorem roundUnits_mono (hden : 0 < den) (hden' : 0 < den') (h : num * den' ≤ num' * den) :
    roundUnits num den ≤ roundUnits num' den' := by
  have hpos {den : Nat} (hden : 0 < den) (k : Nat) : 0 < den * 2 ^ k :=
    Nat.mul_pos hden (Nat.two_pow_pos k)
  have hdiv : num / den ≤ num' / den' := by
    rw [Nat.le_div_iff_mul_le hden']
    refine Nat.le_of_mul_le_mul_right (Nat.le_trans ?_ h) hden
    rw [Nat.mul_right_comm]
    exact Nat.mul_le_mul_right _ (Nat.div_mul_le_self _ _)
  rw [roundUnits_eq, roundUnits_eq]
  rcases Nat.lt_or_eq_of_le (cutPlaces_mono hdiv) with hlt | heq
  · -- a carry out of the significand reaches the next power of two, and no further
    have hup := roundHalfEven_lt_of_lt (hpos hden _) (lt_cut num den hden)
    have hlow := le_roundHalfEven_of_le (hpos hden' _) (cut_le (Nat.zero_lt_of_lt hlt) hden')
    omega
  · rw [heq]
    refine Nat.add_le_add_left (roundHalfEven_mono (hpos hden _) (hpos hden' _) ?_) _
    rw [← Nat.mul_assoc, ← Nat.mul_assoc]
    exact Nat.mul_le_mul_right _ h

theorem magnitude_ofMagnitude (s : Bool) (m : Nat) :
    (ofMagnitude s m).magnitude = min m infinityBits := by
  have hinf : infinityBits = 0x7FF0000000000000 := rfl
  have hle : min m infinityBits ≤ infinityBits := Nat.min_le_right _ _
  unfold ofMagnitude magnitude
  dsimp only
  rw [UInt64.toNat_ofNat']
  cases s
  · simp only [Bool.false_eq_true, if_false]
    omega
  · simp only [if_true]
    omega

theorem isFinite_ofMagnitude (s : Bool) (m : Nat) :
    (ofMagnitude s m).isFinite = true ↔ m < infinityBits := by
  rw [isFinite, magnitude_ofMagnitude, decide_eq_true_iff]
  omega

/-- The units that magnitude bits stand for. -/
def unitsOf (m : Nat) : Nat :=
  (if m / 2 ^ 52 = 0 then m % 2 ^ 52 else m % 2 ^ 52 + 2 ^ 52) * 2 ^ (m / 2 ^ 52 - 1)

theorem unitsOf_mono (h : m ≤ m') : unitsOf m ≤ unitsOf m' := by
  have hdiv : m / 2 ^ 52 ≤ m' / 2 ^ 52 := Nat.div_le_div_right h
  have hlt : m % 2 ^ 52 < 2 ^ 52 := Nat.mod_lt _ (by decide)
  have h₁ := Nat.div_add_mod m (2 ^ 52)
  have h₂ := Nat.div_add_mod m' (2 ^ 52)
  unfold unitsOf
  rcases Nat.lt_or_eq_of_le hdiv with hexp | heq
  · rw [if_neg (by omega : ¬ m' / 2 ^ 52 = 0)]
    rcases Nat.eq_zero_or_pos (m / 2 ^ 52) with hzero | hpos
    · -- subnormal numbers are below all others
      rw [if_pos hzero, hzero]
      have := Nat.le_mul_of_pos_right (m' % 2 ^ 52 + 2 ^ 52) (Nat.two_pow_pos (m' / 2 ^ 52 - 1))
      simp only [Nat.zero_sub, Nat.pow_zero, Nat.mul_one]
      omega
    · rw [if_neg (by omega)]
      calc (m % 2 ^ 52 + 2 ^ 52) * 2 ^ (m / 2 ^ 52 - 1)
          ≤ 2 ^ 53 * 2 ^ (m / 2 ^ 52 - 1) := Nat.mul_le_mul_right _ (by omega)
        _ = 2 ^ 52 * 2 ^ (m / 2 ^ 52 - 1 + 1) := by rw [Nat.pow_succ]; omega
        _ ≤ 2 ^ 52 * 2 ^ (m' / 2 ^ 52 - 1) :=
          Nat.mul_le_mul_left _ (Nat.pow_le_pow_right (by decide) (by omega))
        _ ≤ (m' % 2 ^ 52 + 2 ^ 52) * 2 ^ (m' / 2 ^ 52 - 1) := Nat.mul_le_mul_right _ (by omega)
  · rw [heq] at h₁ ⊢
    refine Nat.mul_le_mul_right _ ?_
    split_ifs <;> omega

theorem units_mono (h : x.magnitude ≤ x'.magnitude) : x.units ≤ x'.units := unitsOf_mono h

/-! ## Products and quotients -/

theorem unitsOfOne_pos : 0 < unitsOfOne := by decide +kernel

theorem view_of_isFinite (h : x.isFinite = true) : x.view = .finite x.negative x.units := by
  rw [view, if_pos (of_decide_eq_true h)]

theorem isFinite_of_magnitude_le (h : x.magnitude ≤ x'.magnitude) (hx' : x'.isFinite = true) :
    x.isFinite = true :=
  decide_eq_true (Nat.lt_of_le_of_lt h (of_decide_eq_true hx'))

/-- A product of finite numbers is finite if that of greater ones is. -/
theorem isFinite_mul_mono (hx : x.magnitude ≤ x'.magnitude) (hy : y.magnitude ≤ y'.magnitude)
    (hx' : x'.isFinite = true) (hy' : y'.isFinite = true) (h : (x'.mul y').isFinite = true) :
    (x.mul y).isFinite = true := by
  have hmul {x y : Binary64} (hx : x.isFinite = true) (hy : y.isFinite = true) :
      (x.mul y).isFinite = true ↔ roundUnits (x.units * y.units) unitsOfOne < infinityBits := by
    rw [mul, view_of_isFinite hx, view_of_isFinite hy]
    exact isFinite_ofMagnitude _ _
  rw [hmul (isFinite_of_magnitude_le hx hx') (isFinite_of_magnitude_le hy hy')]
  refine Nat.lt_of_le_of_lt (roundUnits_mono unitsOfOne_pos unitsOfOne_pos ?_) ((hmul hx' hy').mp h)
  exact Nat.mul_le_mul_right _ (Nat.mul_le_mul (units_mono hx) (units_mono hy))

/-- A greater natural number is rounded to greater magnitude bits. -/
theorem magnitude_ofNat_mono (h : n ≤ m) : (ofNat n).magnitude ≤ (ofNat m).magnitude := by
  rw [ofNat, ofNat, ofRatio, ofRatio, magnitude_ofMagnitude, magnitude_ofMagnitude]
  have := roundUnits_mono Nat.one_pos Nat.one_pos
    (Nat.mul_le_mul_right 1 (Nat.mul_le_mul_right unitsOfOne h))
  omega

/-- No finite number has more units than the greatest one. -/
theorem roundUnits_units_lt (hx : x.isFinite = true) : roundUnits x.units 1 < infinityBits := by
  have hle : x.units ≤ unitsOf (infinityBits - 1) :=
    unitsOf_mono (Nat.le_sub_one_of_lt (of_decide_eq_true hx))
  have hmax : roundUnits (unitsOf (infinityBits - 1)) 1 < infinityBits := by decide +kernel
  exact Nat.lt_of_le_of_lt (roundUnits_mono Nat.one_pos Nat.one_pos (Nat.mul_le_mul_right 1 hle)) hmax

/-- A quotient by a number that is not below one is finite. -/
theorem isFinite_div (hx : x.isFinite = true) (hy : y.isFinite = true) (h : unitsOfOne ≤ y.units) :
    (x.div y).isFinite = true := by
  have hpos : 0 < y.units := Nat.lt_of_lt_of_le unitsOfOne_pos h
  rw [div, view_of_isFinite hx, view_of_isFinite hy]
  dsimp only
  rw [if_neg (Nat.ne_of_gt hpos), ofRatio, isFinite_ofMagnitude]
  refine Nat.lt_of_le_of_lt (roundUnits_mono hpos Nat.one_pos ?_) (roundUnits_units_lt hx)
  rw [Nat.mul_one]
  exact Nat.mul_le_mul_left _ h

end Binary64

end FlowEngine
