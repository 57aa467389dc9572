import FlowEngine.Number.Decimal
import FlowEngine.Proofs.Number.Rounding
import Mathlib.Algebra.Order.Field.Power
import Mathlib.Tactic.FieldSimp
import Mathlib.Tactic.Linarith
import Mathlib.Tactic.NormNum
import Mathlib.Tactic.Positivity
import Mathlib.Tactic.Ring

/-!
# The fewest digits of a number

* `decimalLength_spec`, `Binary64.decimalPlace_spec` — where the first digit stands.
* `Binary64.onGrid_isSome` — seventeen digits are enough for a decimal that rounds to the number.
* `Binary64.shortest_spec` — the decimal that is written rounds to the number.
-/

namespace FlowEngine

variable {n k c fuel : Nat} {p : Int}

/-! ## Digits of natural numbers -/

theorem decimalLength_go (h : n < 2 ^ fuel) (hn : 0 < n) :
    10 ^ (decimalLength.go fuel n - 1) ≤ n ∧ n < 10 ^ decimalLength.go fuel n ∧
      0 < decimalLength.go fuel n := by
  induction fuel generalizing n with
  | zero => omega
  | succ fuel ih =>
    rw [decimalLength.go, if_neg (by omega)]
    rcases Nat.eq_zero_or_pos (n / 10) with hzero | hpos
    · have hgo : decimalLength.go fuel 0 = 0 := by cases fuel <;> rfl
      rw [hzero, hgo]
      omega
    · rw [Nat.pow_succ] at h
      obtain ⟨hle, hlt, hgo⟩ := ih (by omega) hpos
      obtain ⟨l, hl⟩ := Nat.exists_eq_add_one_of_ne_zero (Nat.ne_of_gt hgo)
      rw [hl] at hle hlt ⊢
      rw [Nat.add_sub_cancel] at hle ⊢
      rw [Nat.pow_succ] at hlt ⊢
      rw [Nat.pow_succ]
      omega

/-- The number of digits of a positive number. -/
theorem decimalLength_spec (hn : 0 < n) : 10 ^ (decimalLength n - 1) ≤ n ∧ n < 10 ^ decimalLength n ∧
    0 < decimalLength n := by
  rw [decimalLength]
  exact decimalLength_go Nat.lt_log2_self hn

namespace Binary64

/-! ## Decimals as rational numbers -/

theorem ten_zpow_pos (p : Int) : (0 : ℚ) < 10 ^ p := by positivity

theorem compareDecimal_eq (c : Nat) (p : Int) (n k : Nat) :
    (compareDecimal c p n k = .lt ↔ (c : ℚ) * 10 ^ p < n / 2 ^ k) ∧
      (compareDecimal c p n k = .gt ↔ (n : ℚ) / 2 ^ k < c * 10 ^ p) := by
  have h2 : (0 : ℚ) < 2 ^ k := by positivity
  rw [lt_div_iff₀ h2, div_lt_iff₀ h2, compareDecimal]
  split_ifs with hp
  · obtain ⟨m, rfl⟩ := Int.eq_ofNat_of_zero_le hp
    rw [Nat.compare_eq_lt, Nat.compare_eq_gt]
    change (c * 10 ^ m * 2 ^ k < n ↔ _) ∧ (n < c * 10 ^ m * 2 ^ k ↔ _)
    rw [← Nat.cast_lt (α := ℚ), ← Nat.cast_lt (α := ℚ)]
    push_cast
    exact ⟨Iff.rfl, Iff.rfl⟩
  · obtain ⟨m, hm⟩ := Int.eq_ofNat_of_zero_le (show 0 ≤ -p by omega)
    obtain rfl : p = -(m : Int) := by omega
    have h10 : (0 : ℚ) < 10 ^ m := by positivity
    rw [Nat.compare_eq_lt, Nat.compare_eq_gt, neg_neg, Int.toNat_natCast]
    change (c * 2 ^ k < n * 10 ^ m ↔ _) ∧ (n * 10 ^ m < c * 2 ^ k ↔ _)
    rw [← Nat.cast_lt (α := ℚ), ← Nat.cast_lt (α := ℚ), zpow_neg, zpow_natCast,
      show (c : ℚ) * (10 ^ m)⁻¹ * 2 ^ k = c * 2 ^ k / 10 ^ m by field_simp, div_lt_iff₀ h10,
      lt_div_iff₀ h10]
    push_cast
    exact ⟨Iff.rfl, Iff.rfl⟩

/-- The multiples of a power of ten on both sides of a number. -/
theorem decimalFloor_spec (n k : Nat) (p : Int) : (decimalFloor n k p : ℚ) * 10 ^ p ≤ n / 2 ^ k ∧
    (n : ℚ) / 2 ^ k < (decimalFloor n k p + 1 : Nat) * 10 ^ p := by
  have h2 : (0 : ℚ) < 2 ^ k := by positivity
  have floor (a b : Nat) (hb : 0 < b) : ((a / b : Nat) : ℚ) * b ≤ a ∧ (a : ℚ) < ((a / b : Nat) + 1) * b := by
    constructor
    · exact_mod_cast Nat.div_mul_le_self a b
    · exact_mod_cast Nat.lt_mul_of_div_lt (Nat.lt_succ_self _) hb
  rw [le_div_iff₀ h2, div_lt_iff₀ h2]
  rcases Int.le_total 0 p with hp | hp
  · obtain ⟨m, rfl⟩ := Int.eq_ofNat_of_zero_le hp
    have heq : decimalFloor n k m = n / (2 ^ k * 10 ^ m) := if_pos hp
    have h := floor n (2 ^ k * 10 ^ m) (by positivity)
    rw [heq, zpow_natCast]
    push_cast at h ⊢
    constructor <;> linarith [h.1, h.2]
  · obtain ⟨m, hm⟩ := Int.eq_ofNat_of_zero_le (show 0 ≤ -p by omega)
    obtain rfl : p = -(m : Int) := by omega
    have h10 : (0 : ℚ) < 10 ^ m := by positivity
    have heq : decimalFloor n k (-(m : Int)) = n * 10 ^ m / 2 ^ k := by
      unfold decimalFloor
      split_ifs with h
      · obtain rfl : m = 0 := by omega
        simp
      · rw [neg_neg]
        rfl
    have h := floor (n * 10 ^ m) (2 ^ k) (by positivity)
    have scale (a : ℚ) : a * 10 ^ (-(m : Int)) * 2 ^ k = a * 2 ^ k / 10 ^ m := by
      rw [zpow_neg, zpow_natCast]
      field_simp
    rw [heq, scale, scale, div_le_iff₀ h10, lt_div_iff₀ h10]
    push_cast at h ⊢
    exact h

/-- A positive number has its first digit at its decimal place. -/
theorem decimalPlace_spec (hn : 0 < n) : (10 : ℚ) ^ (decimalPlace n k - 1) ≤ n / 2 ^ k ∧
    (n : ℚ) / 2 ^ k < 10 ^ decimalPlace n k := by
  have h2 : (0 : ℚ) < 2 ^ k := by positivity
  have hn' : (0 : ℚ) < n := by exact_mod_cast hn
  have cast (l : Nat) (hl : 0 < l) : (10 : ℚ) ^ ((l : Int) - 1) = ((10 ^ (l - 1) : Nat) : ℚ) := by
    obtain ⟨l, rfl⟩ := Nat.exists_eq_add_one_of_ne_zero (Nat.ne_of_gt hl)
    rw [Nat.add_sub_cancel, Nat.cast_pow, ← zpow_natCast]
    congr 1
    push_cast
    ring
  by_cases h : 2 ^ k ≤ n
  · -- the digits of the integer part
    have hplace : decimalPlace n k = decimalLength (n / 2 ^ k) := if_pos h
    obtain ⟨hle, hlt, hpos⟩ := decimalLength_spec (Nat.div_pos h (by positivity))
    rw [hplace, cast _ hpos, zpow_natCast, le_div_iff₀ h2, div_lt_iff₀ h2]
    have hdiv := Nat.div_mul_le_self n (2 ^ k)
    have hdiv' := Nat.lt_mul_of_div_lt (Nat.lt_succ_self (n / 2 ^ k)) (by positivity : 0 < 2 ^ k)
    constructor
    · exact_mod_cast Nat.le_trans (Nat.mul_le_mul_right _ hle) hdiv
    · exact_mod_cast Nat.lt_of_lt_of_le hdiv' (Nat.mul_le_mul_right _ hlt)
  · -- the zeros after the point: as many as the reciprocal has digits before it
    have hplace : decimalPlace n k = 1 - (decimalLength ((2 ^ k + n - 1) / n - 1) : Int) := if_neg h
    have hd := Nat.div_mul_le_self (2 ^ k + n - 1) n
    have hd' := Nat.lt_mul_of_div_lt (Nat.lt_succ_self ((2 ^ k + n - 1) / n)) hn
    have hone : 1 < (2 ^ k + n - 1) / n := (Nat.lt_div_iff_mul_lt hn).mpr (by omega)
    obtain ⟨q, hq⟩ : ∃ q, (2 ^ k + n - 1) / n = q + 1 := ⟨_, (Nat.sub_add_cancel hone.le).symm⟩
    rw [hq] at hplace hd hd' hone
    rw [Nat.add_sub_cancel] at hplace
    obtain ⟨hle, hlt, hpos⟩ := decimalLength_spec (show 0 < q by omega)
    have hlow : 2 ^ k ≤ (q + 1) * n := by
      rw [Nat.succ_mul] at hd'
      omega
    have hhigh : q * n < 2 ^ k := by
      rw [Nat.succ_mul] at hd
      omega
    have h10 : (0 : ℚ) < 10 ^ decimalLength q := by positivity
    rw [hplace, show 1 - (decimalLength q : Int) - 1 = -(decimalLength q : Int) by ring,
      show 1 - (decimalLength q : Int) = -((decimalLength q : Int) - 1) by ring, zpow_neg, zpow_neg,
      cast _ hpos, zpow_natCast, inv_eq_one_div, inv_eq_one_div, div_le_div_iff₀ h10 h2,
      div_lt_div_iff₀ h2 (by positivity), one_mul,
      mul_comm (n : ℚ), mul_comm (n : ℚ)]
    constructor
    · exact_mod_cast Nat.le_trans hlow (Nat.mul_le_mul_right n hlt)
    · exact_mod_cast Nat.lt_of_le_of_lt (Nat.mul_le_mul_right n hle) hhigh

/-! ## Decimals that round to a number -/

/-- A decimal between the ends rounds to the number. -/
theorem Basin.contains_of_lt {b : Basin} (hl : (b.lower : ℚ) / 2 ^ basinExponent < c * 10 ^ p)
    (hu : (c : ℚ) * 10 ^ p < b.upper / 2 ^ basinExponent) : b.contains c p = true := by
  have hlow := (compareDecimal_eq c p b.lower basinExponent).2.mpr hl
  have hhigh := (compareDecimal_eq c p b.upper basinExponent).1.mpr hu
  unfold Basin.contains
  rw [hlow, hhigh]
  cases b.closed <;> rfl

/-- A decimal that rounds to the number is not beyond the ends. -/
theorem Basin.bounds_of_contains {b : Basin} (h : b.contains c p = true) :
    (b.lower : ℚ) / 2 ^ basinExponent ≤ c * 10 ^ p ∧
      (c : ℚ) * 10 ^ p ≤ b.upper / 2 ^ basinExponent := by
  rw [← not_lt, ← not_lt, ← (compareDecimal_eq c p b.lower basinExponent).1,
    ← (compareDecimal_eq c p b.upper basinExponent).2]
  unfold Basin.contains at h
  dsimp only at h
  split_ifs at h
  · simpa using h
  · rw [Bool.and_eq_true, beq_iff_eq, beq_iff_eq] at h
    simp [h.1, h.2]

/-- What is found on a grid is one of the two neighbours of the number, and rounds to it. -/
theorem Basin.onGrid_spec {b : Basin} {d : Decimal} (h : b.onGrid p = some d) :
    d.exponent = p ∧ b.contains d.digits p = true ∧
      d.digits ≤ decimalFloor b.value basinExponent p + 1 := by
  unfold Basin.onGrid at h
  dsimp only at h
  split at h
  next hlow hhigh =>
    rw [Bool.and_eq_true] at hlow
    cases h
    dsimp only
    split_ifs
    · exact ⟨rfl, hhigh, le_refl _⟩
    · exact ⟨rfl, hlow.1, Nat.le_succ _⟩
  next hlow _ =>
    rw [Bool.and_eq_true] at hlow
    cases h
    exact ⟨rfl, hlow.1, Nat.le_succ _⟩
  next hhigh =>
    cases h
    exact ⟨rfl, hhigh, le_refl _⟩
  next => cases h

/-- A grid that is finer than the interval holds a decimal that rounds to the number. -/
theorem Basin.onGrid_isSome {b : Basin} (hl : b.lower < b.value) (hu : b.value < b.upper)
    (h : (10 : ℚ) ^ p < (b.upper - b.lower) / 2 ^ basinExponent) : (b.onGrid p).isSome := by
  have h2 : (0 : ℚ) < 2 ^ basinExponent := by positivity
  have hlq : (b.lower : ℚ) / 2 ^ basinExponent < b.value / 2 ^ basinExponent := by gcongr
  have huq : (b.value : ℚ) / 2 ^ basinExponent < b.upper / 2 ^ basinExponent := by gcongr
  obtain ⟨hfloor, hceil⟩ := decimalFloor_spec b.value basinExponent p
  rw [sub_div] at h
  generalize hc : decimalFloor b.value basinExponent p = c at hfloor hceil
  have hsome : (b.contains c p && 0 < c) = true ∨ b.contains (c + 1) p = true := by
    rcases lt_or_ge ((b.lower : ℚ) / 2 ^ basinExponent) (c * 10 ^ p) with hlow | hlow
    · left
      have hpos : 0 < c := by
        rw [Nat.pos_iff_ne_zero]
        rintro rfl
        have := div_nonneg (Nat.cast_nonneg (α := ℚ) b.lower) h2.le
        simp only [Nat.cast_zero, zero_mul] at hlow
        linarith
      rw [Basin.contains_of_lt hlow (by linarith), decide_eq_true hpos]
      rfl
    · right
      refine Basin.contains_of_lt (by linarith) ?_
      push_cast
      linarith
  unfold Basin.onGrid
  dsimp only
  rw [hc]
  rcases hsome with hlow | hhigh
  · rw [hlow]
    cases b.contains (c + 1) p <;> rfl
  · rw [hhigh]
    cases (b.contains c p && decide (0 < c)) <;> rfl

/-- The search stops at a grid that holds such a decimal. -/
theorem Basin.search_spec {b : Basin} {j : Nat} (hj : j < fuel) (h : (b.onGrid (p - j)).isSome) :
    ∃ i ≤ j, b.onGrid (p - i) = some (b.search fuel p) := by
  induction fuel generalizing p j with
  | zero => omega
  | succ fuel ih =>
    rw [Basin.search]
    rcases hgrid : b.onGrid p with _ | d
    · obtain ⟨j, rfl⟩ : ∃ j', j = j' + 1 := Nat.exists_eq_add_one_of_ne_zero (by
        rintro rfl
        rw [Nat.cast_zero, sub_zero, hgrid] at h
        cases h)
      obtain ⟨i, hi, hgrid'⟩ := ih (p := p - 1) (j := j) (by omega)
        (by rwa [show p - 1 - (j : Int) = p - (j + 1 : Nat) by push_cast; ring])
      exact ⟨i + 1, by omega, by
        rw [show p - ((i + 1 : Nat) : Int) = p - 1 - i by push_cast; ring]
        exact hgrid'⟩
    · exact ⟨0, Nat.zero_le _, by rw [Nat.cast_zero, sub_zero, hgrid]; rfl⟩

/-! ## Seventeen digits -/

variable {x : Binary64}

theorem significand_lt (x : Binary64) : x.significand < 2 ^ 53 := by
  have h : x.fraction < 2 ^ 52 := Nat.mod_lt _ (by decide)
  unfold significand
  split_ifs <;> omega

/-- The interval of a number is wider than a grid with seventeen digits. -/
theorem basin_wide (hx : x.units ≠ 0) : x.basin.lower < x.basin.value ∧ 0 < x.basin.lower ∧
    x.basin.value < x.basin.upper ∧
      (x.basin.value : ℚ) / 10 ^ 16 < x.basin.upper - x.basin.lower := by
  obtain ⟨step, hstep⟩ : ∃ step, step = Nat.pow 2 x.stepExponent := ⟨_, rfl⟩
  have hpos : 0 < step := hstep ▸ Nat.two_pow_pos _
  have hunits : x.units = x.significand * step := by rw [units, hstep]
  have hsig : 0 < x.significand := Nat.pos_of_ne_zero fun h => hx (by rw [hunits, h, Nat.zero_mul])
  have hlt := significand_lt x
  have hle : step ≤ x.significand * step := Nat.le_mul_of_pos_left step hsig
  have hpos' : (0 : ℚ) < step := by exact_mod_cast hpos
  unfold basin
  dsimp only
  rw [← hstep, hunits]
  by_cases hpower : x.fraction = 0 ∧ 1 < x.exponentField
  · -- a power of two: the neighbour below is half as far away
    have hsig52 : x.significand = 2 ^ 52 := by
      unfold significand
      rw [if_neg (by omega), hpower.1]
      rfl
    rw [if_pos hpower, hsig52]
    refine ⟨by omega, by omega, by omega, ?_⟩
    rw [Nat.cast_sub (by omega)]
    push_cast
    linarith
  · rw [if_neg hpower]
    refine ⟨by omega, by omega, by omega, ?_⟩
    rw [Nat.cast_sub (by omega)]
    push_cast
    have : (x.significand : ℚ) * step ≤ (2 ^ 53 - 1) * step := by
      refine mul_le_mul_of_nonneg_right ?_ hpos'.le
      have : (x.significand : ℚ) + 1 ≤ 2 ^ 53 := by exact_mod_cast hlt
      linarith
    linarith

end Binary64

/-! ## Stripping zeros -/

/-- The value of a decimal. -/
def Decimal.toRat (d : Decimal) : ℚ := d.digits * 10 ^ d.exponent

theorem Decimal.normalize_go (fuel : Nat) (d : Decimal) :
    (normalize.go fuel d).toRat = d.toRat ∧ (normalize.go fuel d).digits ≤ d.digits := by
  induction fuel generalizing d with
  | zero => exact ⟨rfl, le_refl _⟩
  | succ fuel ih =>
    rw [normalize.go]
    split_ifs with h
    · obtain ⟨hval, hle⟩ := ih ⟨d.digits / 10, d.exponent + 1⟩
      refine ⟨hval.trans ?_, hle.trans (Nat.div_le_self _ _)⟩
      have hdiv : d.digits = 10 * (d.digits / 10) := by omega
      unfold toRat
      dsimp only
      rw [zpow_add_one₀ (by norm_num)]
      conv_rhs => rw [hdiv]
      push_cast
      ring
    · exact ⟨rfl, le_refl _⟩

/-- Stripping zeros leaves the value as it is. -/
theorem Decimal.normalize_spec (d : Decimal) :
    d.normalize.toRat = d.toRat ∧ d.normalize.digits ≤ d.digits := normalize_go _ d

namespace Binary64

variable {x : Binary64}

/-- The decimal that is written for a number other than zero rounds to it, and has at most seventeen
digits. -/
theorem shortest_spec (hx : x.units ≠ 0) : 0 < x.shortest.digits ∧ x.shortest.digits ≤ 10 ^ 17 ∧
    x.shortest.toRat ≤ x.basin.upper / 2 ^ basinExponent := by
  obtain ⟨hl, hpos, hu, hwide⟩ := basin_wide hx
  have hshortest : x.shortest =
      (x.basin.search 17 (decimalPlace x.basin.value basinExponent - 1)).normalize := if_neg hx
  generalize hp : decimalPlace x.basin.value basinExponent - 1 = p at hshortest
  have h2 : (0 : ℚ) < 2 ^ basinExponent := by positivity
  obtain ⟨hplace, hplace'⟩ := decimalPlace_spec (k := basinExponent) (show 0 < x.basin.value by omega)
  rw [hp] at hplace
  rw [show decimalPlace x.basin.value basinExponent = p + 1 by omega] at hplace'
  -- the last of the grids is finer than the interval
  have hgrid : (x.basin.onGrid (p - (16 : Nat))).isSome := by
    refine Basin.onGrid_isSome hl hu ?_
    calc (10 : ℚ) ^ (p - (16 : Nat)) = 10 ^ p / 10 ^ 16 := by
          rw [zpow_sub₀ (by norm_num), zpow_natCast]
      _ ≤ x.basin.value / 2 ^ basinExponent / 10 ^ 16 := by gcongr
      _ = x.basin.value / 10 ^ 16 / 2 ^ basinExponent := div_right_comm _ _ _
      _ < _ := by gcongr
  have hfuel : 16 < 17 := by norm_num
  obtain ⟨i, hi, hfound⟩ := Basin.search_spec hfuel hgrid
  obtain ⟨hexp, hcontains, hdigits⟩ := Basin.onGrid_spec hfound
  obtain ⟨hval, hle⟩ := Decimal.normalize_spec (x.basin.search 17 p)
  rw [← hshortest] at hval hle
  obtain ⟨hlower, hupper⟩ := Basin.bounds_of_contains hcontains
  rw [← hexp] at hlower hupper
  have hpow := ten_zpow_pos (p - i)
  refine ⟨Nat.pos_of_ne_zero fun hzero => ?_, ?_, ?_⟩
  · have hlow : (0 : ℚ) < x.basin.lower / 2 ^ basinExponent :=
      div_pos (by exact_mod_cast hpos) h2
    have : x.shortest.toRat = 0 := by rw [Decimal.toRat, hzero, Nat.cast_zero, zero_mul]
    rw [hval, Decimal.toRat] at this
    exact absurd (this ▸ hlower) (not_le.mpr hlow)
  · -- a multiple of the grid below the number has no more digits than the grid is finer
    have hfloor := (decimalFloor_spec x.basin.value basinExponent (p - i)).1
    have hlt : (decimalFloor x.basin.value basinExponent (p - i) : ℚ) < 10 ^ (i + 1) := by
      refine lt_of_mul_lt_mul_right (hfloor.trans_lt (hplace'.trans_eq ?_)) hpow.le
      rw [← zpow_natCast, ← zpow_add₀ (by norm_num),
        show ((i + 1 : Nat) : Int) + (p - i) = p + 1 by push_cast; ring]
    have hlt : decimalFloor x.basin.value basinExponent (p - i) < 10 ^ (i + 1) := by exact_mod_cast hlt
    exact hle.trans (hdigits.trans (hlt.trans_le (Nat.pow_le_pow_right (Nat.succ_pos 9) (by omega))))
  · rw [hval, Decimal.toRat]
    exact hupper

end Binary64

end FlowEngine
