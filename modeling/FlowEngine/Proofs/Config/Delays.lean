import FlowEngine.Config.Settings
import FlowEngine.Proofs.Documents.Decoding
import FlowEngine.Proofs.Number.Signs

/-!
# Delays between attempts

A delay grows by a factor with every attempt, up to a bound. It has a value unless the factor is
negative: then it has none for every other attempt.

* `Retry.growth` — the delay before it is bounded.
* `Retry.delay?_eq_none_iff` — there is no delay exactly if the growth is below zero.
* `Retry.negative_of_growth` — so the multiplier is negative, and the number of the attempt is odd.
* `Settings.maxDelay_lt_of_ofJson?` — the bound of settings that are read has 64 bits.
-/

namespace FlowEngine

/-! ## Numbers below zero -/

namespace Binary64

variable {x y : Binary64}

/-- A number below zero. -/
def BelowZero (x : Binary64) : Prop := x.sign? = some true ∧ x.isZero = false

instance (x : Binary64) : Decidable x.BelowZero := inferInstanceAs (Decidable (_ ∧ _))

theorem view_of_infinite (hnum : x.isNaN = false) (hfin : x.isFinite = false) :
    x.view = .infinite x.negative := by
  simp only [isFinite, isNaN, decide_eq_false_iff_not] at hfin hnum
  rw [view, if_neg hfin, if_pos (by omega)]

theorem isZero_of_infinite (hfin : x.isFinite = false) : x.isZero = false := by
  simp only [isZero, isFinite, decide_eq_false_iff_not] at hfin ⊢
  exact fun hzero => hfin (by rw [hzero]; decide)

/-- A number above one that is not negative is not below zero. -/
theorem not_belowZero_of_lt (hy : y.isFinite = true) (sy : y.negative = false)
    (hlt : y.valueLt x = true) : ¬ x.BelowZero := by
  rintro ⟨hs, -⟩
  have hview := view_of_isFinite hy
  rw [sy] at hview
  unfold valueLt compare? at hlt
  rw [hview] at hlt
  cases hv : x.view with
  | nan => rw [hv] at hlt; cases hlt
  | infinite s =>
    obtain rfl := Option.some.inj ((sign?_of_infinite hv).symm.trans hs)
    rw [hv] at hlt
    cases hlt
  | finite s n =>
    obtain rfl := Option.some.inj ((sign?_of_finite hv).symm.trans hs)
    rw [hv] at hlt
    simp only [signedUnits, if_true, beq_iff_eq, Option.some.injEq, Bool.false_eq_true, if_false,
      Int.compare_eq_lt] at hlt
    omega

/-- A number has no nanoseconds if it is below zero, or plus infinity. -/
theorem nanoseconds?_eq_none_iff (hnum : x.isNaN = false) :
    Config.nanoseconds? x = none ↔ x.BelowZero ∨ x.view = .infinite false := by
  have hs : x.sign? = some x.negative := by rw [sign?, hnum]; rfl
  cases hfin : x.isFinite with
  | true => simp [Config.nanoseconds?, BelowZero, hs, hfin, view_of_isFinite hfin]
  | false =>
    refine iff_of_true (by simp [Config.nanoseconds?, hfin]) ?_
    have hview := view_of_infinite hnum hfin
    cases hneg : x.negative with
    | true => exact .inl ⟨by rw [hs, hneg], isZero_of_infinite hfin⟩
    | false => exact .inr (by rw [hview, hneg])

/-- The smaller one of a number and a positive finite number has no nanoseconds just if the first is
below zero. -/
theorem nanoseconds?_minNum (hy : y.isFinite = true) (sy : y.sign? = some false) :
    Config.nanoseconds? (x.minNum y) = none ↔ x.BelowZero := by
  have hneg : y.negative = false := negative_of_sign? sy
  have hnum : y.isNaN = false := by
    simp only [isFinite, decide_eq_true_eq] at hy
    simp [isNaN]
    omega
  have hsome : Config.nanoseconds? y ≠ none := by simp [Config.nanoseconds?, hy, hneg]
  unfold minNum
  split_ifs with hx hy' hlt
  · refine iff_of_false hsome fun h => ?_
    rw [BelowZero, sign?, if_pos hx] at h
    cases h.1
  · rw [hnum] at hy'
    cases hy'
  · exact iff_of_false hsome (not_belowZero_of_lt hy hneg hlt)
  · rw [nanoseconds?_eq_none_iff (by simpa using hx)]
    refine or_iff_left fun hinf => hlt ?_
    simp [valueLt, compare?, view_of_isFinite hy, hinf]

end Binary64

namespace Config

open Binary64

variable {ms attempt : Nat} {r : Retry} {s below above : Settings} {lenient : Bool} {j : Json}

/-! ## Seconds -/

/-- One billion. -/
theorem billion : (ofNat 1000000000).isFinite = true ∧ unitsOfOne ≤ (ofNat 1000000000).units := by
  decide +kernel

theorem billion_pos : 0 < (ofNat 1000000000).units :=
  Nat.lt_of_lt_of_le unitsOfOne_pos billion.2

theorem sign?_seconds (ms : Nat) : (seconds ms).sign? = some false :=
  sign?_add (sign?_ofNat _) (sign?_div_of_pos (sign?_ofNat _) (sign?_ofNat _) billion.1 billion_pos)

/-- The seconds of a number of milliseconds of 64 bits. -/
theorem isFinite_seconds (h : ms < 0x10000000000000000) : (seconds ms).isFinite = true := by
  have hlarge : (ofNat 0x10000000000000000).isFinite = true := by decide +kernel
  have hquot := isFinite_div hlarge billion.1 billion.2
  have hsum : ((ofNat 0x10000000000000000).add
      ((ofNat 0x10000000000000000).div (ofNat 1000000000))).isFinite = true := by decide +kernel
  have hsign (n : Nat) : ((ofNat n).div (ofNat 1000000000)).negative = false :=
    negative_of_sign? (sign?_div_of_pos (sign?_ofNat n) (sign?_ofNat _) billion.1 billion_pos)
  refine isFinite_add_mono (magnitude_ofNat_mono (by omega))
    (magnitude_div_mono (magnitude_ofNat_mono (by omega)) hlarge billion.1 billion_pos) hlarge hquot
    (negative_of_sign? (sign?_ofNat _)) (hsign _) (negative_of_sign? (sign?_ofNat _)) (hsign _) hsum

/-! ## Growth -/

/-- The delay of an attempt before it is bounded. -/
def Retry.growth (r : Retry) (attempt : Nat) : Binary64 :=
  (seconds r.initialDelay).mul (Retry.power r.multiplier attempt)

/-- An attempt has no delay exactly if the growth is below zero. -/
theorem Retry.delay?_eq_none_iff (h : r.maxDelay < 0x10000000000000000) (attempt : Nat) :
    r.delay? attempt = none ↔ (r.growth attempt).BelowZero :=
  nanoseconds?_minNum (isFinite_seconds h) (sign?_seconds _)

/-- The growth is below zero only if the multiplier is negative, and for every other attempt. -/
theorem Retry.negative_of_growth (h : (r.growth attempt).BelowZero) :
    r.multiplier.sign? = some true ∧ attempt % 2 = 1 := by
  obtain ⟨s, t, hs, ht, hb⟩ := sign?_mul h.1
  obtain rfl := Option.some.inj ((sign?_seconds _).symm.trans hs)
  obtain rfl : t = true := by simpa using hb.symm
  unfold power at ht
  split_ifs at ht with hattempt
  · exact sign?_powNat ht
  · obtain ⟨s, t, hs, hp, hb⟩ := sign?_div ht
    obtain rfl := Option.some.inj ((sign?_ofNat _).symm.trans hs)
    obtain rfl : t = true := by simpa using hb.symm
    obtain ⟨hneg, hodd⟩ := sign?_powNat hp
    refine ⟨hneg, ?_⟩
    omega

/-! ## Settings that are read -/

theorem Retry.maxDelay_lt_of_ofJson? (h : Retry.ofJson? lenient j = some r) :
    r.maxDelay < 0x10000000000000000 := by
  simp only [ofJson?, Option.bind_eq_bind, Option.bind_eq_some_iff] at h
  obtain ⟨fs, -, h⟩ := h
  split_ifs at h
  simp only [Option.bind_eq_some_iff, Option.some.injEq] at h
  obtain ⟨_, -, _, -, _, -, maxDelay, hmax, _, -, rfl⟩ := h
  exact Json.defaulted_spec (P := (· < 0x10000000000000000)) hmax (by decide) fun _ => Json.asNat64?_lt

/-- The greatest delay of settings that are read has 64 bits. -/
theorem Settings.maxDelay_lt_of_ofJson? (h : Settings.ofJson? lenient j = some s) :
    s.retry.maxDelay < 0x10000000000000000 := by
  simp only [ofJson?, Option.bind_eq_bind, Option.bind_eq_some_iff] at h
  obtain ⟨fs, -, _, -, retry, hretry, h⟩ := h
  split_ifs at h
  cases h
  exact Json.defaulted_spec (P := fun r => r.maxDelay < 0x10000000000000000) hretry (by decide)
    fun _ => Retry.maxDelay_lt_of_ofJson?

end Config

end FlowEngine
