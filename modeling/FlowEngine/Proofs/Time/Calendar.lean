import FlowEngine.Time.Calendar
import Mathlib.Data.List.Basic
import Mathlib.Order.Monotone.Basic
import Mathlib.Tactic.IntervalCases

/-!
# Days and their dates

Years are counted from March within eras of 400 years, so that a leap day is the last day of its year.

* `Date.toDays_ofDays` — the date of a day is that of no other day.
* `Date.isValid_ofDays` — it is a date of the calendar.
-/

namespace FlowEngine.Time.Date

variable {day year : Nat}

/-! ## Years of an era -/

/-- The year of an era that has a day. -/
def yearOfEra (day : Nat) : Nat := (day - day / 1460 + day / 36524 - day / 146096) / 365

/-- The first day of a year of an era. -/
def yearStart (year : Nat) : Nat := 365 * year + year / 4 - year / 100

theorem yearOfEra_mono : Monotone yearOfEra :=
  monotone_nat_of_le_succ fun day => Nat.div_le_div_right (by omega)

theorem yearOfEra_start : ∀ year < 400, yearOfEra (yearStart year) = year ∧
    (0 < year → yearOfEra (yearStart year - 1) < year) := by decide +kernel

theorem yearOfEra_lt (h : day < 146097) : yearOfEra day < 400 := by
  unfold yearOfEra
  omega

/-- A day lies in its year. -/
theorem yearStart_le (h : day < 146097) : yearStart (yearOfEra day) ≤ day := by
  by_contra hlt
  have hpos : 0 < yearOfEra day := Nat.pos_of_ne_zero fun hzero => hlt (by
    rw [hzero]
    exact Nat.zero_le day)
  have hmono := yearOfEra_mono (show day ≤ yearStart (yearOfEra day) - 1 by omega)
  exact absurd ((yearOfEra_start _ (yearOfEra_lt h)).2 hpos) (Nat.not_lt.mpr hmono)

theorem isLeapYear_iff (year : Int) :
    isLeapYear year = true ↔ year % 4 = 0 ∧ (year % 100 ≠ 0 ∨ year % 400 = 0) := by
  simp [isLeapYear]

/-- A year counted from March has a leap day if the January in it is in a leap year. -/
theorem lt_yearStart (h : day < 146097) :
    day < yearStart (yearOfEra day) + 365 ∨
      day = yearStart (yearOfEra day) + 365 ∧ isLeapYear (yearOfEra day + 1 : Nat) = true := by
  have hle := yearStart_le h
  have hyear := yearOfEra_lt h
  generalize hy : yearOfEra day = year at hle hyear ⊢
  rw [isLeapYear_iff]
  unfold yearStart at hle ⊢
  rcases Nat.lt_or_ge (year + 1) 400 with hlt | hge
  · have hnext : day < yearStart (year + 1) := by
      by_contra hge
      have hmono := yearOfEra_mono (Nat.not_lt.mp hge)
      rw [(yearOfEra_start _ hlt).1] at hmono
      omega
    unfold yearStart at hnext
    rw [Nat.succ_div, Nat.succ_div] at hnext
    split_ifs at hnext <;> omega
  · -- the last year of an era ends with a leap day
    obtain rfl : year = 399 := by omega
    omega

/-! ## Months of a year -/

/-- The month of a day of a year counted from March, with March for zero. -/
def monthOfYear (day : Nat) : Nat := (5 * day + 2) / 153

/-- The first day of a month. -/
def monthStart (month : Nat) : Nat := (153 * month + 2) / 5

/-- The number of days of a month counted from March, the last of which has a leap day. -/
def monthLength (month : Nat) : Nat :=
  if month = 11 then 29 else if month = 1 ∨ month = 3 ∨ month = 6 ∨ month = 8 then 30 else 31

/-- A day lies in its month. -/
theorem month_spec (h : day ≤ 365) : monthOfYear day ≤ 11 ∧ monthStart (monthOfYear day) ≤ day ∧
    day < monthStart (monthOfYear day) + monthLength (monthOfYear day) := by
  unfold monthOfYear monthStart monthLength
  split_ifs <;> omega

/-! ## Dates -/

/-- The date of a day in a month of a year of an era, all of them counted from March. -/
def ofMarch (era : Int) (year month day : Nat) : Date :=
  let m := if month < 10 then month + 3 else month - 9
  ⟨era * 400 + year + (if m ≤ 2 then 1 else 0), m, day + 1⟩

theorem toDays_ofMarch (era : Int) {year month day : Nat} (hyear : year < 400) (hmonth : month ≤ 11) :
    (ofMarch era year month day).toDays =
      era * 146097 + yearStart year + monthStart month + day - 719468 := by
  have hera : (era * 400 + year) / 4 = era * 100 + (year / 4 : Nat) ∧
      (era * 400 + year) / 100 = era * 4 + (year / 100 : Nat) ∧ (era * 400 + year) / 400 = era := by
    omega
  unfold ofMarch toDays yearStart monthStart
  dsimp only
  by_cases h : month < 10
  · rw [if_pos h, if_neg (by omega), if_neg (by omega), Int.add_zero, hera.1, hera.2.1, hera.2.2,
      show (month + 3 + 9) % 12 = month by omega]
    omega
  · rw [if_neg h, if_pos (by omega), if_pos (by omega), Int.add_sub_cancel, hera.1, hera.2.1,
      hera.2.2, show (month - 9 + 9) % 12 = month by omega]
    omega

theorem isValid_ofMarch (era : Int) {year month day : Nat} (hmonth : month ≤ 11)
    (hday : day < monthLength month)
    (hleap : month = 11 → day < 28 ∨ isLeapYear (year + 1 : Nat) = true) :
    (ofMarch era year month day).isValid = true := by
  have hleap' : isLeapYear (era * 400 + year + 1) = isLeapYear (year + 1 : Nat) := by
    rw [Bool.eq_iff_iff, isLeapYear_iff, isLeapYear_iff]
    omega
  have hlen : day + 1 ≤ daysInMonth (ofMarch era year month day).year (ofMarch era year month day).month := by
    rcases Nat.lt_or_eq_of_le hmonth with hlt | rfl
    · -- the months whose length does not depend on the year
      refine Nat.le_trans hday (Nat.le_of_eq ?_)
      clear hday hleap
      interval_cases month <;> rfl
    · have hfeb : daysInMonth (era * 400 + year + 1) 2 =
          if isLeapYear (era * 400 + year + 1) then 29 else 28 := rfl
      have hday : day < 29 := hday
      change day + 1 ≤ daysInMonth (era * 400 + year + 1) 2
      rw [hfeb, hleap']
      rcases hleap rfl with hlt | hleap
      · split_ifs <;> omega
      · rw [if_pos hleap]
        omega
  have hrange : 1 ≤ (ofMarch era year month day).month ∧ (ofMarch era year month day).month ≤ 12 := by
    unfold ofMarch
    dsimp only
    split_ifs <;> omega
  have hone : 1 ≤ (ofMarch era year month day).day := Nat.succ_pos day
  simp only [isValid, hrange.1, hrange.2, hone, decide_true, Bool.true_and]
  exact decide_eq_true hlen

/-- The day of its year, both counted from March. -/
def dayOfYear (day : Nat) : Nat := day - yearStart (yearOfEra day)

/-- Every day lies in an era, and its date is found there. -/
theorem ofDays_eq (days : Int) : ∃ (era : Int) (day : Nat), day < 146097 ∧
    days = era * 146097 + day - 719468 ∧ ofDays days =
      ofMarch era (yearOfEra day) (monthOfYear (dayOfYear day))
        (dayOfYear day - monthStart (monthOfYear (dayOfYear day))) :=
  ⟨(days + 719468) / 146097, ((days + 719468) % 146097).toNat, by omega, by omega, rfl⟩

/-- The date of a day is that of no other day. -/
theorem toDays_ofDays (days : Int) : (ofDays days).toDays = days := by
  obtain ⟨era, day, hday, rfl, hdate⟩ := ofDays_eq days
  have hstart := yearStart_le hday
  have hleap := lt_yearStart hday
  have hyear : dayOfYear day ≤ 365 := by unfold dayOfYear; omega
  obtain ⟨hmonth, hlow, -⟩ := month_spec hyear
  rw [hdate, toDays_ofMarch era (yearOfEra_lt hday) hmonth]
  unfold dayOfYear at hlow ⊢
  omega

/-- The date of a day is one of the calendar. -/
theorem isValid_ofDays (days : Int) : (ofDays days).isValid = true := by
  obtain ⟨era, day, hday, rfl, hdate⟩ := ofDays_eq days
  have hleap := lt_yearStart hday
  have hyear : dayOfYear day ≤ 365 := by unfold dayOfYear; omega
  obtain ⟨hmonth, hlow, hhigh⟩ := month_spec hyear
  rw [hdate]
  refine isValid_ofMarch era hmonth (by omega) fun h => ?_
  rcases hleap with hlt | ⟨heq, hleap⟩
  · left
    rw [h]
    unfold dayOfYear monthStart
    omega
  · exact .inr hleap

/-- The month and the day of a date of the calendar. -/
theorem bounds_of_isValid {d : Date} (h : d.isValid = true) :
    (1 ≤ d.month ∧ d.month ≤ 12) ∧ 1 ≤ d.day ∧ d.day ≤ 31 := by
  have hlen : daysInMonth d.year d.month ≤ 31 := by
    unfold daysInMonth
    split
    · split_ifs <;> decide
    all_goals decide
  simp only [isValid, Bool.and_eq_true, decide_eq_true_eq] at h
  omega

end FlowEngine.Time.Date
