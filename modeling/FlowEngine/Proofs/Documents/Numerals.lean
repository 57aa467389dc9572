import FlowEngine.Json.Printer
import FlowEngine.Json.Reader
import Mathlib.Algebra.Ring.Nat
import Mathlib.Data.List.Basic

/-!
# Reading written numerals

A numeral is read up to a character that cannot go on with it.

* `Ends` — a text that a numeral may stand before.
* `numeral?_exponent`, `numeral?_fraction` — how the parts of a numeral are read.
* `Numeral.value?_fits` — its value, if its digits fit an integer.
* `number?_int` — a written integer is read as that integer.
-/

namespace FlowEngine.Json

open Nat (ofDigitChars toDigits)

variable {negative : Bool} {whole fraction ds cs rest : List Char} {exponent : Option Int} {n : Nat}

/-! ## Runs of digits -/

/-- A text of digits only. -/
def Digits (ds : List Char) : Prop := ∀ c ∈ ds, c.isDigit = true

/-- What stands before a text is not a run of digits that goes on in it. -/
def EndsDigits (rest : List Char) : Prop := ∀ c ∈ rest.head?, c.isDigit = false

/-- What stands before a text is not a numeral that goes on in it. -/
def Ends (rest : List Char) : Prop :=
  ∀ c ∈ rest.head?, c.isDigit = false ∧ c ≠ '.' ∧ c ≠ 'e' ∧ c ≠ 'E'

theorem Ends.digits (h : Ends rest) : EndsDigits rest := fun c hc => (h c hc).1

theorem Digits.append (hd : Digits ds) (hc : Digits cs) : Digits (ds ++ cs) := fun c h =>
  (List.mem_append.mp h).elim (hd c) (hc c)

theorem Digits.zeros (n : Nat) : Digits (List.replicate n '0') := fun c h => by
  rw [List.eq_of_mem_replicate h]
  rfl

theorem Digits.toDigits (n : Nat) : Digits (toDigits 10 n) := fun _ h =>
  Nat.isDigit_of_mem_toDigits (by decide) (by decide) h

theorem EndsDigits.takeWhile (h : EndsDigits rest) : rest.takeWhile Char.isDigit = [] := by
  cases rest with
  | nil => rfl
  | cons c rest => rw [List.takeWhile_cons_of_neg (by simp [h c (by simp)])]

theorem EndsDigits.dropWhile (h : EndsDigits rest) : rest.dropWhile Char.isDigit = rest := by
  cases rest with
  | nil => rfl
  | cons c rest => rw [List.dropWhile_cons_of_neg (by simp [h c (by simp)])]

theorem Digits.takeWhile (hd : Digits ds) (hr : EndsDigits rest) :
    (ds ++ rest).takeWhile Char.isDigit = ds := by
  rw [List.takeWhile_append_of_pos hd, hr.takeWhile, List.append_nil]

theorem Digits.dropWhile (hd : Digits ds) (hr : EndsDigits rest) :
    (ds ++ rest).dropWhile Char.isDigit = rest := by
  rw [List.dropWhile_append_of_pos hd, hr.dropWhile]

theorem ofDigitChars_zeros (n : Nat) (ds : List Char) :
    ofDigitChars 10 (List.replicate n '0' ++ ds) 0 = ofDigitChars 10 ds 0 := by
  induction n with
  | zero => rfl
  | succ n ih => exact ih

/-- A number with so many digits is below a power of ten. -/
theorem Digits.value_lt (h : Digits ds) : ofDigitChars 10 ds 0 < 10 ^ ds.length := by
  induction ds with
  | nil => decide
  | cons c ds ih =>
    have hc : c.toNat - '0'.toNat ≤ 9 := by
      have hdigit := h c List.mem_cons_self
      simp only [Char.isDigit, Bool.and_eq_true, decide_eq_true_eq] at hdigit
      have hle : c.toNat ≤ '9'.toNat := hdigit.2
      have h9 : '9'.toNat = 57 := rfl
      have h0 : '0'.toNat = 48 := rfl
      omega
    have ih := ih fun c hc => h c (List.mem_cons_of_mem _ hc)
    rw [Nat.ofDigitChars_cons, Nat.ofDigitChars_eq_ofDigitChars_zero, List.length_cons, Nat.pow_succ,
      Nat.mul_zero, Nat.zero_add]
    have := Nat.mul_le_mul_left (10 ^ ds.length) hc
    omega

/-- A positive number is not written with a zero at the front. -/
theorem head?_toDigits (h : 0 < n) : (toDigits 10 n).head? ≠ some '0' := by
  intro hhead
  obtain ⟨ds, hds⟩ := List.head?_eq_some_iff.mp hhead
  have hvalue : ofDigitChars 10 ds 0 = n := by
    rw [← Nat.ofDigitChars_ten_toDigits (n := n), hds, Nat.ofDigitChars_cons]
    rfl
  have hdigits : Digits ds := fun c hc => Digits.toDigits n c (hds ▸ List.mem_cons_of_mem _ hc)
  have hlt := hdigits.value_lt
  rw [hvalue] at hlt
  rcases Nat.eq_zero_or_pos ds.length with hzero | hpos
  · rw [hzero, Nat.pow_zero] at hlt
    omega
  · have hle := (Nat.length_toDigits_le_iff (by decide) hpos).mpr hlt
    rw [hds, List.length_cons] at hle
    omega

/-! ## Parts of numerals -/

/-- The digits before the point. A zero at the front stands alone. -/
structure IsWhole (ds : List Char) : Prop where
  digits : Digits ds
  ne_nil : ds ≠ []
  lead : ds.head? = some '0' → ds.length = 1

/-- A number is written so. -/
theorem IsWhole.toDigits (n : Nat) : IsWhole (toDigits 10 n) where
  digits := .toDigits n
  ne_nil := Nat.toDigits_ne_nil
  lead h := by
    rcases Nat.eq_zero_or_pos n with rfl | hn
    · rfl
    · exact absurd h (head?_toDigits hn)

theorem exponentPart?_none (h : Ends rest) : exponentPart? rest = some (none, rest) := by
  cases rest with
  | nil => rfl
  | cons c rest =>
    obtain ⟨-, -, he, hE⟩ := h c (by simp)
    simp only [exponentPart?, he, hE, or_self, if_false]

/-- An exponent part: a sign, which a negative exponent must have, and digits. -/
theorem exponentPart?_some {e : Int} {sign : List Char} (hd : Digits ds) (hne : ds ≠ [])
    (hr : EndsDigits rest) (hs : sign = ['-'] ∧ e = -(ofDigitChars 10 ds 0 : Int) ∨
      sign = ['+'] ∧ e = (ofDigitChars 10 ds 0 : Int)) :
    exponentPart? ('e' :: (sign ++ (ds ++ rest))) = some (some e, rest) := by
  have hempty : ds.isEmpty = false := by simpa using hne
  rcases hs with ⟨rfl, rfl⟩ | ⟨rfl, rfl⟩ <;>
  · simp only [exponentPart?, true_or, if_true, List.singleton_append, hd.takeWhile hr,
      hd.dropWhile hr, hempty, Binary64.digitsValue, Bool.false_eq_true, if_false]
    rfl

/-- The sign of a numeral. -/
def signChars (negative : Bool) : List Char := if negative then ['-'] else []

/-- What is read of a numeral after its whole part. -/
def afterWhole? (negative : Bool) (whole : List Char) : List Char → Option (Numeral × List Char)
  | '.' :: cs =>
    let fraction := cs.takeWhile Char.isDigit
    if fraction.isEmpty then none
    else do
      let (exponent, rest) ← exponentPart? (cs.dropWhile Char.isDigit)
      some (⟨negative, whole, some fraction, exponent⟩, rest)
  | cs => do
    let (exponent, rest) ← exponentPart? cs
    some (⟨negative, whole, none, exponent⟩, rest)

theorem numeral?_whole (hw : IsWhole whole) (hr : EndsDigits cs) :
    numeral? (signChars negative ++ (whole ++ cs)) = afterWhole? negative whole cs := by
  have hhead : (whole ++ cs).head? ≠ some '-' := by
    rw [List.head?_append_of_ne_nil _ hw.ne_nil]
    intro h
    exact absurd (hw.digits '-' (List.mem_of_mem_head? h)) (by decide)
  have hlead : (whole.isEmpty || (whole.head? == some '0' && 1 < whole.length)) = false := by
    by_cases h : whole.head? = some '0'
    · simp [hw.ne_nil, hw.lead h]
    · simp [hw.ne_nil, h]
  have hempty : ¬ (whole.isEmpty || (whole.head? == some '0' && 1 < whole.length)) = true := by
    rw [hlead]
    decide
  unfold numeral?
  cases negative
  · split
    next heq =>
      split at heq
      · next h => exact absurd (congrArg List.head? h) hhead
      · cases heq
        simp only [signChars, Bool.false_eq_true, if_false, List.nil_append, hw.digits.takeWhile hr,
          hw.digits.dropWhile hr, if_neg hempty]
        split
        · rfl
        · rw [afterWhole?]
          assumption
  · simp only [signChars, if_true, List.singleton_append, hw.digits.takeWhile hr,
      hw.digits.dropWhile hr, if_neg hempty]
    split
    · rfl
    · rw [afterWhole?]
      assumption

/-- A numeral without a fraction. -/
theorem numeral?_exponent (hw : IsWhole whole) (hcs : EndsDigits cs) (hpoint : cs.head? ≠ some '.')
    (he : exponentPart? cs = some (exponent, rest)) :
    numeral? (signChars negative ++ (whole ++ cs)) = some (⟨negative, whole, none, exponent⟩, rest) := by
  rw [numeral?_whole hw hcs]
  unfold afterWhole?
  split
  · exact absurd rfl hpoint
  · rw [he]
    rfl

/-- A numeral with a fraction. -/
theorem numeral?_fraction (hw : IsWhole whole) (hf : Digits fraction) (hne : fraction ≠ [])
    (hcs : EndsDigits cs) (he : exponentPart? cs = some (exponent, rest)) :
    numeral? (signChars negative ++ (whole ++ '.' :: (fraction ++ cs))) =
      some (⟨negative, whole, some fraction, exponent⟩, rest) := by
  rw [numeral?_whole hw (by rintro c ⟨⟩; rfl)]
  simp only [afterWhole?, hf.takeWhile hcs, hf.dropWhile hcs, he]
  rw [if_neg (by simpa using hne)]
  rfl

/-! ## Values -/

/-- All digits are taken if the number that they make is an integer. -/
theorem takeDigits_eq (h : ofDigitChars 10 ds n ≤ maxInteger) :
    takeDigits n ds = (ofDigitChars 10 ds n, []) := by
  induction ds generalizing n with
  | nil => rfl
  | cons c ds ih =>
    rw [Nat.ofDigitChars_cons] at h ⊢
    have hle : 10 * n + (c.toNat - '0'.toNat) ≤ maxInteger := by
      refine Nat.le_trans ?_ h
      rw [Nat.ofDigitChars_eq_ofDigitChars_zero]
      have := Nat.one_le_pow ds.length 10 (by decide)
      have := Nat.le_mul_of_pos_left (10 * n + (c.toNat - '0'.toNat)) this
      omega
    rw [takeDigits]
    simp only [if_neg (Nat.not_lt.mpr hle)]
    exact ih h

/-- The value of a numeral with a fraction or an exponent. -/
theorem Numeral.value?_fits (negative : Bool) {fraction : Option (List Char)}
    (hne : fraction ≠ none ∨ exponent ≠ none)
    (h : ofDigitChars 10 (whole ++ fraction.getD []) 0 ≤ maxInteger) :
    Numeral.value? ⟨negative, whole, fraction, exponent⟩ =
      (Binary64.ofScientific (ofDigitChars 10 (whole ++ fraction.getD []) 0)
        (exponent.getD 0 - (fraction.getD []).length)).map fun x =>
          .float (if negative then x.neg else x) := by
  rw [Nat.ofDigitChars_append] at h ⊢
  have hwhole : ofDigitChars 10 whole 0 ≤ maxInteger := by
    refine Nat.le_trans ?_ h
    rw [@Nat.ofDigitChars_eq_ofDigitChars_zero _ (ofDigitChars 10 whole 0)]
    have := Nat.one_le_pow (fraction.getD []).length 10 (by decide)
    have := Nat.le_mul_of_pos_left (ofDigitChars 10 whole 0) this
    omega
  have hdigits := takeDigits_eq h
  -- the whole part fits by itself, so that digits are left out of the fraction alone
  generalize hread : takeDigits (ofDigitChars 10 whole 0) (fraction.getD []) = read at hdigits
  have hfloat : Numeral.value? ⟨negative, whole, fraction, exponent⟩ =
      (Binary64.ofScientific read.1 (exponent.getD 0 + (([] : List Char).length : Int) -
        ((fraction.getD []).length - read.2.length : Nat))).map fun x =>
          .float (if negative then x.neg else x) := by
    unfold Numeral.value?
    rw [takeDigits_eq hwhole, ← hread]
    rcases fraction with _ | fraction
    · rcases exponent with _ | exponent
      · exact absurd rfl (hne.resolve_left (· rfl))
      · rfl
    · rfl
  rw [hfloat, hdigits]
  simp

/-! ## Integers -/

/-- A written integer. -/
theorem toString_int (i : Int) :
    (toString i).toList = signChars (decide (i < 0)) ++ toDigits 10 i.natAbs := by
  change (Int.repr i).toList = _
  rw [Int.repr_eq_if]
  split_ifs with h
  · rw [Nat.repr_eq_ofList_toDigits, String.toList_ofList, signChars, if_neg (by simpa using h),
      List.nil_append, show i.toNat = i.natAbs by omega]
  · rw [String.toList_append, Nat.repr_eq_ofList_toDigits, String.toList_ofList, signChars,
      if_pos (by simpa using h), show (-i).toNat = i.natAbs by omega]
    rw [String.toList_ofList]

/-- An integer in range is read as it is written. -/
theorem number?_int {i : Int} (hi : InRange i) (hr : Ends rest) :
    number? ((toString i).toList ++ rest) = some (.int i, rest) := by
  have hpoint : rest.head? ≠ some '.' := fun h => (hr '.' h).2.1 rfl
  have hvalue : Numeral.value? ⟨decide (i < 0), toDigits 10 i.natAbs, none, none⟩ = some (.int i) := by
    have hmax : maxInteger = 18446744073709551615 := rfl
    obtain ⟨hlo, hhi⟩ := hi
    unfold Numeral.value?
    rw [takeDigits_eq (by rw [Nat.ofDigitChars_ten_toDigits]; omega)]
    simp only [Nat.ofDigitChars_ten_toDigits]
    by_cases h : i < 0
    · rw [decide_eq_true h, if_neg (by decide), if_neg (by omega)]
      rw [show (-(i.natAbs : Int)) = i by omega]
    · rw [decide_eq_false h, if_pos (by decide), show (i.natAbs : Int) = i by omega]
  rw [toString_int, List.append_assoc, number?,
    numeral?_exponent (.toDigits _) hr.digits hpoint (exponentPart?_none hr)]
  simp only [Option.bind_eq_bind, Option.bind_some, hvalue]

end FlowEngine.Json
