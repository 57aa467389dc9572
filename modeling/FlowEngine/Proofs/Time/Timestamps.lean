import FlowEngine.Time.Timestamp
import FlowEngine.Proofs.Documents.Numerals
import FlowEngine.Proofs.Time.Calendar

/-!
# Reading written timestamps

* `Instant.Representable` — an instant that has a date; only the last second of a minute can be a leap
  second.
* `Timestamp.readLenient?_toTimestamp` — such an instant is read from its timestamp.
-/

namespace FlowEngine.Time

open Json (Digits EndsDigits)
open Nat (ofDigitChars toDigits)

variable {ds cs rest : List Char} {n width least most lo hi : Nat} {c : Char} {t : Instant}

/-! ## Padded numbers -/

theorem Digits.padded (width n : Nat) : Digits (padded width n) :=
  (Json.Digits.zeros _).append (.toDigits n)

theorem ofDigitChars_padded (width n : Nat) : ofDigitChars 10 (padded width n) 0 = n :=
  (Json.ofDigitChars_zeros _ _).trans Nat.ofDigitChars_ten_toDigits

theorem length_padded (hw : 0 < width) (h : n < 10 ^ width) : (padded width n).length = width := by
  have hlen := (Nat.length_toDigits_le_iff (by decide) hw).mpr h
  rw [padded, List.length_append, List.length_replicate]
  omega

theorem padded_cons (width n : Nat) : ∃ c cs, padded width n = c :: cs ∧ c.isDigit = true := by
  rcases h : padded width n with _ | ⟨c, cs⟩
  · exact absurd (List.append_eq_nil_iff.mp h).2 Nat.toDigits_ne_nil
  · exact ⟨c, cs, rfl, Digits.padded width n c (h ▸ List.mem_cons_self)⟩

namespace Timestamp

theorem byteLength_pos (c : Char) (cs : List Char) : 1 ≤ byteLength (c :: cs) := by
  have hle (n : Nat) : ∀ cs : List Char, n ≤ cs.foldl (fun n c => n + c.utf8Size) n := by
    intro cs
    induction cs generalizing n with
    | nil => exact Nat.le_refl n
    | cons c cs ih => exact Nat.le_trans (Nat.le_add_right n _) (ih _)
  exact Nat.le_trans (Nat.le_trans c.utf8Size_pos (Nat.le_add_left _ _)) (hle _ cs)

/-- A run of digits is read to its end, or to the greatest length that is allowed. -/
theorem number_digits (hd : Digits ds) (hne : ds ≠ [])
    (h : ds.length = most ∨ ds.length ≤ most ∧ EndsDigits rest) :
    number 1 most (ds ++ rest) = .ok (ofDigitChars 10 ds 0, rest) := by
  have htake : ((ds ++ rest).take most).takeWhile Char.isDigit = ds := by
    rcases h with rfl | ⟨hle, hr⟩
    · have hends : EndsDigits ([] : List Char) := by rintro c ⟨⟩
      have htake := hd.takeWhile hends
      rw [List.append_nil] at htake
      rw [List.take_left, htake]
    · rw [List.take_append, List.take_of_length_le hle]
      refine hd.takeWhile fun c hc => hr c ?_
      rw [List.head?_take] at hc
      split_ifs at hc
      · cases hc
      · exact hc
  obtain ⟨c, cs, rfl⟩ := List.exists_cons_of_ne_nil hne
  have hbytes := byteLength_pos c (cs ++ rest)
  rw [number, if_neg (by rw [List.cons_append]; omega)]
  simp only [htake]
  rw [if_neg (by simp), List.drop_left]
  rfl

/-! ## Parts of a timestamp -/

theorem isBlank_digit (hc : c.isDigit = true) : Text.isBlank c = false := by
  simp only [Char.isDigit, Bool.and_eq_true, decide_eq_true_eq] at hc
  have hlo : 48 ≤ c.toNat := hc.1
  have hhi : c.toNat ≤ 57 := hc.2
  simp only [Text.isBlank, Text.inIntervals, List.any_cons, List.any_nil, Bool.or_false,
    Bool.or_eq_false_iff, Bool.and_eq_false_iff, decide_eq_false_iff_not]
  omega

theorem trimStart_cons (hc : Text.isBlank c = false) (cs : List Char) :
    Text.trimStart (c :: cs) = c :: cs := List.dropWhile_cons_of_neg (by rw [hc]; decide)

/-- A separator without blanks before it. -/
theorem char_trimStart (hc : Text.isBlank c = false) (rest : List Char) :
    char c (Text.trimStart (c :: rest)) = .ok rest := by
  rw [trimStart_cons hc, char, if_pos rfl]

/-- Two digits. -/
theorem looseNumber_padded (hlo : lo ≤ n) (hhi : n ≤ hi) (h : hi < 100) (rest : List Char) :
    looseNumber lo hi (padded 2 n ++ rest) = .ok (n, rest) := by
  obtain ⟨c, cs, hcs, hdigit⟩ := padded_cons 2 n
  have htrim : Text.trimStart (padded 2 n ++ rest) = padded 2 n ++ rest := by
    rw [hcs, List.cons_append, trimStart_cons (isBlank_digit hdigit)]
  have hnumber : number 1 2 (padded 2 n ++ rest) = .ok (n, rest) := by
    rw [number_digits (Digits.padded 2 n) (by rw [hcs]; rintro ⟨⟩)
      (.inl (length_padded (by decide) (by omega))), ofDigitChars_padded]
  rw [looseNumber, htrim, hnumber]
  exact if_pos ⟨hlo, hhi⟩

/-- Any number of digits, which are the value of a number. -/
theorem number_padded (hr : EndsDigits rest) (h : (padded width n).length ≤ most) :
    number 1 most (padded width n ++ rest) = .ok (n, rest) := by
  obtain ⟨c, cs, hcs, -⟩ := padded_cons width n
  rw [number_digits (Digits.padded width n) (by rw [hcs]; rintro ⟨⟩) (.inr ⟨h, hr⟩),
    ofDigitChars_padded]

/-- A year with four digits, or with a sign and any number of them. -/
theorem looseYear_yearText (year : Int) (rest : List Char) :
    looseYear (yearText year ++ '-' :: rest) = .ok (year, '-' :: rest) := by
  have hends : EndsDigits ('-' :: rest) := by rintro c ⟨⟩; rfl
  have hlong : (padded 4 year.natAbs).length ≤ (padded 4 year.natAbs ++ '-' :: rest).length := by
    rw [List.length_append]
    exact Nat.le_add_right _ _
  unfold yearText
  split_ifs with hfour hneg
  · have hlen : (padded 4 year.toNat).length = 4 := length_padded (by decide) (by omega)
    have hnumber := number_padded hends hlen.le
    obtain ⟨c, cs, hcs, hdigit⟩ := padded_cons 4 year.toNat
    rw [hcs, List.cons_append] at hnumber ⊢
    rw [looseYear, trimStart_cons (isBlank_digit hdigit)]
    split
    · next h => exact absurd hdigit (by rw [(List.cons.inj h).1]; decide)
    · next h => exact absurd hdigit (by rw [(List.cons.inj h).1]; decide)
    · rw [hnumber]
      exact congrArg (fun y => Except.ok (y, '-' :: rest)) (Int.toNat_of_nonneg hfour.1)
  · rw [List.cons_append, looseYear, trimStart_cons rfl]
    simp only [number_padded hends hlong]
    exact congrArg (fun y => Except.ok (y, '-' :: rest)) (show -(year.natAbs : Int) = year by omega)
  · rw [List.cons_append, looseYear, trimStart_cons rfl]
    simp only [number_padded hends hlong]
    exact congrArg (fun y => Except.ok (y, '-' :: rest)) (show (year.natAbs : Int) = year by omega)

/-- A fraction is read back from so many digits. -/
theorem nanoseconds_padded (hw : 0 < width) (hw' : width ≤ 9) (h : n < 10 ^ width) :
    nanoseconds ('.' :: (padded width n ++ ['Z'])) = .ok (n * 10 ^ (9 - width), ['Z']) := by
  have hlen := length_padded hw h
  rw [nanoseconds, number_padded (by rintro c ⟨⟩; rfl) (by omega)]
  have hread : (padded width n ++ ['Z']).length - ['Z'].length = width := by
    rw [List.length_append, hlen, Nat.add_sub_cancel]
  exact congrArg (fun w => Except.ok (n * Nat.pow 10 (9 - w), ['Z'])) hread

/-- A fraction of three, six or nine digits. -/
theorem nanoseconds_fractionText (h : n < 1000000000) :
    nanoseconds (fractionText n ++ ['Z']) = .ok (n, ['Z']) := by
  unfold fractionText
  split_ifs with hzero h3 h6
  · rw [hzero]
    rfl
  · rw [List.cons_append, nanoseconds_padded (by decide) (by decide) (by omega),
      show n / 1000000 * 10 ^ (9 - 3) = n by omega]
  · rw [List.cons_append, nanoseconds_padded (by decide) (by decide) (by omega),
      show n / 1000 * 10 ^ (9 - 6) = n by omega]
  · rw [List.cons_append, nanoseconds_padded (by decide) (by decide) (by omega), Nat.sub_self,
      Nat.pow_zero, Nat.mul_one]

theorem looseOffset_utc : looseOffset ['Z'] = .ok (0, []) := by
  rfl

end Timestamp

/-! ## Instants -/

/-- A point in time that has a date. Only the last second of a minute can be a leap second. -/
structure Instant.Representable (t : Instant) : Prop where
  inRange : Instant.inRange t.seconds = true
  nanos : t.nanos < 1000000000 ∨ t.nanos < 2000000000 ∧ t.seconds % 60 = 59

namespace Timestamp

/-- The parts of the time of day are in their ranges. -/
theorem clock_lt (h : t.Representable) : t.hour ≤ 23 ∧ t.minute ≤ 59 ∧ t.second ≤ 60 := by
  have hnanos := h.nanos
  unfold Instant.hour Instant.minute Instant.second Instant.secondOfDay
  omega

/-- The parts of an instant make the instant. -/
theorem instant_parts (h : t.Representable) :
    instant t.date t.hour t.minute t.second t.nanosecond 0 = t := by
  have hdays : t.date.toDays = t.seconds / 86400 := Date.toDays_ofDays _
  have hnanos := h.nanos
  unfold instant Instant.hour Instant.minute Instant.second Instant.nanosecond Instant.secondOfDay
  rw [hdays]
  obtain ⟨seconds, nanos⟩ := t
  dsimp only at hnanos ⊢
  congr 1
  · omega
  · split_ifs <;> omega

theorem separator_T (rest : List Char) : separator ('T' :: rest) = .ok rest := rfl

/-- The day of an instant that has a date has one. -/
theorem inRange_day (h : Instant.inRange t.seconds = true) :
    Instant.inRange (t.seconds / 86400 * 86400) = true := by
  unfold Instant.inRange Instant.minSeconds Instant.maxSeconds at h ⊢
  rw [Bool.and_eq_true, decide_eq_true_iff, decide_eq_true_iff] at h ⊢
  omega

/-- An instant is read from its timestamp. -/
theorem readLenient?_toTimestamp (h : t.Representable) : readLenient? t.toTimestamp = some t := by
  have hbind {α β : Type} (a : α) (f : α → Except TimestampError β) : (Except.ok a >>= f) = f a := rfl
  obtain ⟨hhour, hminute, hsecond⟩ := clock_lt h
  have hvalid : t.date.isValid = true := Date.isValid_ofDays _
  have hdays : t.date.toDays = t.seconds / 86400 := Date.toDays_ofDays _
  obtain ⟨hmonth, hday⟩ := Date.bounds_of_isValid hvalid
  have hrange : Instant.inRange (t.date.toDays * 86400) = true := by
    rw [hdays]
    exact inRange_day h.inRange
  have hnano : t.nanosecond < 1000000000 := Nat.mod_lt _ (by decide)
  simp only [readLenient?, Instant.toTimestamp, String.toList_ofList, Instant.timestampChars, Date.text,
    Instant.clockText, List.append_assoc, List.cons_append, hbind, looseYear_yearText,
    char_trimStart (show Text.isBlank '-' = false from rfl),
    char_trimStart (show Text.isBlank ':' = false from rfl), separator_T,
    looseNumber_padded hmonth.1 hmonth.2, looseNumber_padded hday.1 hday.2,
    looseNumber_padded (Nat.zero_le _) hhour, looseNumber_padded (Nat.zero_le _) hminute,
    looseNumber_padded (Nat.zero_le _) hsecond, nanoseconds_fractionText hnano, looseOffset_utc,
    Nat.reduceLT]
  have hempty : ¬ Text.trimStart [] ≠ [] := not_not.mpr rfl
  have hgood : ¬ ((!t.date.isValid) = true ∨ (!Instant.inRange (t.date.toDays * 86400)) = true ∨
      86400 ≤ Int.natAbs 0) := by
    rw [hvalid, hrange]
    decide
  rw [if_neg hempty, if_neg hgood]
  change (if Instant.inRange (instant t.date _ _ _ _ 0).seconds = true then _ else none) = _
  rw [instant_parts h, if_pos h.inRange]

end Timestamp

end FlowEngine.Time
