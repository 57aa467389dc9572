import FlowEngine.Proofs.Documents.Numerals
import FlowEngine.Proofs.Number.Rereading

/-!
# Reading written numbers

* `ReadAs` — what a text is read as, whatever follows it.
* `number?_numberText` — a written number is read as `Binary64.reread` says.
-/

namespace FlowEngine.Json

open Binary64 (ofScientific)
open Nat (ofDigitChars toDigits)

variable {whole fraction ds rest : List Char} {m : Nat} {e : Int} {d : Decimal} {x : Binary64}

/-- The text is read as so many units of a power of ten, with or without a sign before it. -/
def ReadAs (text : List Char) (m : Nat) (e : Int) : Prop :=
  ∀ (negative : Bool) (rest : List Char), Ends rest →
    number? (signChars negative ++ (text ++ rest)) =
      (ofScientific m e).map fun x => (.float (if negative then x.neg else x), rest)

/-- A text is read as the value of the numeral that it is. -/
theorem ReadAs.of_numeral {text : List Char} (fraction : Option (List Char)) (exponent : Option Int)
    (hnumeral : ∀ negative rest, Ends rest → numeral? (signChars negative ++ (text ++ rest)) =
      some (⟨negative, whole, fraction, exponent⟩, rest))
    (hne : fraction ≠ none ∨ exponent ≠ none) (hm : ofDigitChars 10 (whole ++ fraction.getD []) 0 = m)
    (hle : m ≤ maxInteger) (he : exponent.getD 0 - (fraction.getD []).length = e) :
    ReadAs text m e := by
  intro negative rest hr
  subst hm he
  rw [number?, hnumeral negative rest hr]
  simp only [Option.bind_eq_bind, Option.bind_some, Numeral.value?_fits negative hne hle]
  cases ofScientific _ _ <;> rfl

/-- A whole part and a fraction. -/
theorem ReadAs.positional (hw : IsWhole whole) (hf : Digits fraction) (hne : fraction ≠ [])
    (hm : ofDigitChars 10 (whole ++ fraction) 0 = m) (hle : m ≤ maxInteger) :
    ReadAs (whole ++ '.' :: fraction) m (-fraction.length) := by
  refine .of_numeral (some fraction) none (fun negative rest hr => ?_)
    (.inl (Option.some_ne_none _)) hm hle (Int.zero_sub _)
  rw [List.append_assoc, List.cons_append]
  exact numeral?_fraction hw hf hne hr.digits (exponentPart?_none hr)

/-- The text of an exponent. -/
def exponentText (e : Int) : List Char :=
  'e' :: ((if 0 ≤ e then ['+'] else ['-']) ++ toDigits 10 e.natAbs)

theorem exponentPart?_exponentText (hr : Ends rest) :
    exponentPart? (exponentText e ++ rest) = some (some e, rest) := by
  rw [exponentText, List.cons_append, List.append_assoc]
  refine exponentPart?_some (.toDigits _) Nat.toDigits_ne_nil hr.digits ?_
  rw [Nat.ofDigitChars_ten_toDigits]
  split_ifs with h
  · exact .inr ⟨rfl, by omega⟩
  · exact .inl ⟨rfl, by omega⟩

theorem exponentText_append (e : Int) (rest : List Char) : ∃ cs, exponentText e ++ rest = 'e' :: cs :=
  ⟨_, rfl⟩

/-- A whole part and an exponent. -/
theorem ReadAs.exponential (hw : IsWhole whole) (hm : ofDigitChars 10 whole 0 = m) (hle : m ≤ maxInteger) :
    ReadAs (whole ++ exponentText e) m e := by
  refine .of_numeral none (some e) (fun negative rest hr => ?_)
    (.inr (Option.some_ne_none _)) ((congrArg (ofDigitChars 10 · 0) (List.append_nil whole)).trans hm)
    hle (Int.sub_zero e)
  have he := exponentPart?_exponentText (e := e) hr
  obtain ⟨cs, hcs⟩ := exponentText_append e rest
  rw [hcs] at he
  rw [List.append_assoc, hcs]
  exact numeral?_exponent hw (by rintro c ⟨⟩; rfl) (by rintro ⟨⟩) he

/-- A whole part, a fraction and an exponent. -/
theorem ReadAs.exponential_fraction (hw : IsWhole whole) (hf : Digits fraction) (hne : fraction ≠ [])
    (hm : ofDigitChars 10 (whole ++ fraction) 0 = m) (hle : m ≤ maxInteger) :
    ReadAs (whole ++ '.' :: (fraction ++ exponentText e)) m (e - fraction.length) := by
  refine .of_numeral (some fraction) (some e) (fun negative rest hr => ?_)
    (.inl (Option.some_ne_none _)) hm hle rfl
  have he := exponentPart?_exponentText (e := e) hr
  obtain ⟨cs, hcs⟩ := exponentText_append e rest
  rw [hcs] at he
  rw [List.append_assoc, List.cons_append, List.append_assoc, hcs]
  exact numeral?_fraction hw hf hne (by rintro c ⟨⟩; rfl) he

/-! ## Decimals -/

/-- Scientific notation, with a point after the first digit if there are more. -/
theorem ReadAs.mantissa (hd : d.digits ≤ maxInteger) :
    ReadAs (d.mantissa ++ exponentText (d.pointPosition - 1)) d.digits d.exponent := by
  have hdigits := Digits.toDigits d.digits
  have hvalue := Nat.ofDigitChars_ten_toDigits (n := d.digits)
  unfold Decimal.mantissa Decimal.pointPosition Decimal.digitChars
  rcases hds : toDigits 10 d.digits with _ | ⟨c, _ | ⟨c', ds⟩⟩ <;> rw [hds] at hdigits hvalue
  · exact absurd hds Nat.toDigits_ne_nil
  · have hexp : (([c].length : Nat) : Int) + d.exponent - 1 = d.exponent := by
      rw [List.length_singleton]
      omega
    rw [hexp]
    exact .exponential ⟨hdigits, by rintro ⟨⟩, fun _ => rfl⟩ hvalue hd
  · have hexp : (((c :: c' :: ds).length : Nat) : Int) + d.exponent - 1 - (c' :: ds).length =
        d.exponent := by
      rw [List.length_cons]
      omega
    have hwhole : IsWhole [c] :=
      ⟨fun a ha => hdigits a (List.mem_cons.mpr (.inl (List.mem_singleton.mp ha))), by rintro ⟨⟩,
        fun _ => rfl⟩
    have h := ReadAs.exponential_fraction (e := ((c :: c' :: ds).length : Nat) + d.exponent - 1) hwhole
      (fun a ha => hdigits a (List.mem_cons_of_mem _ ha)) (by rintro ⟨⟩) hvalue hd
    rwa [hexp] at h

theorem ofDigitChars_trailingZeros (ds : List Char) (n init : Nat) :
    ofDigitChars 10 (ds ++ List.replicate n '0') init = ofDigitChars 10 ds init * 10 ^ n := by
  induction n with
  | zero => simp
  | succ n ih =>
    rw [List.replicate_succ', ← List.append_assoc, Nat.ofDigitChars_append, ih,
      Nat.ofDigitChars_cons, Nat.ofDigitChars_nil, Nat.pow_succ]
    change 10 * _ + 0 = _
    ring

/-- Positional notation of an integral number: a zero stands after the point. -/
theorem ReadAs.integral (he : 0 ≤ d.exponent) (hzero : d.digits = 0 → d.exponent = 0)
    (hd : d.digits * 10 ^ (d.exponent.toNat + 1) ≤ maxInteger) :
    ReadAs (Binary64.positionalText d) (d.digits * 10 ^ (d.exponent.toNat + 1)) (-1) := by
  have hwhole : IsWhole (d.digitChars ++ List.replicate d.exponent.toNat '0') := by
    refine ⟨(Digits.toDigits _).append (.zeros _), ?_, fun h => ?_⟩
    · simp [Decimal.digitChars]
    · rw [Decimal.digitChars, List.head?_append_of_ne_nil _ Nat.toDigits_ne_nil] at h
      have hdigits := Nat.eq_zero_of_not_pos fun hpos => head?_toDigits hpos h
      rw [Decimal.digitChars, hdigits, hzero hdigits]
      rfl
  rw [Binary64.positionalText, Decimal.positional, if_pos he, if_pos he]
  have hfraction : Digits ['0'] := .zeros 1
  refine .positional hwhole hfraction (by decide) ?_ hd
  rw [List.append_assoc, ← List.replicate_succ', ofDigitChars_trailingZeros, Decimal.digitChars,
    Nat.ofDigitChars_ten_toDigits]

/-- Positional notation of a number with a fraction. -/
theorem ReadAs.proper (he : d.exponent < 0) (hd : d.digits ≤ maxInteger) :
    ReadAs (Binary64.positionalText d) d.digits d.exponent := by
  rw [Binary64.positionalText, if_neg (by omega), Decimal.positional, if_neg (by omega)]
  have hdigits := Digits.toDigits d.digits
  have hvalue := Nat.ofDigitChars_ten_toDigits (n := d.digits)
  have hlen : d.pointPosition = (toDigits 10 d.digits).length + d.exponent := rfl
  unfold Decimal.digitChars
  split_ifs with hp
  · -- the point stands between the digits
    have hne : 0 < d.digits := Nat.pos_of_ne_zero fun h => by
      rw [hlen, h] at hp
      simp at hp
      omega
    have hwhole : IsWhole ((toDigits 10 d.digits).take d.pointPosition.toNat) := by
      refine ⟨fun c hc => hdigits c (List.mem_of_mem_take hc), ?_, fun h => ?_⟩
      · rw [Ne, List.take_eq_nil_iff, not_or]
        exact ⟨by omega, Nat.toDigits_ne_nil⟩
      · rw [List.head?_take, if_neg (by omega)] at h
        exact absurd h (head?_toDigits hne)
    have hfraction : Digits ((toDigits 10 d.digits).drop d.pointPosition.toNat) :=
      fun c hc => hdigits c (List.mem_of_mem_drop hc)
    have h := ReadAs.positional hwhole hfraction (by rw [Ne, List.drop_eq_nil_iff]; omega)
      (by rw [List.take_append_drop, hvalue]) hd
    rwa [List.length_drop, show -(((toDigits 10 d.digits).length - d.pointPosition.toNat : Nat) : Int) =
      d.exponent by omega] at h
  · -- zeros stand between the point and the digits
    have hwhole : IsWhole ['0'] := ⟨.zeros 1, by decide, fun _ => rfl⟩
    have hfraction : Digits (List.replicate (-d.pointPosition).toNat '0' ++ toDigits 10 d.digits) :=
      (Digits.zeros _).append hdigits
    have h := ReadAs.positional hwhole hfraction (by simp) ?_ hd
    · rwa [List.length_append, List.length_replicate,
        show -((((-d.pointPosition).toNat + (toDigits 10 d.digits).length : Nat)) : Int) = d.exponent
          by omega] at h
    · exact (ofDigitChars_zeros (_ + 1) _).trans hvalue

/-! ## Numbers -/

/-- The text of a number without its sign. -/
def magnitudeText (x : Binary64) : List Char :=
  let d := x.shortest
  let p := d.pointPosition
  if d.digits = 0 ∨ -5 < p ∧ p ≤ 16 then Binary64.positionalText d
  else d.mantissa ++ exponentText (p - 1)

theorem toString_exponent (p : Int) : 'e' :: (if 0 < p then '+' :: (toString (p - 1)).toList
    else (toString (p - 1)).toList) = exponentText (p - 1) := by
  rw [exponentText, toString_int]
  by_cases h : 0 < p
  · rw [if_pos h, if_pos (by omega), decide_eq_false (by omega)]
    rfl
  · rw [if_neg h, if_neg (by omega), decide_eq_true (by omega)]
    rfl

theorem numberText_eq (hx : x.isFinite = true) :
    numberText x = signChars x.negative ++ magnitudeText x := by
  rw [numberText, if_pos hx]
  dsimp only
  rw [toString_exponent]
  cases x.negative <;> rfl

/-- The text of a number without its sign is read as the digits that are written. -/
theorem ReadAs.magnitude (x : Binary64) :
    ReadAs (magnitudeText x) x.written.1 x.written.2 := by
  have hmax : 10 ^ 17 ≤ maxInteger := by decide
  by_cases hzero : x.units = 0
  · have hshortest : x.shortest = ⟨0, 0⟩ := if_pos hzero
    rw [Binary64.written_zero hzero, magnitudeText, hshortest]
    exact ReadAs.integral (d := ⟨0, 0⟩) (le_refl _) (fun _ => rfl) (by decide)
  obtain ⟨hpos, hdigits, -⟩ := Binary64.shortest_spec hzero
  unfold magnitudeText Binary64.written
  dsimp only
  by_cases hwhole : 0 ≤ x.shortest.exponent ∧ x.shortest.pointPosition ≤ 16
  · have hle := (Binary64.digits_mul_le hwhole.1 hwhole.2).trans hmax
    have hlen : 0 < (toDigits 10 x.shortest.digits).length := Nat.length_toDigits_pos
    have hpoint : x.shortest.pointPosition =
      (toDigits 10 x.shortest.digits).length + x.shortest.exponent := rfl
    rw [if_pos hwhole, if_pos (.inr ⟨by omega, hwhole.2⟩)]
    exact .integral hwhole.1 (fun h => absurd h (Nat.ne_of_gt hpos)) hle
  · rw [if_neg hwhole]
    split_ifs with hplain
    · exact .proper (by omega) (hdigits.trans hmax)
    · exact .mantissa (hdigits.trans hmax)

/-- A finite number is read as the number that its text stands for. -/
theorem number?_numberText (hx : x.isFinite = true) (hr : Ends rest) :
    number? (numberText x ++ rest) = some (.float x.reread, rest) := by
  obtain ⟨y, hy, -⟩ := Binary64.ofScientific_written hx
  rw [numberText_eq hx, List.append_assoc, ReadAs.magnitude x _ _ hr, Binary64.reread, hy]
  rfl

end FlowEngine.Json
