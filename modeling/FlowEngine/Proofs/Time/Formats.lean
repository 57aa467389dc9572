import FlowEngine.Time.Format
import Mathlib.Tactic.SplitIfs

/-!
# Formats of instants

Whether a text is a format does not depend on the instant: it is one if every percent sign in it begins
a specifier.

* `specifiers` — what can follow a percent sign.
* `Format` — texts in which specifiers follow all percent signs.
* `Instant.format?_isSome` — an instant can be written in a format, and in nothing else.
-/

namespace FlowEngine.Time

/-! ## Specifiers -/

/-- The specifiers of numbers, which can be filled up in some way. -/
def numericSpecifiers : List Char :=
  ['Y', 'C', 'y', 'G', 'g', 'q', 'm', 'd', 'e', 'w', 'u', 'U', 'W', 'V', 'j', 'H', 'k', 'I', 'l', 'M',
    'S', 'f', 's']

/-- The other specifiers of one character. -/
def fixedSpecifiers : List Char :=
  ['a', 'A', 'b', 'h', 'B', 'D', 'x', 'F', 'v', 'P', 'p', 'R', 'T', 'X', 'r', 'Z', 'z', 'c', '+', 't',
    'n', '%']

/-- The specifiers of fractions of a second, and of the offset from UTC. -/
def longSpecifiers : List String :=
  [".f", ".3f", ".6f", ".9f", "3f", "6f", "9f", ":z", "::z", ":::z"]

/-- What can follow a percent sign. -/
inductive Specifier : List Char → Prop
  | numeric {c} (h : c ∈ numericSpecifiers) : Specifier [c]
  | padded {p c} (hp : p ∈ ['-', '0', '_']) (h : c ∈ numericSpecifiers) : Specifier [p, c]
  | fixed {c} (h : c ∈ fixedSpecifiers) : Specifier [c]
  | long {s} (h : s ∈ longSpecifiers) : Specifier s.toList

/-- A text in which specifiers follow all percent signs. -/
inductive Format : List Char → Prop
  | nil : Format []
  | plain {c rest} (h : c ≠ '%') (next : Format rest) : Format (c :: rest)
  | part {spec rest} (h : Specifier spec) (next : Format rest) : Format ('%' :: (spec ++ rest))

variable {t : Instant} {c : Char} {cs rest text : List Char}

theorem numericPart?_isSome (t : Instant) (c : Char) :
    (numericPart? t c).isSome = true ↔ c ∈ numericSpecifiers := by
  unfold numericPart?
  split <;> simp_all [numericSpecifiers]

theorem fixedPart?_isSome (t : Instant) (c : Char) :
    (fixedPart? t c).isSome = true ↔ c ∈ fixedSpecifiers := by
  unfold fixedPart?
  dsimp only
  generalize (if t.isAfternoon = true then "PM" else "AM") = half
  split <;> simp_all [fixedSpecifiers]

theorem fractionDigits?_isSome (t : Instant) (c : Char) :
    (fractionDigits? t c).isSome = true ↔ c ∈ ['3', '6', '9'] := by
  unfold fractionDigits?
  split <;> simp_all

/-- A part begins with a specifier. -/
theorem part?_spec (h : part? t cs = some (text, rest)) :
    ∃ spec, Specifier spec ∧ cs = spec ++ rest := by
  have padded {p c : Char} {pad : Padding} {cs : List Char} (hp : p ∈ ['-', '0', '_'])
      (h : (((numericPart? t c).map fun x => x.2 pad).map fun x => (x, cs)) = some (text, rest)) :
      ∃ spec, Specifier spec ∧ p :: c :: cs = spec ++ rest := by
    cases hc : numericPart? t c with
    | none => rw [hc] at h; cases h
    | some x =>
      rw [hc] at h
      cases h
      exact ⟨_, .padded hp ((numericPart?_isSome t c).mp (by rw [hc]; rfl)), rfl⟩
  have long {s : String} {cs : List Char} (hs : s ∈ longSpecifiers) (hcs : cs = s.toList ++ rest) :
      ∃ spec, Specifier spec ∧ cs = spec ++ rest := ⟨_, .long hs, hcs⟩
  unfold part? at h
  dsimp only at h
  split at h
  · exact padded (by decide) h
  · exact padded (by decide) h
  · exact padded (by decide) h
  · cases h
    exact long (s := ".f") (by decide) rfl
  next n cs _ =>
    cases hn : fractionDigits? t n with
    | none => rw [hn] at h; cases h
    | some ds =>
      rw [hn] at h
      cases h
      have hn : n ∈ ['3', '6', '9'] := (fractionDigits?_isSome t n).mp (by rw [hn]; rfl)
      refine long (s := String.ofList ['.', n, 'f']) ?_ (by simp)
      simp only [List.mem_cons, List.not_mem_nil, or_false] at hn
      rcases hn with rfl | rfl | rfl <;> decide
  · cases h
    exact long (s := ":::z") (by decide) rfl
  · cases h
    exact long (s := "::z") (by decide) rfl
  · cases h
    exact long (s := ":z") (by decide) rfl
  next c cs _ _ _ _ _ _ _ _ =>
    cases hn : numericPart? t c with
    | some x =>
      rw [hn] at h
      cases h
      exact ⟨_, .numeric ((numericPart?_isSome t c).mp (by rw [hn]; rfl)), rfl⟩
    | none =>
      rw [hn] at h
      dsimp only at h
      cases hf : fixedPart? t c with
      | some ds =>
        rw [hf] at h
        cases h
        exact ⟨_, .fixed ((fixedPart?_isSome t c).mp (by rw [hf]; rfl)), rfl⟩
      | none =>
        cases hd : fractionDigits? t c with
        | none => rw [hf, hd] at h; cases h
        | some ds =>
          rw [hf, hd] at h
          split at h
          · contradiction
          · cases h
            have hc : c ∈ ['3', '6', '9'] := (fractionDigits?_isSome t c).mp (by rw [hd]; rfl)
            refine long (s := String.ofList [c, 'f']) ?_ (by simp)
            simp only [List.mem_cons, List.not_mem_nil, or_false] at hc
            rcases hc with rfl | rfl | rfl <;> decide
          · cases h
  · cases h

/-- Before most characters, no other one changes what they stand for. -/
theorem part?_cons (t : Instant) (rest : List Char) (h : c ∉ ['-', '0', '_', '.', ':']) :
    part? t (c :: rest) =
      match numericPart? t c with
      | some (p, text) => some (text p, rest)
      | none =>
        match fixedPart? t c, fractionDigits? t c, rest with
        | some text, _, _ => some (text, rest)
        | none, some ds, 'f' :: rest => some (ds, rest)
        | _, _, _ => none := by
  unfold part?
  split
  case h_9 heq =>
    obtain ⟨rfl, rfl⟩ := List.cons.inj heq
    rfl
  case h_10 heq => cases heq
  all_goals next heq =>
    rw [(List.cons.inj heq).1] at h
    exact absurd (by decide) h

/-- What stands behind a specifier is left. -/
theorem part?_of_specifier {spec : List Char} (h : Specifier spec) (t : Instant) (rest : List Char) :
    ∃ text, part? t (spec ++ rest) = some (text, rest) := by
  cases h with
  | @numeric c h =>
    obtain ⟨x, hx⟩ := Option.isSome_iff_exists.mp ((numericPart?_isSome t c).mpr h)
    have hplain : (numericSpecifiers.all (· ∉ ['-', '0', '_', '.', ':'])) = true := by decide
    have hc := of_decide_eq_true (List.all_eq_true.mp hplain c h)
    exact ⟨_, by rw [List.singleton_append, part?_cons t rest hc, hx]⟩
  | @padded p c hp h =>
    obtain ⟨⟨p, padded⟩, hx⟩ := Option.isSome_iff_exists.mp ((numericPart?_isSome t c).mpr h)
    simp only [List.mem_cons, List.not_mem_nil, or_false] at hp
    rcases hp with rfl | rfl | rfl
    · exact ⟨padded .none, by simp only [List.cons_append, List.nil_append, part?, hx, Option.map_some]⟩
    · exact ⟨padded .zero, by simp only [List.cons_append, List.nil_append, part?, hx, Option.map_some]⟩
    · exact ⟨padded .space, by simp only [List.cons_append, List.nil_append, part?, hx, Option.map_some]⟩
  | @fixed c h =>
    obtain ⟨x, hx⟩ := Option.isSome_iff_exists.mp ((fixedPart?_isSome t c).mpr h)
    have hplain : (fixedSpecifiers.all fun c =>
        c ∉ ['-', '0', '_', '.', ':'] ∧ c ∉ numericSpecifiers) = true := by decide
    obtain ⟨hc, hother⟩ := of_decide_eq_true (List.all_eq_true.mp hplain c h)
    have hnumeric : numericPart? t c = none := by
      rwa [← Option.not_isSome_iff_eq_none, numericPart?_isSome]
    exact ⟨_, by rw [List.singleton_append, part?_cons t rest hc, hnumeric, hx]⟩
  | long h =>
    simp only [longSpecifiers, List.mem_cons, List.not_mem_nil, or_false] at h
    rcases h with rfl | rfl | rfl | rfl | rfl | rfl | rfl | rfl | rfl | rfl <;> exact ⟨_, rfl⟩

theorem Format.cons_iff (hc : c ≠ '%') : Format (c :: cs) ↔ Format cs := by
  refine ⟨fun h => ?_, .plain hc⟩
  cases h with
  | plain _ next => exact next
  | part => exact absurd rfl hc

theorem Format.percent_iff :
    Format ('%' :: cs) ↔ ∃ spec rest, Specifier spec ∧ cs = spec ++ rest ∧ Format rest := by
  constructor
  · intro h
    cases h with
    | plain hne => exact absurd rfl hne
    | part hspec next => exact ⟨_, _, hspec, rfl, next⟩
  · rintro ⟨spec, rest, hspec, rfl, next⟩
    exact .part hspec next

/-- An instant can be written in every format, and in nothing that is none. -/
theorem formatChars?_isSome {fuel : Nat} (h : cs.length ≤ fuel) :
    (formatChars? t fuel cs).isSome = true ↔ Format cs := by
  induction fuel generalizing cs with
  | zero =>
    obtain rfl := List.length_eq_zero_iff.mp (Nat.le_zero.mp h)
    exact iff_of_true (by rw [formatChars?]; rfl) .nil
  | succ fuel ih =>
    cases cs with
    | nil => exact iff_of_true (by rw [formatChars?]; rfl) .nil
    | cons c cs =>
      rw [List.length_cons] at h
      by_cases hc : c = '%'
      · subst hc
        rw [formatChars?, Format.percent_iff]
        have part {spec rest : List Char} (hcs : cs = spec ++ rest) (text : List Char) :
            ((formatChars? t fuel rest).map (text ++ ·)).isSome = true ↔ Format rest := by
          have hlen : cs.length = spec.length + rest.length := by rw [hcs, List.length_append]
          rw [Option.isSome_map, ih (by omega)]
        constructor
        · intro hsome
          obtain ⟨chars, hchars⟩ := Option.isSome_iff_exists.mp hsome
          obtain ⟨⟨text, rest⟩, hpart, hrest⟩ := Option.bind_eq_some_iff.mp hchars
          obtain ⟨spec, hspec, hcs⟩ := part?_spec hpart
          exact ⟨spec, rest, hspec, hcs, (part hcs text).mp (congrArg Option.isSome hrest)⟩
        · rintro ⟨spec, rest, hspec, rfl, next⟩
          obtain ⟨text, hpart⟩ := part?_of_specifier hspec t rest
          rw [hpart]
          exact (part rfl text).mpr next
      · rw [formatChars?, Option.isSome_map, ih (by omega), Format.cons_iff hc]
        exact fun h => hc h

theorem Instant.format?_isSome (t : Instant) (format : String) :
    (t.format? format).isSome = true ↔ Format format.toList := by
  rw [Instant.format?, Option.isSome_map]
  exact formatChars?_isSome (Nat.le_succ _)

end FlowEngine.Time
