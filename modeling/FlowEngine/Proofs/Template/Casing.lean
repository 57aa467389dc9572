import FlowEngine.Template.Condition
import Mathlib.Data.List.Basic
import Mathlib.Data.List.Infix
import Mathlib.Data.List.TakeWhile

/-!
# Comparisons that ignore case

A comparison that ignores case compares the lower case of both texts. The lower case of a part of a text
is the part of the lower case, except where the part has a capital sigma that is final in the part but
not in the text, or the other way around.

* `Text.lowerWithin` — the lower case of a part of a text, between what precedes it and what follows it.
* `Text.SigmasKept` — the capital sigmas of a part are final where they are in the text;
  `Text.Enclosed` — so they are wherever the part occurs.
* `casing_widens` — what holds when case counts, and holds too when it does not.
* `sigma_lost` — texts that have a part only if case counts.
-/

namespace FlowEngine.Text

variable {before before' after after' part cs u v : List Char} {c : Char}

/-! ## Lower case in context -/

/-- Whether a capital sigma is final between two texts; the one before it is in reverse. -/
def finalSigma (before after : List Char) : Bool := startsCased before && !startsCased after

/-- The lower case of a character between two texts; the one before it is in reverse. -/
def lowerAt (before : List Char) (c : Char) (after : List Char) : List Char :=
  if c = capitalSigma then [Char.ofNat (if finalSigma before after then 0x3C2 else 0x3C3)]
  else lowerChar c

/-- The lower case of a part of a text, given what precedes it in reverse, and what follows it. -/
def lowerWithin (before : List Char) : List Char → (after : List Char) → List Char
  | [], _ => []
  | c :: rest, after => lowerAt before c (rest ++ after) ++ lowerWithin (c :: before) rest after

theorem lowerAfter_cons (before : List Char) (c : Char) (cs : List Char) :
    lowerAfter before (c :: cs) = lowerAt before c cs ++ lowerAfter (c :: before) cs := rfl

theorem lowerAfter_append (before part cs : List Char) : lowerAfter before (part ++ cs) =
    lowerWithin before part cs ++ lowerAfter (part.reverse ++ before) cs := by
  induction part generalizing before with
  | nil => rfl
  | cons c part ih =>
    rw [List.cons_append, lowerAfter_cons, ih, lowerWithin, List.append_assoc, List.reverse_cons,
      List.append_assoc]
    rfl

theorem lowerWithin_nil (before part : List Char) : lowerWithin before part [] = lowerAfter before part := by
  have h := lowerAfter_append before part []
  rw [List.append_nil, lowerAfter, List.append_nil] at h
  exact h.symm

theorem length_lowerAt (before before' : List Char) (c : Char) (after after' : List Char) :
    (lowerAt before c after).length = (lowerAt before' c after').length := by
  unfold lowerAt
  split_ifs <;> rfl

theorem length_lowerWithin (before before' part after after' : List Char) :
    (lowerWithin before part after).length = (lowerWithin before' part after').length := by
  induction part generalizing before before' with
  | nil => rfl
  | cons c part ih =>
    rw [lowerWithin, lowerWithin, List.length_append, List.length_append,
      length_lowerAt before before' c (part ++ after) (part ++ after'), ih]

/-! ## Capital sigmas -/

/-- The capital sigmas of a part are final in two contexts alike. -/
def SigmasAgree (before after before' after' part : List Char) : Prop :=
  ∀ u v, part = u ++ capitalSigma :: v →
    finalSigma (u.reverse ++ before) (v ++ after) = finalSigma (u.reverse ++ before') (v ++ after')

theorem sigmasAgree_cons : SigmasAgree before after before' after' (c :: part) ↔
    (c = capitalSigma → finalSigma before (part ++ after) = finalSigma before' (part ++ after')) ∧
      SigmasAgree (c :: before) after (c :: before') after' part := by
  constructor
  · intro h
    refine ⟨fun hc => h [] part (by rw [hc]; rfl), fun u v huv => ?_⟩
    have := h (c :: u) v (by rw [huv]; rfl)
    simpa using this
  · rintro ⟨hfirst, hrest⟩ u v huv
    cases u with
    | nil =>
      obtain ⟨hc, rfl⟩ := List.cons.inj huv
      exact hfirst hc
    | cons d u =>
      obtain ⟨rfl, hpart⟩ := List.cons.inj huv
      have := hrest u v hpart
      simpa using this

theorem lowerAt_eq_iff : lowerAt before c after = lowerAt before' c after' ↔
    (c = capitalSigma → finalSigma before after = finalSigma before' after') := by
  unfold lowerAt
  split_ifs with hc <;> simp_all

/-- A part has the same lower case in two contexts just if its capital sigmas are final in both alike. -/
theorem lowerWithin_eq_iff : lowerWithin before part after = lowerWithin before' part after' ↔
    SigmasAgree before after before' after' part := by
  induction part generalizing before before' with
  | nil =>
    refine ⟨fun _ u v huv => ?_, fun _ => rfl⟩
    cases u <;> cases huv
  | cons c part ih =>
    rw [lowerWithin, lowerWithin, sigmasAgree_cons, ← lowerAt_eq_iff, ← ih]
    constructor
    · exact fun h => List.append_inj h (length_lowerAt before before' c _ _)
    · rintro ⟨hfirst, hrest⟩
      rw [hfirst, hrest]

/-- The capital sigmas of a part are final in a text, after what precedes the part and before what
follows it, where they are in the part alone. -/
def SigmasKept (before part after : List Char) : Prop := SigmasAgree before.reverse after [] [] part

theorem lowerWithin_eq_lower_iff :
    lowerWithin before.reverse part after = lower part ↔ SigmasKept before part after := by
  rw [lower, ← lowerWithin_nil, lowerWithin_eq_iff]
  rfl

/-- Around each capital sigma of a part there are characters on both sides, still in the part, that
decide whether it is final. -/
def Enclosed (part : List Char) : Prop :=
  ∀ u v, part = u ++ capitalSigma :: v →
    (∃ c ∈ u, isCaseIgnorable c = false) ∧ ∃ c ∈ v, isCaseIgnorable c = false

theorem startsCased_append (h : ∃ c ∈ cs, isCaseIgnorable c = false) (after : List Char) :
    startsCased (cs ++ after) = startsCased cs := by
  obtain ⟨c, hc, hignorable⟩ := h
  have hne : cs.dropWhile isCaseIgnorable ≠ [] := fun hnil => by
    have hall := List.dropWhile_eq_nil_iff.mp hnil c hc
    rw [hignorable] at hall
    cases hall
  obtain ⟨d, rest, hdrop⟩ := List.exists_cons_of_ne_nil hne
  rw [startsCased, startsCased, List.dropWhile_append, hdrop]
  rfl

theorem Enclosed.sigmasKept (h : Enclosed part) (before after : List Char) :
    SigmasKept before part after := by
  rintro u v rfl
  obtain ⟨hu, hv⟩ := h u v rfl
  have hu : ∃ c ∈ u.reverse, isCaseIgnorable c = false := by simpa using hu
  rw [finalSigma, finalSigma, startsCased_append hu, startsCased_append hv, startsCased_append hu,
    startsCased_append hv]

/-! ## Parts -/

theorem lower_append_append (before part after : List Char) : lower (before ++ (part ++ after)) =
    lowerWithin [] before (part ++ after) ++ (lowerWithin before.reverse part after ++
      lowerAfter (part.reverse ++ before.reverse) after) := by
  rw [lower, lowerAfter_append, lowerAfter_append, List.append_nil]

/-- A text begins with a part in lower case just if the capital sigmas of the part are kept. -/
theorem lower_isPrefix_iff : lower part <+: lower (part ++ after) ↔ SigmasKept [] part after := by
  rw [← lowerWithin_eq_lower_iff, lower, lower, lowerAfter_append, ← lowerWithin_nil]
  constructor
  · rintro ⟨rest, hrest⟩
    exact (List.append_inj hrest (length_lowerWithin _ _ _ _ _)).1.symm
  · intro h
    rw [← h]
    exact List.prefix_append _ _

/-- A text ends with a part in lower case just if the capital sigmas of the part are kept. -/
theorem lower_isSuffix_iff : lower part <:+ lower (before ++ part) ↔ SigmasKept before part [] := by
  rw [← lowerWithin_eq_lower_iff, lower, lower, lowerAfter_append, List.append_nil, ← lowerWithin_nil,
    ← lowerWithin_nil]
  constructor
  · rintro ⟨rest, hrest⟩
    exact (List.append_inj' hrest (length_lowerWithin _ _ _ _ _)).2.symm
  · intro h
    rw [← h]
    exact List.suffix_append _ _

theorem lower_isInfix (h : SigmasKept before part after) :
    lower part <:+: lower (before ++ (part ++ after)) := by
  rw [lower_append_append, lowerWithin_eq_lower_iff.mpr h]
  exact ⟨_, _, (List.append_assoc _ _ _)⟩

theorem occursIn_iff : occursIn part cs = true ↔ part <:+: cs := by
  induction cs with
  | nil => rw [occursIn, List.isEmpty_iff, List.infix_nil]
  | cons c cs ih => rw [occursIn, Bool.or_eq_true, ih, List.isPrefixOf_iff_prefix, List.infix_cons_iff]

/-! ## The case of a letter

The categories are read from a table. They are not unfolded in place: that would read it to its end. -/

namespace GeneralCategory

/-- A character has the category of the run that it lies in. -/
theorem of_eq_of_find? {r : Run} (h : runs.find? (fun r => c.toNat < r.stop) = some r) :
    of c = if c.toNat % 2 = 0 then r.even else r.odd := by
  have hof : ∀ f, f = of → f c = if c.toNat % 2 = 0 then r.even else r.odd := by
    intro f hf
    delta of at hf
    subst hf
    dsimp only
    rw [h]
  exact hof of rfl

/-- The runs of the table up to the first capital letters, and the beginning of the next one. -/
def firstRuns : List Char := "Cc32ZsPo3ScPo3PsPePoSmPoPdPo2Nd10Po2Sm3Po2Lu26P".toList

theorem firstRuns_isPrefix : firstRuns <+: categoryRuns.toList := by
  have hfirst : firstRuns <+:
      "Cc32ZsPo3ScPo3PsPePoSmPoPdPo2Nd10Po2Sm3Po2Lu26PsPoPeSkPcSkLl26PsSmPeSmCc33ZsPoSc4SoPoSkSoLoP".toList :=
    List.isPrefixOf_iff_prefix.mp (by decide +kernel)
  unfold categoryRuns
  rw [String.toList_append]
  repeat rw [String.toList_append, List.append_assoc]
  exact hfirst.trans (List.prefix_append _ _)

theorem of_capitalA : of 'A' = .Lu := by
  obtain ⟨rest, hrest⟩ := firstRuns_isPrefix
  have hfuel : 17 ≤ categoryRuns.length := by
    have hfirst : 17 ≤ firstRuns.length := by decide +kernel
    rw [← String.length_toList, ← hrest, List.length_append]
    omega
  obtain ⟨fuel, hfuel⟩ := Nat.exists_eq_add_of_le' hfuel
  have hrun : runs.find? (fun r => 'A'.toNat < r.stop) = some ⟨91, .Lu, .Lu⟩ := by
    rw [runs, ← hrest, hfuel]
    rfl
  exact of_eq_of_find? hrun

end GeneralCategory

theorem isCased_capitalA : isCased 'A' = true := by
  have hcased : ∀ f, f = isCased → f 'A' = true := by
    intro f hf
    delta isCased at hf
    subst hf
    dsimp only
    rw [GeneralCategory.of_capitalA]
  exact hcased isCased rfl

theorem isCaseIgnorable_capitalA : isCaseIgnorable 'A' = false := by
  have hignorable : ∀ f, f = isCaseIgnorable → f 'A' = false := by
    intro f hf
    delta isCaseIgnorable at hf
    subst hf
    dsimp only
    rw [GeneralCategory.of_capitalA]
    decide +kernel
  exact hignorable isCaseIgnorable rfl

theorem startsCased_capitalA (cs : List Char) : startsCased ('A' :: cs) = true := by
  rw [startsCased, List.dropWhile_cons_of_neg (by simp [isCaseIgnorable_capitalA])]
  exact isCased_capitalA

/-- A capital sigma between two letters is not final. -/
theorem lower_medial : lower "AΣA".toList = "aσa".toList := by
  change lowerAfter [] ['A', capitalSigma, 'A'] = _
  simp only [lowerAfter_cons, lowerAt, finalSigma, startsCased_capitalA]
  rfl

/-- A capital sigma after a letter, at the end, is final. -/
theorem lower_final : lower "AΣ".toList = "aς".toList := by
  change lowerAfter [] ['A', capitalSigma] = _
  simp only [lowerAfter_cons, lowerAt, finalSigma, startsCased_capitalA]
  rfl

/-- A capital sigma by itself is not final. -/
theorem lower_alone : lower "Σ".toList = "σ".toList := rfl

end FlowEngine.Text

namespace FlowEngine.Template

open FlowEngine.Flow FlowEngine.Text

variable {a b : Json} {before after : List Char}

/-- The characters of an operand. -/
def operandChars (j : Json) : List Char := (operandText j).toList

theorem casedText_true (j : Json) : (casedText true j).toList = operandChars j := rfl

theorem casedText_false (j : Json) : (casedText false j).toList = lower (operandChars j) := by
  rw [casedText, if_neg Bool.false_ne_true, lowerText, String.toList_ofList]
  rfl

/-- A comparison of texts holds, case counting, just if their characters are related. -/
theorem compareTexts_true_iff {relation : List Char → List Char → Bool} :
    compareTexts true a b relation = .ok true ↔ relation (operandChars a) (operandChars b) = true := by
  rw [compareTexts, casedText_true, casedText_true, Except.ok.injEq]

/-- It holds, case not counting, just if their lower case is. -/
theorem compareTexts_false_iff {relation : List Char → List Char → Bool} :
    compareTexts false a b relation = .ok true ↔
      relation (lower (operandChars a)) (lower (operandChars b)) = true := by
  rw [compareTexts, casedText_false, casedText_false, Except.ok.injEq]

theorem compare_startsWith (h : compare .textStartsWith true a b = .ok true) :
    ∃ after, operandChars a = operandChars b ++ after ∧
      (compare .textStartsWith false a b = .ok true ↔ SigmasKept [] (operandChars b) after) := by
  obtain ⟨after, hafter⟩ := List.isPrefixOf_iff_prefix.mp (compareTexts_true_iff.mp h)
  refine ⟨after, hafter.symm, compareTexts_false_iff.trans ?_⟩
  rw [List.isPrefixOf_iff_prefix, ← hafter, lower_isPrefix_iff]

theorem compare_endsWith (h : compare .textEndsWith true a b = .ok true) :
    ∃ before, operandChars a = before ++ operandChars b ∧
      (compare .textEndsWith false a b = .ok true ↔ SigmasKept before (operandChars b) []) := by
  obtain ⟨before, hbefore⟩ := List.isSuffixOf_iff_suffix.mp (compareTexts_true_iff.mp h)
  refine ⟨before, hbefore.symm, compareTexts_false_iff.trans ?_⟩
  rw [List.isSuffixOf_iff_suffix, ← hbefore, lower_isSuffix_iff]

theorem compare_contains (h : operandChars a = before ++ (operandChars b ++ after))
    (hkept : SigmasKept before (operandChars b) after) :
    compare .textContains false a b = .ok true := by
  refine compareTexts_false_iff.mpr (occursIn_iff.mpr ?_)
  rw [h]
  exact lower_isInfix hkept

theorem exists_of_contains (h : compare .textContains true a b = .ok true) :
    ∃ before after, operandChars a = before ++ (operandChars b ++ after) := by
  obtain ⟨before, after, heq⟩ := occursIn_iff.mp (compareTexts_true_iff.mp h)
  exact ⟨before, after, by rw [← heq, List.append_assoc]⟩

theorem compare_exactly (h : compare .textExactlyMatches true a b = .ok true) :
    compare .textExactlyMatches false a b = .ok true := by
  have heq : operandChars a = operandChars b := beq_iff_eq.mp (compareTexts_true_iff.mp h)
  exact compareTexts_false_iff.mpr (beq_iff_eq.mpr (by rw [heq]))

theorem sameItem_widens (h : sameItem true a b = true) : sameItem false a b = true := by
  by_cases htexts : ∃ s t, a = .str s ∧ b = .str t
  · obtain ⟨s, t, rfl, rfl⟩ := htexts
    obtain rfl : s = t := beq_iff_eq.mp h
    exact beq_iff_eq.mpr rfl
  · -- only between two texts does it matter whether case counts
    cases a with
    | str s =>
      cases b with
      | str t => exact absurd ⟨s, t, rfl, rfl⟩ htexts
      | _ => exact h
    | _ => exact h

theorem compare_listContains (h : compare .listContains true a b = .ok true) :
    compare .listContains false a b = .ok true := by
  unfold compare at h ⊢
  cases hlist : asList a with
  | error e => rw [hlist] at h; cases h
  | ok items =>
    rw [hlist] at h
    have hany : (items.any fun item => sameItem true item b) = true := Except.ok.inj h
    obtain ⟨item, hitem, hsame⟩ := List.any_eq_true.mp hany
    exact congrArg Except.ok (List.any_eq_true.mpr ⟨item, hitem, sameItem_widens hsame⟩)

/-- The comparisons that may ignore case, apart from those that ask for something to be missing. -/
def casedOperators : List Operator :=
  [.textContains, .textStartsWith, .textEndsWith, .textExactlyMatches, .listContains]

theorem compare_enclosed {operator : Operator} (hoperator : operator ∈ casedOperators)
    (henclosed : Enclosed (operandChars b)) (h : compare operator true a b = .ok true) :
    compare operator false a b = .ok true := by
  simp only [casedOperators, List.mem_cons, List.not_mem_nil, or_false] at hoperator
  rcases hoperator with rfl | rfl | rfl | rfl | rfl
  · obtain ⟨before, after, heq⟩ := exists_of_contains h
    exact compare_contains heq (henclosed.sigmasKept _ _)
  · obtain ⟨after, -, hiff⟩ := compare_startsWith h
    exact hiff.mpr (henclosed.sigmasKept _ _)
  · obtain ⟨before, -, hiff⟩ := compare_endsWith h
    exact hiff.mpr (henclosed.sigmasKept _ _)
  · exact compare_exactly h
  · exact compare_listContains h

/-- What holds when case counts holds when it does not: always for exact matches and members of lists,
for the beginning and the end of a text just if the capital sigmas of the part are kept, and inside a
text if they are kept at one place where the part occurs. So it is wherever what decides about the
capital sigmas of the part is in the part itself. -/
theorem casing_widens (a b : Json) :
    (compare .textExactlyMatches true a b = .ok true →
      compare .textExactlyMatches false a b = .ok true) ∧
    (compare .listContains true a b = .ok true → compare .listContains false a b = .ok true) ∧
    (compare .textStartsWith true a b = .ok true →
      ∃ after, operandChars a = operandChars b ++ after ∧
        (compare .textStartsWith false a b = .ok true ↔ SigmasKept [] (operandChars b) after)) ∧
    (compare .textEndsWith true a b = .ok true →
      ∃ before, operandChars a = before ++ operandChars b ∧
        (compare .textEndsWith false a b = .ok true ↔ SigmasKept before (operandChars b) [])) ∧
    (compare .textContains true a b = .ok true →
      (∃ before after, operandChars a = before ++ (operandChars b ++ after)) ∧
        ∀ before after, operandChars a = before ++ (operandChars b ++ after) →
          SigmasKept before (operandChars b) after → compare .textContains false a b = .ok true) ∧
    ∀ operator ∈ casedOperators, Enclosed (operandChars b) → compare operator true a b = .ok true →
      compare operator false a b = .ok true :=
  ⟨compare_exactly, compare_listContains, compare_startsWith, compare_endsWith,
    fun h => ⟨exists_of_contains h, fun _ _ heq hkept => compare_contains heq hkept⟩,
    fun _ hoperator henclosed h => compare_enclosed hoperator henclosed h⟩

/-- A text that begins and ends with a part whose capital sigma is between letters. -/
theorem enclosed_found : Enclosed (operandChars (.str "AΣA")) ∧
    ∀ operator ∈ [Operator.textContains, .textStartsWith, .textEndsWith],
      compare operator true (.str "AΣAΣA") (.str "AΣA") = .ok true ∧
        compare operator false (.str "AΣAΣA") (.str "AΣA") = .ok true := by
  have henclosed : Enclosed (operandChars (.str "AΣA")) := by
    intro u v huv
    have huv : ['A', capitalSigma, 'A'] = u ++ capitalSigma :: v := huv
    have hletter : 'A' ≠ capitalSigma := by decide
    rcases u with _ | ⟨c, _ | ⟨d, _ | ⟨e, u⟩⟩⟩ <;> simp [hletter] at huv
    obtain ⟨rfl, rfl⟩ := huv
    exact ⟨⟨'A', List.mem_cons_self, isCaseIgnorable_capitalA⟩,
      ⟨'A', List.mem_cons_self, isCaseIgnorable_capitalA⟩⟩
  have hfound : ∀ operator ∈ [Operator.textContains, .textStartsWith, .textEndsWith],
      compare operator true (.str "AΣAΣA") (.str "AΣA") = .ok true := by decide +kernel
  obtain ⟨-, -, -, -, -, hwidens⟩ := casing_widens (.str "AΣAΣA") (.str "AΣA")
  have hcased : ∀ operator ∈ [Operator.textContains, .textStartsWith, .textEndsWith],
      operator ∈ casedOperators := by decide
  exact ⟨henclosed, fun operator hoperator => ⟨hfound operator hoperator,
    hwidens operator (hcased operator hoperator) henclosed (hfound operator hoperator)⟩⟩

/-! ## Where the match is lost -/

/-- Texts that begin and end with a part and contain it, if case counts, and do not if it does not. -/
theorem sigma_lost :
    (compare .textStartsWith true (.str "AΣA") (.str "AΣ") = .ok true ∧
      compare .textStartsWith false (.str "AΣA") (.str "AΣ") = .ok false) ∧
    (compare .textContains true (.str "AΣA") (.str "AΣ") = .ok true ∧
      compare .textContains false (.str "AΣA") (.str "AΣ") = .ok false) ∧
    compare .textEndsWith true (.str "AΣ") (.str "Σ") = .ok true ∧
      compare .textEndsWith false (.str "AΣ") (.str "Σ") = .ok false := by
  have htext : (casedText false (.str "AΣA")).toList = "aσa".toList :=
    (casedText_false _).trans lower_medial
  have hpart : (casedText false (.str "AΣ")).toList = "aς".toList :=
    (casedText_false _).trans lower_final
  have hend : (casedText false (.str "Σ")).toList = "σ".toList := (casedText_false _).trans lower_alone
  refine ⟨⟨by decide +kernel, ?_⟩, ⟨by decide +kernel, ?_⟩, by decide +kernel, ?_⟩
  · rw [compare, compareTexts, htext, hpart]
    decide +kernel
  · rw [compare, compareTexts, htext, hpart]
    decide +kernel
  · rw [compare, compareTexts, hpart, hend]
    decide +kernel

end FlowEngine.Template
