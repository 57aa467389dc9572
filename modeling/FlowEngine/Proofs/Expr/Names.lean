import FlowEngine.Expr.Parser
import FlowEngine.Flow.Validate
import Mathlib.Data.List.TakeWhile

/-!
# Names as expressions

Steps have names that can be used in expressions.

* `lex_name` — such a name is a single token.
* `read_name` — as an expression, it is that name, unless it stands for a constant or an operator.
-/

namespace FlowEngine.Expr

open FlowEngine.Flow (isStepName)

variable {n : String} {c : Char} {cs : List Char} {line : Nat}

/-! ## Tokens -/

theorem range_of_isAlpha (hc : c.isAlpha = true) :
    65 ≤ c.toNat ∧ c.toNat ≤ 90 ∨ 97 ≤ c.toNat ∧ c.toNat ≤ 122 := by
  change (decide (c.val ≥ 65 ∧ c.val ≤ 90) ||
    decide (c.val ≥ 97) && decide (c.val ≤ 122)) = true at hc
  simp only [Bool.or_eq_true, Bool.and_eq_true, decide_eq_true_eq] at hc
  exact hc

/-- A name begins with an ASCII letter or an underscore. -/
theorem range_of_startsName (hc : startsName c = true) :
    65 ≤ c.toNat ∧ c.toNat ≤ 90 ∨ 97 ≤ c.toNat ∧ c.toNat ≤ 122 ∨ c.toNat = 95 := by
  rw [startsName, Bool.or_eq_true, beq_iff_eq] at hc
  rcases hc with hc | rfl
  · exact (range_of_isAlpha hc).imp_right .inl
  · exact .inr (.inr rfl)

theorem ofPair?_of_startsName (hc : startsName c = true) (d : Char) : Sign.ofPair? c d = none := by
  unfold Sign.ofPair?
  split <;> first | rfl | exact absurd hc (by decide)

theorem ofChar?_of_startsName (hc : startsName c = true) : Sign.ofChar? c = none := by
  unfold Sign.ofChar?
  split <;> first | rfl | exact absurd hc (by decide)

theorem isDigit_of_startsName (hc : startsName c = true) : c.isDigit = false := by
  have h := range_of_startsName hc
  refine Bool.eq_false_iff.mpr fun hd => ?_
  simp only [Char.isDigit, Bool.and_eq_true, decide_eq_true_eq] at hd
  have hhi : c.toNat ≤ 57 := hd.2
  omega

/-- A name consists of ASCII digits, letters and underscores. -/
theorem range_of_inName (hc : inName c = true) : 48 ≤ c.toNat ∧ c.toNat ≤ 57 ∨
    65 ≤ c.toNat ∧ c.toNat ≤ 90 ∨ 97 ≤ c.toNat ∧ c.toNat ≤ 122 ∨ c.toNat = 95 := by
  rw [inName, Char.isAlphanum, Bool.or_eq_true, Bool.or_eq_true, beq_iff_eq] at hc
  rcases hc with (hc | hc) | rfl
  · exact .inr ((range_of_isAlpha hc).imp_right .inl)
  · simp only [Char.isDigit, Bool.and_eq_true, decide_eq_true_eq] at hc
    exact .inl hc
  · exact .inr (.inr (.inr rfl))

theorem isSpace_of_inName (hc : inName c = true) : isSpace c = false := by
  have h := range_of_inName hc
  refine Bool.eq_false_iff.mpr fun hs => ?_
  simp only [isSpace, Bool.or_eq_true, beq_iff_eq] at hs
  rcases hs with (((rfl | rfl) | rfl) | rfl) | hs
  · exact absurd hc (by decide)
  · exact absurd hc (by decide)
  · exact absurd hc (by decide)
  · exact absurd hc (by decide)
  · omega

theorem inName_of_startsName (hc : startsName c = true) : inName c = true := by
  simp only [startsName, inName, Char.isAlphanum, Bool.or_eq_true] at hc ⊢
  exact hc.imp .inl id

/-- Characters of a name are one token. -/
theorem token_name (hc : startsName c = true) (hcs : ∀ d ∈ c :: cs, inName d = true) :
    token (c :: cs) = (.name (String.ofList (c :: cs)), (c :: cs).length) := by
  have hpair : cs.head?.bind (Sign.ofPair? c) = none := by
    cases cs with
    | nil => rfl
    | cons d cs => exact ofPair?_of_startsName hc d
  have hquote : ¬ (c = '\'' ∨ c = '"') := by
    rintro (rfl | rfl) <;> exact absurd hc (by decide)
  have hall : (c :: cs).takeWhile inName = c :: cs := List.takeWhile_eq_self_iff.mpr hcs
  simp only [token, hpair, ofChar?_of_startsName hc, if_neg hquote, isDigit_of_startsName hc, hc, hall]
  rfl

/-- A step name begins as names do, and has no other characters than names have. -/
theorem exists_of_isStepName (h : isStepName n = true) :
    ∃ c cs, n.toList = c :: cs ∧ startsName c = true ∧ ∀ d ∈ c :: cs, inName d = true := by
  unfold isStepName at h
  split at h
  · cases h
  next c cs hn =>
    rw [Bool.and_eq_true] at h
    refine ⟨c, cs, hn, h.1, ?_⟩
    rintro d (_ | ⟨_, hd⟩)
    · exact inName_of_startsName h.1
    · exact List.all_eq_true.mp h.2 d hd

theorem lex_name (h : isStepName n = true) : lex n = [⟨.name n, 1⟩] := by
  obtain ⟨c, cs, hn, hc, hall⟩ := exists_of_isStepName h
  have hblank : (c :: cs).takeWhile isSpace = [] :=
    List.takeWhile_cons_of_neg (by simp [isSpace_of_inName (inName_of_startsName hc)])
  have hname : String.ofList (c :: cs) = n := by rw [← hn, String.ofList_toList]
  rw [lex, hn, lexFrom, hblank]
  simp only [List.length_nil, List.drop_zero, token_name hc hall, hname, List.drop_length]
  cases n.length <;> rfl

/-! ## Terms -/

section

variable {e : Term} {ts : Rest} {p term atom : Front Term}

theorem chain_of_end {op : Token → Option (Nat → Term → Term → Term)} (h : p ts = .ok (e, [])) :
    chain op p ts = .ok (e, []) := by
  simp only [chain, h]
  rfl

theorem compared_of_end (h : p ts = .ok (e, [])) : compared p ts = .ok (e, []) := by
  simp only [compared, h]
  rfl

theorem looseTerm_name (hn : n ≠ "not") (h : p [⟨.name n, line⟩] = .ok (e, [])) :
    looseTerm p [⟨.name n, line⟩] = .ok (e, []) := by
  refine chain_of_end (chain_of_end ?_)
  rw [inverted, if_neg (by simpa using hn)]
  exact compared_of_end (chain_of_end (chain_of_end (chain_of_end (chain_of_end h))))

theorem operand_name (h : atom [⟨.name n, line⟩] = .ok (e, [])) :
    operand term atom [⟨.name n, line⟩] = .ok (e, []) := by
  have hplain : plain term atom [⟨.name n, line⟩] = .ok (e, []) := by
    rw [plain, signed, if_neg (by simp), h]
    rfl
  rw [operand, hplain]
  rfl

theorem primary_name (h : constant? n = none) :
    primary term [⟨.name n, line⟩] = .ok (.name line n, []) := by
  rw [primary, h]

end

/-- A name that is no constant and no operator is read as a name. -/
theorem read_name (h : isStepName n = true) (hconstant : constant? n = none) (hn : n ≠ "not") :
    Term.read n = .ok (.name 1 n) := by
  have hloose : loose 149 [⟨.name n, 1⟩] = .ok (.name 1 n, []) :=
    looseTerm_name hn (operand_name (primary_name hconstant))
  have hterm : term (maxLevels - 1) [⟨.name n, 1⟩] = .ok (.name 1 n, []) := by
    change loose.full (loose 149) [⟨.name n, 1⟩] = .ok (.name 1 n, [])
    rw [loose.full, hloose]
    rfl
  rw [Term.read, lex_name h, hterm]
  rfl

end FlowEngine.Expr
