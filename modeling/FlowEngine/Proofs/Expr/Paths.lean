import FlowEngine.Expr.Eval
import FlowEngine.Proofs.Expr.Accessors

/-!
# Paths as expressions

A written path is read as the lookups that it is made of, and evaluated to what they lead to.

* `Accessor.get`, `follow` — what accessors stand for in a value.
* `read_path` — a written path is read as it is meant.
* `eval_path` — its value is what the accessors lead to.
-/

namespace FlowEngine.Expr

open FlowEngine.Flow (isStepName)

variable {path : List Accessor}

namespace Accessor

/-- What stands under an accessor in a value. -/
def get (v : Value) : Accessor → Value
  | dot name => (v.field? name).getD .undefined
  | key name => (v.item? (.str name)).getD .undefined
  | index n => (v.item? (.int (.ofLiteral n) n)).getD .undefined

/-- The term of an operand with an accessor. -/
def term (e : Term) : Accessor → Term
  | dot name => .field e name
  | key name => .item e (.literal 1 (.str name))
  | index n => .item e (.literal 1 (.int (.ofLiteral n) n))

end Accessor

/-- What a path leads to from a value. -/
def follow (v : Value) (path : List Accessor) : Value := path.foldl Accessor.get v

/-! ## Terms -/

/-- The term of a name with a path. -/
def pathTerm (root : String) (path : List Accessor) : Term := path.foldl Accessor.term (.name 1 root)

/-- Nothing goes on with a term before these tokens. -/
def Closes (ts : Rest) : Prop := ts = [] ∨ ∃ rest, ts = ⟨.sign .closeBracket, 1⟩ :: rest

section

variable {e : Term} {ts ts' : Rest} {p term atom : Front Term}

theorem chain_of_closes {op : Token → Option (Nat → Term → Term → Term)}
    (hop : op (.sign .closeBracket) = none) (h : p ts = .ok (e, ts')) (hc : Closes ts') :
    chain op p ts = .ok (e, ts') := by
  have hfrom (line fuel : Nat) : chainFrom line op p fuel e ts' = .ok (e, ts') := by
    cases fuel with
    | zero => rfl
    | succ fuel =>
      rcases hc with rfl | ⟨rest, rfl⟩
      · rfl
      · simp only [chainFrom, hop]
  simp only [chain, h]
  exact hfrom _ _

theorem compared_of_closes (h : p ts = .ok (e, ts')) (hc : Closes ts') :
    compared p ts = .ok (e, ts') := by
  have hfrom (fuel : Nat) : comparedFrom p fuel ts' = .ok ([], ts') := by
    cases fuel with
    | zero => rfl
    | succ fuel => rcases hc with rfl | ⟨rest, rfl⟩ <;> rfl
  simp only [compared, h]
  change (comparedFrom p ts'.length ts' >>= fun x => _) = _
  rw [hfrom]
  rfl

/-- A term that begins with no operator is what its operand is. -/
theorem looseTerm_of_closes {t : Lexeme} (ht : t.token ≠ .name "not")
    (h : p (t :: ts) = .ok (e, ts')) (hc : Closes ts') : looseTerm p (t :: ts) = .ok (e, ts') := by
  refine chain_of_closes rfl (chain_of_closes rfl ?_ hc) hc
  rw [inverted, if_neg ht]
  refine compared_of_closes ?_ hc
  exact chain_of_closes rfl (chain_of_closes rfl (chain_of_closes rfl
    (chain_of_closes rfl h hc) hc) hc) hc

/-- An operand with what is looked up in it, before nothing that goes on. -/
theorem operand_of_closes {t : Lexeme} {e' : Term} {rest : Rest} (ht : t.token ≠ .sign .minus)
    (hatom : atom (t :: ts) = .ok (e, rest))
    (hlookups : postfixFrom t.line term rest.length e rest = .ok (e', ts')) (hc : Closes ts') :
    operand term atom (t :: ts) = .ok (e', ts') := by
  have hplain : plain term atom (t :: ts) = .ok (e', ts') := by
    rw [plain, signed, if_neg ht, hatom]
    exact hlookups
  have hfrom (start fuel : Nat) : filteredFrom start term atom fuel e' ts' = .ok (e', ts') := by
    cases fuel with
    | zero => rfl
    | succ fuel => rcases hc with rfl | ⟨rest, rfl⟩ <;> rfl
  rw [operand, hplain]
  exact hfrom _ _

theorem postfixFrom_of_closes (hc : Closes ts) (start fuel : Nat) :
    postfixFrom start term fuel e ts = .ok (e, ts) := by
  cases fuel with
  | zero => rfl
  | succ fuel => rcases hc with rfl | ⟨rest, rfl⟩ <;> rfl

theorem full_of_closes {t : Lexeme} (h : p (t :: ts) = .ok (e, ts')) (hc : Closes ts') :
    loose.full p (t :: ts) = .ok (e, ts') := by
  have hfrom (fuel : Nat) : conditionalFrom p fuel e ts' = .ok (e, ts') := by
    cases fuel with
    | zero => rfl
    | succ fuel => rcases hc with rfl | ⟨rest, rfl⟩ <;> rfl
  rw [loose.full, h]
  exact hfrom _

/-! ### Keys and indices -/

/-- A token that is a literal on its own. -/
inductive Literal : Token → Value → Prop
  | text (s : String) : Literal (.text s) (.str s)
  | int (n : Nat) : Literal (.int n) (.int (.ofLiteral n) n)

/-- A literal in brackets is read as it is, at any level but the last. -/
theorem full_literal {t : Token} {v : Value} (h : Literal t v) (levels : Nat) (rest : Rest) :
    loose.full (loose (levels + 1)) (⟨t, 1⟩ :: ⟨.sign .closeBracket, 1⟩ :: rest) =
      .ok (.literal 1 v, ⟨.sign .closeBracket, 1⟩ :: rest) := by
  have hc : Closes (⟨.sign .closeBracket, 1⟩ :: rest) := .inr ⟨rest, rfl⟩
  have hprimary (term : Front Term) : primary term (⟨t, 1⟩ :: ⟨.sign .closeBracket, 1⟩ :: rest) =
      .ok (.literal 1 v, ⟨.sign .closeBracket, 1⟩ :: rest) := by
    cases h with
    | text s =>
      rw [primary, texts]
      · simp
      · rintro _ _ _ ⟨⟩
    | int n => rfl
  have hnot : t ≠ .name "not" ∧ t ≠ .sign .minus := by cases h <;> simp
  have hoperand (term term' : Front Term) : operand term (primary term')
      (⟨t, 1⟩ :: ⟨.sign .closeBracket, 1⟩ :: rest) =
        .ok (.literal 1 v, ⟨.sign .closeBracket, 1⟩ :: rest) :=
    operand_of_closes hnot.2 (hprimary _) (postfixFrom_of_closes hc _ _) hc
  refine full_of_closes ?_ hc
  cases levels with
  | zero => exact looseTerm_of_closes hnot.1 (hoperand _ _) hc
  | succ levels => exact looseTerm_of_closes hnot.1 (hoperand _ _) hc

theorem subscript_literal {t : Token} {v : Value} (h : Literal t v) (levels : Nat) (rest : Rest) :
    subscript e (loose.full (loose (levels + 1))) (⟨t, 1⟩ :: ⟨.sign .closeBracket, 1⟩ :: rest) =
      .ok (.item e (.literal 1 v), rest) := by
  have hskip : skip? (.sign .colon) (⟨t, 1⟩ :: ⟨.sign .closeBracket, 1⟩ :: rest) = none := by
    cases h <;> rfl
  have hterm := full_literal h levels rest
  rw [subscript, unlessSign]
  simp only [List.any_cons, List.any_nil, hskip, Option.isSome_none, Bool.or_false, Bool.false_eq_true,
    if_false, hterm]
  rfl

/-- The accessors of a path go on with an operand. -/
theorem postfixFrom_path (levels start : Nat) {fuel : Nat} (hfuel : path.length ≤ fuel) (e : Term) :
    postfixFrom start (loose.full (loose (levels + 1))) fuel e ((pathTokens path).map (⟨·, 1⟩)) =
      .ok (path.foldl Accessor.term e, []) := by
  induction path generalizing fuel e with
  | nil => exact postfixFrom_of_closes (.inl rfl) _ _
  | cons a path ih =>
    obtain ⟨fuel, rfl⟩ := Nat.exists_eq_succ_of_ne_zero (Nat.ne_of_gt (Nat.lt_of_lt_of_le
      (Nat.succ_pos _) hfuel))
    have hfuel : path.length ≤ fuel := Nat.le_of_succ_le_succ hfuel
    rw [List.foldl_cons, ← ih hfuel, pathTokens_cons, List.map_append]
    generalize (pathTokens path).map (fun t => (⟨t, 1⟩ : Lexeme)) = ts
    cases a with
    | dot name => rfl
    | key name =>
      change (subscript e _ (⟨.text name, 1⟩ :: ⟨.sign .closeBracket, 1⟩ :: ts) >>= fun x => _) = _
      rw [subscript_literal (.text name) levels ts]
      rfl
    | index n =>
      change (subscript e _ (⟨.int n, 1⟩ :: ⟨.sign .closeBracket, 1⟩ :: ts) >>= fun x => _) = _
      rw [subscript_literal (.int n) levels ts]
      rfl

end

theorem length_le_pathTokens (path : List Accessor) : path.length ≤ (pathTokens path).length := by
  induction path with
  | nil => exact le_rfl
  | cons a path ih =>
    have ha : 1 ≤ a.tokens.length := by cases a <;> simp [Accessor.tokens]
    rw [pathTokens_cons, List.length_append, List.length_cons]
    omega

/-- A written path is read as the term of its parts. -/
theorem read_path {root : String} (hroot : isStepName root = true) (hconstant : constant? root = none)
    (hnot : root ≠ "not") (hpath : ∀ a ∈ path, a.WellFormed) :
    Term.read (pathText root path) = .ok (pathTerm root path) := by
  have hoperand : operand (loose.full (loose 148)) (primary (loose.full (loose 147)))
      (⟨.name root, 1⟩ :: (pathTokens path).map (⟨·, 1⟩)) = .ok (pathTerm root path, []) := by
    refine operand_of_closes (e := .name 1 root) (by simp) ?_ (postfixFrom_path 147 _ ?_ _) (.inl rfl)
    · rw [primary, hconstant]
    · rw [List.length_map]
      exact length_le_pathTokens path
  have hterm : FlowEngine.Expr.term (maxLevels - 1)
      (⟨.name root, 1⟩ :: (pathTokens path).map (⟨·, 1⟩)) = .ok (pathTerm root path, []) :=
    full_of_closes (looseTerm_of_closes (by simpa using hnot) hoperand (.inl rfl)) (.inl rfl)
  rw [Term.read, lex_path hroot hpath, hterm]
  rfl

/-! ## Values -/

/-- The value of a term with accessors is what they lead to. -/
theorem eval_accessors (names : Names) {e : Term} {v : Value} (h : e.eval names = .ok v)
    (path : List Accessor) : (path.foldl Accessor.term e).eval names = .ok (follow v path) := by
  induction path generalizing e v with
  | nil => exact h
  | cons a path ih =>
    have ha : (a.term e).eval names = .ok (a.get v) := by
      cases a with
      | dot name => rw [Accessor.term, Term.eval, h]; rfl
      | key name => rw [Accessor.term, Term.eval, h, Term.eval]; rfl
      | index n => rw [Accessor.term, Term.eval, h, Term.eval]; rfl
    exact ih ha

theorem eval_path (names : Names) (root : String) (path : List Accessor) :
    (pathTerm root path).eval names = .ok (follow (names.value root) path) :=
  eval_accessors names (by rw [Term.eval]) path

end FlowEngine.Expr
