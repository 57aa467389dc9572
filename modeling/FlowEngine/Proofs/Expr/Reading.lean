import FlowEngine.Expr.Parser
import Mathlib.Tactic.SplitIfs

/-!
# Faults of reading

Reading an expression goes wrong in two ways only: the text is malformed, or an escape in it is bad.

* `Yields` — a reader gives something of some kind, or a fault of this sort.
* `Front.Tidy` — a reader does so and leaves tokens of which this is true as well.
* `read_fault` — the faults of reading.
-/

namespace FlowEngine.Expr

variable {α β : Type}

/-- The faults of a text that is no expression. -/
def Fault.Textual (f : Fault) : Prop := f = .malformed ∨ f = .badEscape

/-- What is wrong with a text where it cannot be cut into tokens is of this sort. -/
def Readable (ts : Rest) : Prop := ∀ l ∈ ts, ∀ f, l.token = .bad f → f.Textual

/-- Something of some kind, or a fault of a text. -/
def Yields (Q : α → Prop) : Except Located α → Prop
  | .ok a => Q a
  | .error e => e.fault.Textual

/-- A reader that has faults of texts only. -/
def Front.Tidy (p : Front α) : Prop := ∀ ts, Readable ts → Yields (fun r => Readable r.2) (p ts)

/-- A step of a reader, and what follows. -/
theorem Yields.bind {P : α → Prop} {Q : β → Prop} {x : Except Located α}
    {f : α → Except Located β} (hx : Yields P x) (hf : ∀ a, P a → Yields Q (f a)) :
    Yields Q (x >>= f) := by
  cases x with
  | error e => exact hx
  | ok a => exact hf a hx

theorem Yields.ite_bind {P : α → Prop} {Q : β → Prop} {c : Prop} [Decidable c]
    {x y : Except Located α} {f : α → Except Located β} (hx : Yields P x) (hy : Yields P y)
    (hf : ∀ a, P a → Yields Q (f a)) : Yields Q (if c then x >>= f else y >>= f) := by
  split_ifs
  · exact hx.bind hf
  · exact hy.bind hf

/-! ## Tokens -/

section

variable {l : Lexeme} {ts ts' : Rest} {t : Token}

theorem Readable.tail (h : Readable (l :: ts)) : Readable ts := fun m hm =>
  h m (List.mem_cons_of_mem _ hm)

theorem Readable.unexpected (h : Readable ts) : (unexpected ts).fault.Textual := by
  unfold Expr.unexpected
  split
  · exact h _ List.mem_cons_self _ rfl
  · exact .inl rfl

theorem Readable.skip (h : Readable ts) (hs : skip? t ts = some ts') : Readable ts' := by
  cases ts with
  | nil => cases hs
  | cons l ts =>
    rw [skip?] at hs
    split_ifs at hs
    cases hs
    exact h.tail

theorem Readable.expect (h : Readable ts) (t : Token) : Yields Readable (expect t ts) := by
  unfold Expr.expect
  split
  next hs => exact h.skip hs
  · exact h.unexpected

theorem integerToken?_ne_bad {radix : Nat} {ds : List Char} {f : Fault} :
    integerToken? radix ds ≠ some (.bad f) := fun h => by
  obtain ⟨values, -, h⟩ := Option.bind_eq_some_iff.mp h
  dsimp only at h
  split_ifs at h
  cases h

theorem numberToken?_ne_bad {cs : List Char} {f : Fault} : (numberToken? cs).1 ≠ some (.bad f) := by
  unfold numberToken?
  dsimp only
  split <;> split_ifs <;> first | exact integerToken?_ne_bad | simp

theorem token_bad {cs : List Char} {f : Fault} (h : (token cs).1 = .bad f) : f.Textual := by
  unfold token at h
  split at h
  · cases h
    exact .inl rfl
  split at h
  · cases h
  split at h
  · cases h
  split_ifs at h
  · split at h
    · cases h
      exact .inl rfl
    split at h
    · cases h
    · cases h
      exact .inr rfl
  · split at h
    next t _ heq =>
      obtain rfl : t = .bad f := h
      exact absurd (congrArg Prod.fst heq) numberToken?_ne_bad
    · cases h
      exact .inl rfl
  · cases h
    exact .inl rfl

theorem readable_lexFrom (fuel line last : Nat) (cs : List Char) :
    Readable (lexFrom fuel line last cs) := by
  induction fuel generalizing line last cs with
  | zero => exact fun l hl => absurd hl List.not_mem_nil
  | succ fuel ih =>
    rw [lexFrom]
    dsimp only
    split
    · exact fun l hl => absurd hl List.not_mem_nil
    split
    next f _ heq =>
      rintro l hl g hg
      obtain rfl := List.mem_singleton.mp hl
      cases hg
      exact token_bad (congrArg Prod.fst heq)
    next t _ hgood heq =>
      rintro l (_ | ⟨_, hl⟩) g hg
      · exact absurd hg (hgood g)
      · exact ih _ _ _ l hl g hg

theorem readable_lex (text : String) : Readable (lex text) := readable_lexFrom _ _ _ _

end

/-! ## Names and operators -/

namespace Front.Tidy

variable {p term atom : Front Term}

theorem expectName : Front.Tidy expectName := fun ts h => by
  unfold Expr.expectName
  split
  · exact h.tail
  · exact h.unexpected

theorem nameFrom (fuel : Nat) (n : String) : Front.Tidy (nameFrom fuel n) := by
  induction fuel generalizing n with
  | zero => exact fun ts h => h
  | succ fuel ih =>
    intro ts h
    rw [Expr.nameFrom]
    split
    · exact h
    next hs => exact (expectName _ (h.skip hs)).bind fun _ hr => ih _ _ hr

theorem dottedName : Front.Tidy dottedName := fun ts h =>
  (expectName ts h).bind fun _ hr => nameFrom _ _ _ hr

theorem chainFrom (hp : p.Tidy) (line : Nat) (op : Token → Option (Nat → Term → Term → Term))
    (fuel : Nat) (e : Term) : Front.Tidy (chainFrom line op p fuel e) := by
  induction fuel generalizing e with
  | zero => exact fun ts h => h
  | succ fuel ih =>
    intro ts h
    unfold Expr.chainFrom
    split
    · exact h
    split
    · exact h
    · exact (hp _ h.tail).bind fun _ hr => ih _ _ hr

theorem chain (hp : p.Tidy) (op : Token → Option (Nat → Term → Term → Term)) :
    Front.Tidy (chain op p) := fun ts h =>
  (hp ts h).bind fun _ hr => hp.chainFrom _ _ _ _ _ hr

theorem comparison? {ts : Rest} (h : Readable ts) :
    Yields (fun o => ∀ r, o = some r → Readable r.2) (comparison? ts) := by
  have found {ts : Rest} {op : CompareOp} (h : Readable ts) :
      ∀ r, some (op, ts) = some r → Readable r.2 := by
    rintro _ ⟨⟩
    exact h
  unfold Expr.comparison?
  split
  all_goals try exact found h.tail
  · exact (h.tail.expect _).bind fun ts hts => found hts
  · exact fun _ hr => by cases hr

theorem comparedFrom (hp : p.Tidy) (fuel : Nat) : Front.Tidy (comparedFrom p fuel) := by
  induction fuel with
  | zero => exact fun ts h => h
  | succ fuel ih =>
    intro ts h
    rw [Expr.comparedFrom]
    refine (comparison? h).bind fun o ho => ?_
    split
    · exact h
    · exact (hp _ (ho _ rfl)).bind fun _ hr => (ih _ hr).bind fun _ hr => hr

theorem compared (hp : p.Tidy) : Front.Tidy (compared p) := fun ts h =>
  (hp ts h).bind fun _ hr => (hp.comparedFrom _ _ hr).bind fun _ hr => hr

theorem inverted (hp : p.Tidy) : Front.Tidy (inverted p) := by
  intro ts h
  induction ts with
  | nil => exact hp _ h
  | cons t ts ih =>
    rw [Expr.inverted]
    split_ifs
    · exact (ih h.tail).bind fun _ hr => hr
    · exact hp _ h

theorem signed (hp : p.Tidy) : Front.Tidy (signed p) := by
  intro ts h
  induction ts with
  | nil => exact hp _ h
  | cons t ts ih =>
    rw [Expr.signed]
    split_ifs
    · exact (ih h.tail).bind fun _ hr => hr
    · exact hp _ h

/-! ## Lists, maps and arguments -/

theorem itemsUntil {item : Front α} (hp : item.Tidy) (closing : Sign) (fuel : Nat) (first : Bool) :
    Front.Tidy (itemsUntil closing item fuel first) := by
  induction fuel generalizing first with
  | zero => exact fun ts h => h.unexpected
  | succ fuel ih =>
    intro ts h
    rw [Expr.itemsUntil]
    split
    next hs => exact h.skip hs
    refine Yields.ite_bind (P := Readable) h (h.expect _) fun ts h => ?_
    dsimp only
    split
    next hs => exact h.skip hs
    · exact (hp _ h).bind fun _ hr => (ih _ _ hr).bind fun _ hr => hr

theorem entry (hp : p.Tidy) : Front.Tidy (entry p) := fun ts h =>
  (hp ts h).bind fun _ hr => (hr.expect _).bind fun ts h => (hp ts h).bind fun _ hr => hr

theorem argument (hp : p.Tidy) : Front.Tidy (argument p) := by
  intro ts h
  unfold Expr.argument
  split
  next hs => exact (hp _ (h.skip hs)).bind fun _ hr => hr
  next hs => exact (hp _ (h.skip hs)).bind fun _ hr => hr
  · refine (hp ts h).bind fun (e, ts) hr => ?_
    dsimp only
    split
    next hs => exact (hp _ (hr.skip hs)).bind fun _ hr => hr
    · exact hr

theorem argumentsFrom (hp : p.Tidy) (fuel read : Nat) (keywords : Bool) :
    Front.Tidy (argumentsFrom p fuel read keywords) := by
  induction fuel generalizing read keywords with
  | zero => exact fun ts h => h.unexpected
  | succ fuel ih =>
    intro ts h
    rw [Expr.argumentsFrom]
    split
    next hs => exact h.skip hs
    refine Yields.ite_bind (P := Readable) h (h.expect _) fun ts h => ?_
    dsimp only
    split
    next hs => exact h.skip hs
    · refine (hp.argument _ h).bind fun _ hr => ?_
      split_ifs
      · exact .inl rfl
      · exact (ih _ _ _ hr).bind fun _ hr => hr

theorem arguments (hp : p.Tidy) : Front.Tidy (arguments p) := fun ts h =>
  hp.argumentsFrom _ _ _ ts h

/-! ## Operands -/

theorem grouped (hp : p.Tidy) (line : Nat) : Front.Tidy (grouped line p) := by
  intro ts h
  unfold Expr.grouped
  split
  next hs => exact h.skip hs
  · refine (hp ts h).bind fun (e, ts) hr => ?_
    dsimp only
    split
    next hs => exact hr.skip hs
    · exact (hp.itemsUntil _ _ _ _ hr).bind fun _ hr => hr

theorem texts {ts : Rest} (h : Readable ts) : Readable (texts ts).2 := by
  fun_induction Expr.texts ts with
  | case1 s line ts rest ts' heq ih =>
    rw [heq] at ih
    exact ih h.tail
  | case2 => exact h

theorem primary (hp : p.Tidy) : Front.Tidy (primary p) := by
  intro ts h
  unfold Expr.primary
  split
  · split <;> exact h.tail
  · exact texts h.tail
  · exact h.tail
  · exact h.tail
  · exact hp.grouped _ _ h.tail
  · exact (hp.itemsUntil _ _ _ _ h.tail).bind fun _ hr => hr
  · exact (hp.entry.itemsUntil _ _ _ _ h.tail).bind fun _ hr => hr
  · exact h.unexpected

theorem unlessSign (hp : p.Tidy) (signs : List Sign) : Front.Tidy (unlessSign signs p) := by
  intro ts h
  unfold Expr.unlessSign
  split_ifs
  · exact h
  · exact (hp ts h).bind fun _ hr => hr

theorem subscript (hp : p.Tidy) (object : Term) : Front.Tidy (subscript object p) := by
  intro ts h
  refine (hp.unlessSign _ ts h).bind fun _ hr => ?_
  dsimp only
  split
  · refine (hr.expect _).bind fun ts h => ?_
    split
    · exact h
    · exact .inl rfl
  next hs =>
    refine (hp.unlessSign _ _ (hr.skip hs)).bind fun (stop, ts) hr => ?_
    dsimp only
    split
    next hs =>
      exact (hp.unlessSign _ _ (hr.skip hs)).bind fun _ hr => (hr.expect _).bind fun ts h => h
    · exact (hr.expect _).bind fun ts h => h

theorem postfixFrom (hp : p.Tidy) (start fuel : Nat) (e : Term) :
    Front.Tidy (postfixFrom start p fuel e) := by
  induction fuel generalizing e with
  | zero => exact fun ts h => h
  | succ fuel ih =>
    intro ts h
    unfold Expr.postfixFrom
    split
    · exact ih _ _ h.tail.tail
    · split_ifs
      · exact ih _ _ h.tail.tail
      · exact .inl rfl
    · exact h.tail.unexpected
    · exact (hp.subscript _ _ h.tail).bind fun _ hr => ih _ _ hr
    · exact (hp.arguments _ h.tail).bind fun _ hr => ih _ _ hr
    · exact h

theorem plain (hterm : term.Tidy) (hatom : atom.Tidy) : Front.Tidy (plain term atom) := fun ts h =>
  (hatom.signed ts h).bind fun _ hr => hterm.postfixFrom _ _ _ _ hr

theorem testArguments (hterm : term.Tidy) (hatom : atom.Tidy) :
    Front.Tidy (testArguments term atom) := by
  intro ts h
  unfold Expr.testArguments
  split
  · exact hterm.arguments _ h.tail
  · split_ifs
    · exact (hterm.plain hatom _ h).bind fun _ hr => hr
    · exact h
  · exact h

theorem filteredFrom (hterm : term.Tidy) (hatom : atom.Tidy) (start fuel : Nat) (e : Term) :
    Front.Tidy (filteredFrom start term atom fuel e) := by
  induction fuel generalizing e with
  | zero => exact fun ts h => h
  | succ fuel ih =>
    intro ts h
    unfold Expr.filteredFrom
    split
    · refine (dottedName _ h.tail).bind fun (name, ts) hr => ?_
      dsimp only
      split
      next hs => exact (hterm.arguments _ (hr.skip hs)).bind fun _ hr => ih _ _ hr
      · exact ih _ _ hr
    · have named {ts : Rest} (h : Readable ts) (negated : Bool) :=
        (dottedName ts h).bind fun r hr => (hterm.testArguments hatom r.2 hr).bind fun s hs =>
          ih (if negated then .invert start (.test e r.1 s.1) else .test e r.1 s.1) s.2 hs
      dsimp only
      split
      next hs => exact named (h.tail.skip hs) true
      · exact named h.tail false
    · exact h

theorem operand (hterm : term.Tidy) (hatom : atom.Tidy) : Front.Tidy (operand term atom) :=
  fun ts h => (hterm.plain hatom ts h).bind fun _ hr => hterm.filteredFrom hatom _ _ _ _ hr

/-! ## Terms -/

theorem looseTerm (hp : p.Tidy) : Front.Tidy (looseTerm p) :=
  ((((((hp.chain _).chain _).chain _).chain _).compared.inverted).chain _).chain _

theorem conditionalFrom (hp : p.Tidy) (fuel : Nat) (e : Term) :
    Front.Tidy (conditionalFrom p fuel e) := by
  induction fuel generalizing e with
  | zero => exact fun ts h => h
  | succ fuel ih =>
    intro ts h
    rw [Expr.conditionalFrom]
    split
    · exact h
    next hs =>
      refine (hp _ (h.skip hs)).bind fun _ hr => ?_
      dsimp only
      split
      · exact ih _ _ hr
      next hs =>
        exact (hp _ (hr.skip hs)).bind fun _ hr => (ih _ _ hr).bind fun _ hr => ih _ _ hr

theorem full (hp : p.Tidy) : Front.Tidy (loose.full p) := fun ts h =>
  (hp ts h).bind fun _ hr => hp.conditionalFrom _ _ _ hr

theorem tooDeep : Front.Tidy tooDeep := fun _ _ => .inl rfl

theorem loose : (levels : Nat) → Front.Tidy (Expr.loose levels)
  | 0 => (tooDeep.operand tooDeep).looseTerm
  | 1 => ((loose 0).full.operand tooDeep.primary).looseTerm
  | levels + 2 => ((loose (levels + 1)).full.operand (loose levels).full.primary).looseTerm

end Front.Tidy

/-- An expression that cannot be read is malformed or has a bad escape. -/
theorem read_fault {text : String} {e : Located} (h : Term.read text = .error e) :
    e.fault.Textual := by
  have hread : Yields (fun _ => True) (Term.read text) := by
    refine ((Front.Tidy.loose _).full _ (readable_lex text)).bind fun _ hr => ?_
    dsimp only
    split
    · trivial
    · exact hr.unexpected
  rw [h] at hread
  exact hread

end FlowEngine.Expr
