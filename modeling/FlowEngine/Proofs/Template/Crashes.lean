import FlowEngine.Proofs.Expr.Crashes
import FlowEngine.Proofs.Expr.Reading
import FlowEngine.Template.Condition
import Mathlib.Data.List.TakeWhile

/-!
# Crashes of templates

A template or a condition ends the program only because of one of its expressions, and this can be read.

* `ExpressionCrash` — an expression that can be read and crashes.
* `token_of_onlyToken?` — what a text consists of but for blanks around it is a token of the text.
* `resolve_crashes`, `conditionsHold_crashes` — templates and conditions crash because of an expression
  in them.
-/

namespace FlowEngine

/-! ## Cutting texts -/

namespace Text

variable {d cs ds before after : List Char}

theorem length_le_of_cut? (h : cut? d cs = some (before, after)) : d.length ≤ cs.length := by
  induction cs generalizing before after with
  | nil =>
    rw [cut?] at h
    split_ifs at h with hd
    rw [List.isEmpty_iff.mp hd]
  | cons c cs ih =>
    rw [cut?] at h
    split_ifs at h with hd
    · exact (List.isPrefixOf_iff_prefix.mp hd).length_le
    · obtain ⟨⟨b, a⟩, hcut, -⟩ := Option.map_eq_some_iff.mp h
      exact Nat.le_succ_of_le (ih hcut)

/-- What is behind the first occurrence may go on. -/
theorem cut?_append (h : cut? d cs = some (before, after)) (ds : List Char) :
    cut? d (cs ++ ds) = some (before, after ++ ds) := by
  induction cs generalizing before after with
  | nil =>
    rw [cut?] at h
    split_ifs at h with hd
    cases h
    obtain rfl := List.isEmpty_iff.mp hd
    cases ds <;> rfl
  | cons c cs ih =>
    rw [cut?] at h
    split_ifs at h with hd
    · cases h
      have hprefix := List.isPrefixOf_iff_prefix.mp hd
      have hlonger := hprefix.trans (List.prefix_append (c :: cs) ds)
      rw [← List.drop_append_of_le_length hprefix.length_le]
      exact if_pos (List.isPrefixOf_iff_prefix.mpr hlonger)
    · obtain ⟨⟨b, a⟩, hcut, heq⟩ := Option.map_eq_some_iff.mp h
      cases heq
      have hlen := length_le_of_cut? hcut
      have hno : ¬ d.isPrefixOf (c :: (cs ++ ds)) = true := fun hyes =>
        hd (List.isPrefixOf_iff_prefix.mpr
          (List.prefix_of_prefix_length_le (List.isPrefixOf_iff_prefix.mp hyes)
            (List.prefix_append (c :: cs) ds) (Nat.le_succ_of_le hlen)))
      rw [List.cons_append, cut?, if_neg hno, ih hcut]
      rfl

/-- A text is what is left of it after trimming, between blanks. -/
theorem exists_of_trim (cs : List Char) :
    ∃ start stop, cs = start ++ (trim cs ++ stop) ∧ ∀ c ∈ start, isBlank c = true := by
  refine ⟨cs.takeWhile isBlank, ((trimStart cs).reverse.takeWhile isBlank).reverse, ?_,
    fun c hc => List.mem_takeWhile_imp hc⟩
  have hstop : trim cs ++ ((trimStart cs).reverse.takeWhile isBlank).reverse = trimStart cs := by
    rw [trim, trimEnd, ← List.reverse_append, List.takeWhile_append_dropWhile, List.reverse_reverse]
  rw [hstop, trimStart, List.takeWhile_append_dropWhile]

/-- What does not have the first character of a separator can stand before. -/
theorem cut?_of_not_mem_append {x : Char} (hx : ∀ c ∈ cs, c ≠ x)
    (h : cut? (x :: d) ds = some (before, after)) :
    cut? (x :: d) (cs ++ ds) = some (cs ++ before, after) := by
  induction cs with
  | nil => exact h
  | cons c cs ih =>
    have hne : c ≠ x := hx c List.mem_cons_self
    rw [List.cons_append, cut?, if_neg (by simp [List.isPrefixOf, Ne.symm hne]),
      ih fun c hc => hx c (List.mem_cons_of_mem _ hc)]
    rfl

end Text

namespace Template

open FlowEngine.Expr

variable {names : Names} {e : String} {j : Json} {cs inside : List Char}

/-- A text that is one token begins with the opening, and the token ends at the first closing. -/
theorem cut?_of_pieces (h : pieces cs = [.token inside]) : ∃ rest after,
    Text.cut? opening cs = some ([], rest) ∧ Text.cut? closing rest = some (inside, after) := by
  cases cs with
  | nil => cases h
  | cons c cs =>
    rw [pieces, List.length_cons, piecesWithin] at h
    cases hcut : cutToken? (c :: cs) with
    | none => rw [hcut] at h; cases h
    | some r =>
      obtain ⟨before, inside', after⟩ := r
      rw [hcut] at h
      cases before with
      | cons c before => cases h
      | nil =>
        obtain rfl : inside' = inside := Piece.token.inj (List.cons.inj h).1
        obtain ⟨⟨b, rest⟩, hopen, hrest⟩ := Option.bind_eq_some_iff.mp hcut
        obtain ⟨⟨i, a⟩, hclose, heq⟩ := Option.bind_eq_some_iff.mp hrest
        cases heq
        exact ⟨rest, after, hopen, hclose⟩

/-- What stands before the first closing behind the first opening is a token. -/
theorem token_mem_pieces {before rest after : List Char}
    (hopen : Text.cut? opening cs = some (before, rest))
    (hclose : Text.cut? closing rest = some (inside, after)) : .token inside ∈ pieces cs := by
  have hcut : cutToken? cs = some (before, inside, after) :=
    Option.bind_eq_some_iff.mpr ⟨_, hopen, Option.bind_eq_some_iff.mpr ⟨_, hclose, rfl⟩⟩
  cases cs with
  | nil => cases hcut
  | cons c cs =>
    rw [pieces, List.length_cons, piecesWithin, hcut]
    exact List.mem_append_right _ List.mem_cons_self

/-- What a text consists of but for blanks around it is a token of the text. -/
theorem token_of_onlyToken? (h : onlyToken? (Text.trim cs) = some inside) :
    .token inside ∈ pieces cs := by
  obtain ⟨start, stop, hcs, hblank⟩ := Text.exists_of_trim cs
  generalize Text.trim cs = ts at h hcs
  have hpieces : pieces ts = [.token inside] := by
    unfold onlyToken? at h
    split at h
    next heq =>
      cases h
      exact heq
    · cases h
  obtain ⟨rest, after, hopen, hclose⟩ := cut?_of_pieces hpieces
  -- the blanks before the token have no brace
  have hbrace : ∀ c ∈ start, c ≠ '\x7b' := fun c hc heq => by
    have := hblank c hc
    rw [heq] at this
    exact absurd this (by decide)
  have hopen' := Text.cut?_of_not_mem_append hbrace (Text.cut?_append hopen stop)
  rw [← hcs] at hopen'
  exact token_mem_pieces hopen' (Text.cut?_append hclose stop)

/-! ## Expressions -/

/-- An expression that can be read and whose evaluation crashes. -/
def ExpressionCrash (names : Names) (e : String) : Prop :=
  ∃ term, readTerm e = .ok term ∧ term.Crashes names

theorem ofLocated_eq_crash {x : Located} (h : Failure.ofLocated e x = .crash) : x.fault = .crash := by
  unfold Failure.ofLocated at h
  split at h
  next hx => exact hx
  all_goals cases h

theorem valueOf_crashes (h : valueOf names e = .error .crash) : ExpressionCrash names e := by
  unfold valueOf at h
  cases hterm : readTerm e with
  | error failure =>
    rw [hterm] at h
    cases h
    unfold readTerm at hterm
    cases hread : Term.read e with
    | error x =>
      rw [hread] at hterm
      have hfault := ofLocated_eq_crash (Except.error.inj hterm)
      rcases read_fault hread with h | h <;> rw [h] at hfault <;> cases hfault
    | ok term => rw [hread] at hterm; cases hterm
  | ok term =>
    rw [hterm] at h
    change (term.eval names).mapError (Failure.ofLocated e) = .error .crash at h
    cases heval : term.eval names with
    | error x =>
      rw [heval] at h
      have hfails : Fails .crash (term.eval names) :=
        ⟨x.line, by rw [heval, ← ofLocated_eq_crash (Except.error.inj h)]⟩
      exact ⟨term, hterm, (Term.eval_crashes names term hfails).2⟩
    | ok v => rw [heval] at h; cases h

theorem evaluate_crashes (h : evaluate names e = .error .crash) :
    ExpressionCrash names (Text.trimText e) := by
  unfold evaluate at h
  dsimp only at h
  split_ifs at h
  cases hv : valueOf names (Text.trimText e) with
  | error failure =>
    rw [hv] at h
    cases h
    exact valueOf_crashes hv
  | ok v => rw [hv] at h; cases h

theorem evaluateBool_crashes (h : evaluateBool names e = .error .crash) :
    ExpressionCrash names (conditionText e) := by
  unfold evaluateBool at h
  dsimp only at h
  split_ifs at h
  cases hv : valueOf names (conditionText e) with
  | error failure =>
    rw [hv] at h
    cases h
    exact valueOf_crashes hv
  | ok v => rw [hv] at h; cases h

/-! ## Templates -/

theorem bind_crashes {α β : Type} {x : Except Failure α} {f : α → Except Failure β}
    (h : (x >>= f) = .error .crash) : x = .error .crash ∨ ∃ a, x = .ok a ∧ f a = .error .crash := by
  cases x with
  | error failure => cases h; exact .inl rfl
  | ok a => exact .inr ⟨a, rfl, h⟩

theorem token_crashes (h : evaluate names (String.ofList inside) = .error .crash) :
    ExpressionCrash names (expressionOf inside) := by
  have he := evaluate_crashes h
  rwa [Text.trimText, String.toList_ofList] at he

theorem interpolate_crashes {ps : List Piece} (h : interpolate names ps = .error .crash) :
    ∃ inside, .token inside ∈ ps ∧ ExpressionCrash names (expressionOf inside) := by
  induction ps with
  | nil => cases h
  | cons p ps ih =>
    cases p with
    | text cs =>
      rw [interpolate] at h
      rcases bind_crashes h with h | ⟨_, -, h⟩
      · obtain ⟨inside, hmem, h⟩ := ih h
        exact ⟨inside, List.mem_cons_of_mem _ hmem, h⟩
      · cases h
    | token inside =>
      rw [interpolate] at h
      rcases bind_crashes h with h | ⟨_, -, h⟩
      · exact ⟨inside, List.mem_cons_self, token_crashes h⟩
      rcases bind_crashes h with h | ⟨_, -, h⟩
      · obtain ⟨inside, hmem, h⟩ := ih h
        exact ⟨inside, List.mem_cons_of_mem _ hmem, h⟩
      · cases h

theorem mem_tokensOfText {s : String} (h : .token inside ∈ pieces s.toList) :
    expressionOf inside ∈ tokensOfText s :=
  List.mem_filterMap.mpr ⟨_, h, rfl⟩

theorem resolveText_crashes {s : String} (h : resolveText names s = .error .crash) :
    ∃ e ∈ tokensOfText s, ExpressionCrash names e := by
  unfold resolveText at h
  split at h
  next inside honly => exact ⟨_, mem_tokensOfText (token_of_onlyToken? honly), token_crashes h⟩
  · cases hi : interpolate names (pieces s.toList) with
    | error failure =>
      rw [hi] at h
      cases h
      obtain ⟨inside, hmem, h⟩ := interpolate_crashes hi
      exact ⟨_, mem_tokensOfText hmem, h⟩
    | ok cs => rw [hi] at h; cases h

mutual

/-- A template crashes because of one of its expressions. -/
theorem resolve_crashes : ∀ j : Json, resolve names j = .error .crash →
    ∃ e ∈ tokens j, ExpressionCrash names e
  | .str s, h => resolveText_crashes h
  | .arr elements, h => by
    rw [resolve] at h
    rcases bind_crashes h with h | ⟨_, -, h⟩
    · exact resolveAll_crashes elements h
    · cases h
  | .obj members, h => by
    rw [resolve] at h
    rcases bind_crashes h with h | ⟨_, -, h⟩
    · exact resolveMembers_crashes members h
    · cases h
  | .null, h => by cases h
  | .bool _, h => by cases h
  | .int _, h => by cases h
  | .float _, h => by cases h

theorem resolveAll_crashes : ∀ js : List Json, resolveAll names js = .error .crash →
    ∃ e ∈ tokensOfAll js, ExpressionCrash names e
  | [], h => by cases h
  | j :: rest, h => by
    rw [resolveAll] at h
    rcases bind_crashes h with h | ⟨_, -, h⟩
    · obtain ⟨e, he, h⟩ := resolve_crashes j h
      exact ⟨e, List.mem_append_left _ he, h⟩
    rcases bind_crashes h with h | ⟨_, -, h⟩
    · obtain ⟨e, he, h⟩ := resolveAll_crashes rest h
      exact ⟨e, List.mem_append_right _ he, h⟩
    · cases h

theorem resolveMembers_crashes : ∀ ms : List (String × Json),
    resolveMembers names ms = .error .crash → ∃ e ∈ tokensOfMembers ms, ExpressionCrash names e
  | [], h => by cases h
  | (name, j) :: rest, h => by
    rw [resolveMembers] at h
    rcases bind_crashes h with h | ⟨_, -, h⟩
    · obtain ⟨e, he, h⟩ := resolve_crashes j h
      exact ⟨e, List.mem_append_left _ he, h⟩
    rcases bind_crashes h with h | ⟨_, -, h⟩
    · obtain ⟨e, he, h⟩ := resolveMembers_crashes rest h
      exact ⟨e, List.mem_append_right _ he, h⟩
    · cases h

end

/-! ## Conditions -/

open FlowEngine.Flow (Condition ConditionSet)

/-- The expressions of a condition. -/
def Condition.tokens (c : Condition) : List String :=
  Template.tokens c.first ++ Template.tokens c.second

/-- The expressions of conditions. -/
def conditionTokens (c : ConditionSet) : List String :=
  c.groups.flatten.flatMap Condition.tokens ++ (c.expression.map conditionText).toList

theorem conditionHolds_crashes {c : Condition} (h : conditionHolds names c = .error .crash) :
    ∃ e ∈ Condition.tokens c, ExpressionCrash names e := by
  unfold conditionHolds at h
  rcases bind_crashes h with h | ⟨first, -, h⟩
  · obtain ⟨e, he, h⟩ := resolve_crashes _ h
    exact ⟨e, List.mem_append_left _ he, h⟩
  rcases bind_crashes h with h | ⟨second, -, h⟩
  · obtain ⟨e, he, h⟩ := resolve_crashes _ h
    exact ⟨e, List.mem_append_right _ he, h⟩
  · cases hc : compare c.operator c.caseSensitive first second with
    | error e => rw [hc] at h; cases h
    | ok b => rw [hc] at h; cases h

theorem groupHolds_crashes {g : List Condition} (h : groupHolds names g = .error .crash) :
    ∃ c ∈ g, ∃ e ∈ Condition.tokens c, ExpressionCrash names e := by
  induction g with
  | nil => cases h
  | cons c g ih =>
    rw [groupHolds] at h
    rcases bind_crashes h with h | ⟨holds, -, h⟩
    · exact ⟨c, List.mem_cons_self, conditionHolds_crashes h⟩
    · split_ifs at h
      obtain ⟨d, hd, h⟩ := ih h
      exact ⟨d, List.mem_cons_of_mem _ hd, h⟩

theorem someGroupHolds_crashes {gs : List (List Condition)}
    (h : someGroupHolds names gs = .error .crash) :
    ∃ g ∈ gs, ∃ c ∈ g, ∃ e ∈ Condition.tokens c, ExpressionCrash names e := by
  induction gs with
  | nil => cases h
  | cons g gs ih =>
    rw [someGroupHolds] at h
    rcases bind_crashes h with h | ⟨holds, -, h⟩
    · exact ⟨g, List.mem_cons_self, groupHolds_crashes h⟩
    · split_ifs at h
      obtain ⟨g', hg, h⟩ := ih h
      exact ⟨g', List.mem_cons_of_mem _ hg, h⟩

/-- Conditions crash because of one of their expressions. -/
theorem conditionsHold_crashes {c : ConditionSet} (h : conditionsHold names c = .error .crash) :
    ∃ e ∈ conditionTokens c, ExpressionCrash names e := by
  have expression {e : String} (he : c.expression = some e)
      (h : evaluateBool names e = .error .crash) : ∃ e ∈ conditionTokens c, ExpressionCrash names e :=
    ⟨conditionText e, List.mem_append_right _ (by rw [he]; exact List.mem_singleton_self _),
      evaluateBool_crashes h⟩
  unfold conditionsHold at h
  dsimp only at h
  split_ifs at h
  -- without groups only the expression is evaluated
  · rcases bind_crashes h with h | ⟨holds, -, h⟩
    · cases h
    · split_ifs at h
      split at h
      · cases h
      next e he => exact expression he h
  · rcases bind_crashes h with h | ⟨holds, -, h⟩
    · obtain ⟨g, hg, d, hd, e, he, h⟩ := someGroupHolds_crashes h
      have hd : d ∈ c.groups.flatten := List.mem_flatten.mpr ⟨g, (List.mem_filter.mp hg).1, hd⟩
      exact ⟨e, List.mem_append_left _ (List.mem_flatMap.mpr ⟨d, hd, he⟩), h⟩
    · split_ifs at h
      split at h
      · cases h
      next e he => exact expression he h

end Template

end FlowEngine
