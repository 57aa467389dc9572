import FlowEngine.Expr.Eval
import Mathlib.Data.List.Basic

/-!
# Names that are looked up

An expression looks up names, and has the same value wherever these stand for the same.

* `Term.names` — the names that a term may look up.
* `Names.AgreeOn` — two sets of names in which some names stand for the same.
* `Term.eval_congr` — the value of a term depends on the names that it looks up and on the time only.
* `Names.only` — names of which all but some are taken away.
-/

namespace FlowEngine.Expr

/-! ## The names in a term -/

namespace Term

mutual

/-- The names that a term may look up, in order. -/
def names : Term → List String
  | literal _ _ => []
  | name _ id => [id]
  | list _ items => namesOfAll items
  | map _ entries => namesOfEntries entries
  | negate _ e | invert _ e | field e _ => names e
  | binary _ _ l r | conj _ l r | disj _ l r | item l r => names l ++ names r
  | compare _ first rest => names first ++ namesOfCompared rest
  | conditional cond yes no => names cond ++ (names yes ++ namesOfOption no)
  | slice e start stop step =>
    names e ++ (namesOfOption start ++ (namesOfOption stop ++ namesOfOption step))
  | filter e _ args | test e _ args | callField e _ args | callValue e args =>
    names e ++ namesOfPassed args
  | call _ id args => id :: namesOfPassed args

/-- The names in a term that may be missing. -/
def namesOfOption : Option Term → List String
  | none => []
  | some e => names e

/-- The names in terms. -/
def namesOfAll : List Term → List String
  | [] => []
  | e :: rest => names e ++ namesOfAll rest

/-- The names in keys and values. -/
def namesOfEntries : List (Term × Term) → List String
  | [] => []
  | (k, e) :: rest => names k ++ (names e ++ namesOfEntries rest)

/-- The names in arguments. -/
def namesOfPassed : List (Passing × Term) → List String
  | [] => []
  | (_, e) :: rest => names e ++ namesOfPassed rest

/-- The names in comparisons. -/
def namesOfCompared : List (CompareOp × Term) → List String
  | [] => []
  | (_, e) :: rest => names e ++ namesOfCompared rest

end

end Term

/-! ## Names that stand for the same -/

variable {n n' : Names} {ids ids' : List String} {id : String}

namespace Names

/-- Some names stand for the same, at the same time. -/
structure AgreeOn (ids : List String) (n n' : Names) : Prop where
  now : n.now = n'.now
  lookup : ∀ id ∈ ids, n.lookup id = n'.lookup id

namespace AgreeOn

theorem mono (h : AgreeOn ids n n') (hsub : ∀ id ∈ ids', id ∈ ids) : AgreeOn ids' n n' :=
  ⟨h.now, fun id hid => h.lookup id (hsub id hid)⟩

theorem left (h : AgreeOn (ids ++ ids') n n') : AgreeOn ids n n' :=
  h.mono fun _ => List.mem_append_left _

theorem right (h : AgreeOn (ids ++ ids') n n') : AgreeOn ids' n n' :=
  h.mono fun _ => List.mem_append_right _

theorem value (h : AgreeOn (id :: ids) n n') : n.value id = n'.value id := by
  rw [Names.value, Names.value, h.lookup id List.mem_cons_self]

theorem tail (h : AgreeOn (id :: ids) n n') : AgreeOn ids n n' :=
  h.mono fun _ => List.mem_cons_of_mem _

theorem call (h : AgreeOn (id :: ids) n n') (args : Args) : n.call id args = n'.call id args := by
  unfold Names.call
  split
  · rfl
  · rfl
  · rw [h.value]

end AgreeOn

/-- All but some names are taken away. -/
def only (ids : List String) (n : Names) : Names :=
  ⟨fun id => if id ∈ ids then n.lookup id else none, n.now⟩

theorem agreeOn_only (h : ∀ id ∈ ids', id ∈ ids) (n : Names) : AgreeOn ids' n (n.only ids) :=
  ⟨rfl, fun id hid => (if_pos (h id hid)).symm⟩

end Names

/-! ## Evaluation -/

namespace Term

open Names (AgreeOn)

mutual

/-- The value of a term depends on what it looks up and on the time only. -/
theorem eval_congr : ∀ e : Term, AgreeOn e.names n n' → eval n e = eval n' e
  | literal _ _, _ => rfl
  | name _ id, h => by rw [eval, eval, h.value]
  | list _ items, h => by rw [eval, eval, evalAll_congr items h]
  | map _ entries, h => by rw [eval, eval, evalEntries_congr entries h]
  | negate _ e, h => by rw [eval, eval, eval_congr e h]
  | invert _ e, h => by rw [eval, eval, eval_congr e h]
  | binary _ _ l r, h => by rw [eval, eval, eval_congr l h.left, eval_congr r h.right]
  | compare _ first rest, h => by
    have hrest (a : Value) := evalCompared_congr a rest h.right
    simp only [eval, eval_congr first h.left, hrest]
  | conj _ l r, h => by rw [eval, eval, eval_congr l h.left, eval_congr r h.right]
  | disj _ l r, h => by rw [eval, eval, eval_congr l h.left, eval_congr r h.right]
  | conditional cond yes no, h => by
    rw [eval, eval, eval_congr cond h.left, eval_congr yes h.right.left,
      evalOption_congr _ no h.right.right]
  | field e _, h => by rw [eval, eval, eval_congr e h]
  | item e key, h => by rw [eval, eval, eval_congr e h.left, eval_congr key h.right]
  | slice e start stop step, h => by
    rw [eval, eval, eval_congr e h.left, evalOption_congr _ start h.right.left,
      evalOption_congr _ stop h.right.right.left, evalOption_congr _ step h.right.right.right]
  | filter e id args, h => by
    rw [eval, eval, eval_congr e h.left, evalPassed_congr _ args h.right, evalPassed_congr _ args h.right,
      h.now]
  | test e id args, h => by
    rw [eval, eval, eval_congr e h.left, evalPassed_congr _ args h.right, evalPassed_congr _ args h.right]
  | call _ id args, h => by
    simp only [eval, evalPassed_congr _ args h.tail, h.call]
  | callField e _ args, h => by
    rw [eval, eval, eval_congr e h.left, evalPassed_congr _ args h.right, evalPassed_congr _ args h.right]
  | callValue e args, h => by
    rw [eval, eval, eval_congr e h.left, evalPassed_congr _ args h.right, evalPassed_congr _ args h.right]

theorem evalOption_congr (otherwise : Value) : ∀ o : Option Term, AgreeOn (namesOfOption o) n n' →
    evalOption n otherwise o = evalOption n' otherwise o
  | none, _ => rfl
  | some e, h => eval_congr e h

theorem evalAll_congr : ∀ es : List Term, AgreeOn (namesOfAll es) n n' → evalAll n es = evalAll n' es
  | [], _ => rfl
  | e :: rest, h => by rw [evalAll, evalAll, eval_congr e h.left, evalAll_congr rest h.right]

theorem evalEntries_congr : ∀ entries : List (Term × Term), AgreeOn (namesOfEntries entries) n n' →
    evalEntries n entries = evalEntries n' entries
  | [], _ => rfl
  | (k, e) :: rest, h => by
    rw [evalEntries, evalEntries, eval_congr k h.left, eval_congr e h.right.left,
      evalEntries_congr rest h.right.right]

theorem evalPassed_congr (keywords : Bool) : ∀ args : List (Passing × Term),
    AgreeOn (namesOfPassed args) n n' → evalPassed n keywords args = evalPassed n' keywords args
  | [], _ => rfl
  | (_, e) :: rest, h => by
    rw [evalPassed, evalPassed, eval_congr e h.left, evalPassed_congr keywords rest h.right]

theorem evalCompared_congr (a : Value) : ∀ cs : List (CompareOp × Term),
    AgreeOn (namesOfCompared cs) n n' → evalCompared n a cs = evalCompared n' a cs
  | [], _ => rfl
  | (_, e) :: rest, h => by
    have hrest (b : Value) := evalCompared_congr b rest h.right
    simp only [evalCompared, eval_congr e h.left, hrest]

end

end Term

end FlowEngine.Expr
