import FlowEngine.Proofs.Expr.Operations

/-!
# Crashes of expressions

The evaluation of a term ends the program only because of an operation in it: a product that repeats a
text too often, a filter that writes a point in time in a format that is none, or a test for being a
multiple of zero. A term that has been read is never found to be malformed.

* `Term.Crashes` — such an operation in a term, with its operands.
* `Term.eval_crashes` — a term that fails with a fault that is foreign to operations crashes because of
  one of these.
-/

namespace FlowEngine.Expr

variable {α β : Type} {fault : Fault}

/-! ## Terms -/

/-- The parts of a term. -/
def Term.parts : Term → List Term
  | literal _ _ | name _ _ => []
  | list _ items => items
  | map _ entries => entries.flatMap fun e => [e.1, e.2]
  | negate _ e | invert _ e | field e _ => [e]
  | binary _ _ l r | conj _ l r | disj _ l r | item l r => [l, r]
  | compare _ first rest => first :: rest.map Prod.snd
  | conditional cond yes no => cond :: yes :: no.toList
  | slice e start stop step => e :: (start.toList ++ (stop.toList ++ step.toList))
  | filter e _ args | test e _ args | callField e _ args | callValue e args => e :: args.map Prod.snd
  | call _ _ args => args.map Prod.snd

/-- Why the evaluation of a term crashes: a product, a filter or a test does whose operands have
values, or a part of the term. -/
inductive Term.Crashes (names : Names) : Term → Prop
  | product {line l r a b n s} (left : l.eval names = .ok a) (right : r.eval names = .ok b)
    (repeats : Value.Repeats a b n s) (long : Value.Overlong n s) :
    Crashes names (.binary line .mul l r)
  | filter {e id args line v values} (operand : e.eval names = .ok v)
    (gathered : gatherArgs line (evalPassed names false args) (evalPassed names true args) =
      .ok values)
    (crash : FilterCrash names.now values.keywords values.positional id v) :
    Crashes names (.filter e id args)
  | multiple {e args line v values a i} (operand : e.eval names = .ok v)
    (gathered : gatherArgs line (evalPassed names false args) (evalPassed names true args) =
      .ok values)
    (one : Arg.ofArgs values.positional values.keywords = [a])
    (zero : Value.coerce? false v a.toValue = some (.ints i 0)) :
    Crashes names (.test e "divisibleby" args)
  | part {e e'} (h : e' ∈ e.parts) (crash : Crashes names e') : Crashes names e

/-- It fails with a fault, wherever that arose. -/
def Fails (fault : Fault) (x : Except Located α) : Prop := ∃ line, x = .error ⟨fault, line⟩

section

variable {names : Names} {x : Except Located α} {f : α → Except Located β} {line : Nat}

theorem not_fails_ok {a : α} : ¬ Fails fault (.ok a : Except Located α) := fun ⟨_, h⟩ => by cases h

theorem Fails.of_bind (h : Fails fault (x >>= f)) :
    Fails fault x ∨ ∃ a, x = .ok a ∧ Fails fault (f a) := by
  obtain ⟨line, h⟩ := h
  cases x with
  | error e =>
    cases h
    exact .inl ⟨line, rfl⟩
  | ok a => exact .inr ⟨a, rfl, line, h⟩

theorem Fails.of_located {y : Eval α} (h : Fails fault (located line y)) : y = .error fault := by
  obtain ⟨l, h⟩ := h
  cases y with
  | error e => cases h; rfl
  | ok a => cases h

/-- Arguments fail to be gathered because one of them does. -/
theorem Fails.of_args [fault.Foreign] {args : List (Passing × Term)}
    (h : Fails fault (gatherArgs line (Term.evalPassed names false args)
      (Term.evalPassed names true args)))
    (hpassed : ∀ keywords, Fails fault (Term.evalPassed names keywords args) →
      fault = .crash ∧ ∃ a ∈ args, Term.Crashes names a.2) :
    fault = .crash ∧ ∃ e ∈ args.map Prod.snd, Term.Crashes names e := by
  have arg {keywords : Bool} (h : Fails fault (Term.evalPassed names keywords args)) :
      fault = .crash ∧ ∃ e ∈ args.map Prod.snd, Term.Crashes names e :=
    (hpassed keywords h).imp_right fun ⟨a, ha, h⟩ => ⟨a.2, List.mem_map_of_mem ha, h⟩
  rcases h.of_bind with h | ⟨first, -, h⟩
  · exact arg h
  rcases h.of_bind with h | ⟨named, -, h⟩
  · exact arg h
  · exact absurd h.of_located gather_ne_foreign

end

namespace Term

variable (names : Names)

mutual

/-- A fault that no operation reports does not arise, except that the program ends for one of these
reasons. -/
theorem eval_crashes [fault.Foreign] : ∀ e : Term, Fails fault (eval names e) →
    fault = .crash ∧ Crashes names e
  | literal _ v, h => absurd h not_fails_ok
  | name _ id, h => absurd h not_fails_ok
  | list l items, h => by
    rw [eval] at h
    rcases h.of_bind with h | ⟨_, -, h⟩
    · obtain ⟨hcrash, e, he, h⟩ := evalAll_crashes items h
      exact ⟨hcrash, .part he h⟩
    · exact absurd h not_fails_ok
  | map l entries, h => by
    rw [eval] at h
    rcases h.of_bind with h | ⟨_, -, h⟩
    · obtain ⟨hcrash, e, he, h | h⟩ := evalEntries_crashes entries h
      · exact ⟨hcrash, .part (List.mem_flatMap.mpr ⟨e, he, by simp⟩) h⟩
      · exact ⟨hcrash, .part (List.mem_flatMap.mpr ⟨e, he, by simp⟩) h⟩
    · exact absurd h not_fails_ok
  | negate l e, h => by
    rw [eval] at h
    rcases h.of_bind with h | ⟨_, -, h⟩
    · exact (eval_crashes e h).imp_right (.part (by simp [parts]))
    · exact absurd h.of_located Value.negate_ne_foreign
  | invert l e, h => by
    rw [eval] at h
    rcases h.of_bind with h | ⟨_, -, h⟩
    · exact (eval_crashes e h).imp_right (.part (by simp [parts]))
    · exact absurd h not_fails_ok
  | binary line op l r, h => by
    rw [eval] at h
    rcases h.of_bind with h | ⟨a, ha, h⟩
    · exact (eval_crashes l h).imp_right (.part (by simp [parts]))
    rcases h.of_bind with h | ⟨b, hb, h⟩
    · exact (eval_crashes r h).imp_right (.part (by simp [parts]))
    obtain ⟨hcrash, rfl, n, s, hrepeats, hlong⟩ := binaryOp_crashes h.of_located
    exact ⟨hcrash, .product ha hb hrepeats hlong⟩
  | compare line first rest, h => by
    rw [eval] at h
    rcases h.of_bind with h | ⟨a, -, h⟩
    · exact (eval_crashes first h).imp_right (.part (by simp [parts]))
    · obtain ⟨hcrash, c, hc, h⟩ := evalCompared_crashes a rest h
      exact ⟨hcrash, .part (List.mem_cons_of_mem _ (List.mem_map_of_mem hc)) h⟩
  | conj line l r, h => by
    rw [eval] at h
    rcases h.of_bind with h | ⟨a, -, h⟩
    · exact (eval_crashes l h).imp_right (.part (by simp [parts]))
    split at h
    · exact absurd h not_fails_ok
    · split_ifs at h
      · exact (eval_crashes r h).imp_right (.part (by simp [parts]))
      · exact absurd h not_fails_ok
  | disj line l r, h => by
    rw [eval] at h
    rcases h.of_bind with h | ⟨a, -, h⟩
    · exact (eval_crashes l h).imp_right (.part (by simp [parts]))
    split_ifs at h
    · exact absurd h not_fails_ok
    · exact (eval_crashes r h).imp_right (.part (by simp [parts]))
  | conditional cond yes no, h => by
    rw [eval] at h
    rcases h.of_bind with h | ⟨a, -, h⟩
    · exact (eval_crashes cond h).imp_right (.part (by simp [parts]))
    split_ifs at h
    · exact (eval_crashes yes h).imp_right (.part (by simp [parts]))
    · obtain ⟨hcrash, e, he, h⟩ := evalOption_crashes _ no h
      exact ⟨hcrash, .part (by simp [parts, he]) h⟩
  | field e id, h => by
    rw [eval] at h
    rcases h.of_bind with h | ⟨_, -, h⟩
    · exact (eval_crashes e h).imp_right (.part (by simp [parts]))
    · exact absurd h not_fails_ok
  | item e key, h => by
    rw [eval] at h
    rcases h.of_bind with h | ⟨_, -, h⟩
    · exact (eval_crashes e h).imp_right (.part (by simp [parts]))
    rcases h.of_bind with h | ⟨_, -, h⟩
    · exact (eval_crashes key h).imp_right (.part (by simp [parts]))
    · exact absurd h not_fails_ok
  | slice e start stop step, h => by
    rw [eval] at h
    rcases h.of_bind with h | ⟨_, -, h⟩
    · exact (eval_crashes e h).imp_right (.part (by simp [parts]))
    rcases h.of_bind with h | ⟨_, -, h⟩
    · obtain ⟨hcrash, e, he, h⟩ := evalOption_crashes _ start h
      exact ⟨hcrash, .part (by simp [parts, he]) h⟩
    rcases h.of_bind with h | ⟨_, -, h⟩
    · obtain ⟨hcrash, e, he, h⟩ := evalOption_crashes _ stop h
      exact ⟨hcrash, .part (by simp [parts, he]) h⟩
    rcases h.of_bind with h | ⟨_, -, h⟩
    · obtain ⟨hcrash, e, he, h⟩ := evalOption_crashes _ step h
      exact ⟨hcrash, .part (by simp [parts, he]) h⟩
    · exact absurd h.of_located Value.slice_ne_foreign
  | filter e id args, h => by
    rw [eval] at h
    rcases h.of_bind with h | ⟨v, hv, h⟩
    · exact (eval_crashes e h).imp_right (.part List.mem_cons_self)
    rcases h.of_bind with h | ⟨values, hvalues, h⟩
    · obtain ⟨hcrash, a, ha, h⟩ := h.of_args fun keywords => evalPassed_crashes keywords args
      exact ⟨hcrash, .part (List.mem_cons_of_mem _ ha) h⟩
    · exact (applyFilter_crashes h.of_located).imp_right (.filter hv hvalues)
  | test e id args, h => by
    rw [eval] at h
    rcases h.of_bind with h | ⟨v, hv, h⟩
    · exact (eval_crashes e h).imp_right (.part List.mem_cons_self)
    rcases h.of_bind with h | ⟨values, hvalues, h⟩
    · obtain ⟨hcrash, a, ha, h⟩ := h.of_args fun keywords => evalPassed_crashes keywords args
      exact ⟨hcrash, .part (List.mem_cons_of_mem _ ha) h⟩
    · obtain ⟨hcrash, rfl, a, i, hone, hzero⟩ := applyTest_crashes (map_eq_error.mp h.of_located)
      exact ⟨hcrash, .multiple hv hvalues hone hzero⟩
  | call line id args, h => by
    rw [eval] at h
    rcases h.of_bind with h | ⟨values, -, h⟩
    · obtain ⟨hcrash, a, ha, h⟩ := h.of_args fun keywords => evalPassed_crashes keywords args
      exact ⟨hcrash, .part ha h⟩
    · exact absurd h.of_located call_ne_foreign
  | callField e id args, h => by
    rw [eval] at h
    rcases h.of_bind with h | ⟨v, hv, h⟩
    · exact (eval_crashes e h).imp_right (.part List.mem_cons_self)
    rcases h.of_bind with h | ⟨values, hvalues, h⟩
    · obtain ⟨hcrash, a, ha, h⟩ := h.of_args fun keywords => evalPassed_crashes keywords args
      exact ⟨hcrash, .part (List.mem_cons_of_mem _ ha) h⟩
    · exact absurd h.of_located callField_ne_foreign
  | callValue e args, h => by
    rw [eval] at h
    rcases h.of_bind with h | ⟨v, hv, h⟩
    · exact (eval_crashes e h).imp_right (.part List.mem_cons_self)
    rcases h.of_bind with h | ⟨values, hvalues, h⟩
    · obtain ⟨hcrash, a, ha, h⟩ := h.of_args fun keywords => evalPassed_crashes keywords args
      exact ⟨hcrash, .part (List.mem_cons_of_mem _ ha) h⟩
    · exact absurd h.of_located callValue_ne_foreign

theorem evalOption_crashes [fault.Foreign] (otherwise : Value) : ∀ o : Option Term,
    Fails fault (evalOption names otherwise o) →
      fault = .crash ∧ ∃ e, o = some e ∧ Crashes names e
  | none, h => absurd h not_fails_ok
  | some e, h => (eval_crashes e h).imp_right fun h => ⟨e, rfl, h⟩

theorem evalAll_crashes [fault.Foreign] : ∀ es : List Term, Fails fault (evalAll names es) →
    fault = .crash ∧ ∃ e ∈ es, Crashes names e
  | [], h => absurd h not_fails_ok
  | e :: rest, h => by
    rw [evalAll] at h
    rcases h.of_bind with h | ⟨_, -, h⟩
    · exact (eval_crashes e h).imp_right fun h => ⟨e, List.mem_cons_self, h⟩
    rcases h.of_bind with h | ⟨_, -, h⟩
    · obtain ⟨hcrash, e', he, h⟩ := evalAll_crashes rest h
      exact ⟨hcrash, e', List.mem_cons_of_mem _ he, h⟩
    · exact absurd h not_fails_ok

theorem evalEntries_crashes [fault.Foreign] : ∀ es : List (Term × Term),
    Fails fault (evalEntries names es) → fault = .crash ∧ ∃ e ∈ es, Crashes names e.1 ∨ Crashes names e.2
  | [], h => absurd h not_fails_ok
  | (k, e) :: rest, h => by
    rw [evalEntries] at h
    rcases h.of_bind with h | ⟨_, -, h⟩
    · exact (eval_crashes k h).imp_right fun h => ⟨(k, e), List.mem_cons_self, .inl h⟩
    rcases h.of_bind with h | ⟨_, -, h⟩
    · exact (eval_crashes e h).imp_right fun h => ⟨(k, e), List.mem_cons_self, .inr h⟩
    rcases h.of_bind with h | ⟨_, -, h⟩
    · obtain ⟨hcrash, e', he, h⟩ := evalEntries_crashes rest h
      exact ⟨hcrash, e', List.mem_cons_of_mem _ he, h⟩
    · exact absurd h not_fails_ok

theorem evalPassed_crashes [fault.Foreign] (keywords : Bool) : ∀ args : List (Passing × Term),
    Fails fault (evalPassed names keywords args) → fault = .crash ∧ ∃ a ∈ args, Crashes names a.2
  | [], h => absurd h not_fails_ok
  | (passing, e) :: rest, h => by
    rw [evalPassed] at h
    split_ifs at h
    · rcases h.of_bind with h | ⟨_, -, h⟩
      · exact (eval_crashes e h).imp_right fun h => ⟨(passing, e), List.mem_cons_self, h⟩
      rcases h.of_bind with h | ⟨_, -, h⟩
      · obtain ⟨hcrash, a, ha, h⟩ := evalPassed_crashes keywords rest h
        exact ⟨hcrash, a, List.mem_cons_of_mem _ ha, h⟩
      · exact absurd h not_fails_ok
    · obtain ⟨hcrash, a, ha, h⟩ := evalPassed_crashes keywords rest h
      exact ⟨hcrash, a, List.mem_cons_of_mem _ ha, h⟩

theorem evalCompared_crashes [fault.Foreign] (a : Value) : ∀ rest : List (CompareOp × Term),
    Fails fault (evalCompared names a rest) → fault = .crash ∧ ∃ c ∈ rest, Crashes names c.2
  | [], h => absurd h not_fails_ok
  | (op, e) :: rest, h => by
    rw [evalCompared] at h
    rcases h.of_bind with h | ⟨b, -, h⟩
    · exact (eval_crashes e h).imp_right fun h => ⟨(op, e), List.mem_cons_self, h⟩
    rcases h.of_bind with h | ⟨holds, -, h⟩
    · exact absurd h.of_located compareOp_ne_foreign
    split_ifs at h
    · obtain ⟨hcrash, c, hc, h⟩ := evalCompared_crashes b rest h
      exact ⟨hcrash, c, List.mem_cons_of_mem _ hc, h⟩
    · exact absurd h not_fails_ok

end

end Term

end FlowEngine.Expr
