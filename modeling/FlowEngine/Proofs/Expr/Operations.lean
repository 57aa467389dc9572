import FlowEngine.Expr.Eval
import FlowEngine.Proofs.Time.Formats

/-!
# Operations that crash

No operator, filter, test or function finds fault with the text of an expression, and of all of them
three operations may end the program: a text is repeated too often, a point in time is written in a
format that is none, or an integer is tested for being a multiple of zero.

* `Fault.Foreign` — the faults that come from elsewhere, and crashes.
* `Value.mul_crashes`, `formatTime_crashes`, `isMultiple_crashes` — just when these three operations fail
  with such a fault: it is a crash.
* `applyTest_crashes`, `FilterCrash`, `applyFilter_crashes` — the tests and filters that apply them.
* `binaryOp_crashes`, `compareOp_ne_foreign`, `callValue_ne_foreign` — operators and functions.
-/

namespace FlowEngine.Expr

variable {α β : Type} {fault : Fault}

/-! ## Outcomes -/

/-- A fault that is none in what an operation is applied to: the text of an expression cannot be read,
or the program ends. -/
class inductive Fault.Foreign : Fault → Prop
  | malformed : Foreign .malformed
  | badEscape : Foreign .badEscape
  | crash : Foreign .crash

attribute [instance] Fault.Foreign.malformed Fault.Foreign.badEscape Fault.Foreign.crash

section

variable {x : Eval α} {f : α → Eval β} {items : List α}

theorem bind_eq_error :
    (x >>= f) = .error fault ↔ x = .error fault ∨ ∃ a, x = .ok a ∧ f a = .error fault := by
  cases x with
  | error e => exact ⟨fun h => .inl (by cases h; rfl), fun h => by
      rcases h with h | ⟨a, h, -⟩
      · cases h; rfl
      · cases h⟩
  | ok a => exact ⟨fun h => .inr ⟨a, rfl, h⟩, fun h => by
      rcases h with h | ⟨b, hb, h⟩
      · cases h
      · cases hb; exact h⟩

theorem map_eq_error {g : α → β} : x.map g = .error fault ↔ x = .error fault := by
  cases x <;> simp [Except.map]

/-- What is done with every item fails because of one of them. -/
theorem mapM_error (h : items.mapM f = .error fault) : ∃ a ∈ items, f a = .error fault := by
  induction items with
  | nil => cases h
  | cons a items ih =>
    rw [List.mapM_cons] at h
    rcases bind_eq_error.mp h with h | ⟨b, -, h⟩
    · exact ⟨a, List.mem_cons_self, h⟩
    rcases bind_eq_error.mp h with h | ⟨bs, -, h⟩
    · obtain ⟨c, hc, h⟩ := ih h
      exact ⟨c, List.mem_cons_of_mem _ hc, h⟩
    · cases h

theorem filterM_error {p : α → Eval Bool} (h : items.filterM p = .error fault) :
    ∃ a ∈ items, p a = .error fault := by
  have loop {items : List α} (acc : List α) (h : List.filterAuxM p items acc = .error fault) :
      ∃ a ∈ items, p a = .error fault := by
    induction items generalizing acc with
    | nil => cases h
    | cons a items ih =>
      rcases bind_eq_error.mp h with h | ⟨b, -, h⟩
      · exact ⟨a, List.mem_cons_self, h⟩
      · obtain ⟨c, hc, h⟩ := ih _ h
        exact ⟨c, List.mem_cons_of_mem _ hc, h⟩
  rcases bind_eq_error.mp h with h | ⟨found, -, h⟩
  · exact loop [] h
  · cases h

theorem foldlM_ne_error {f : β → α → Eval β} (h : ∀ b a, f b a ≠ .error fault) (b : β) :
    items.foldlM f b ≠ .error fault := by
  induction items generalizing b with
  | nil => exact fun h => by cases h
  | cons a items ih =>
    rw [List.foldlM_cons]
    intro hfault
    rcases bind_eq_error.mp hfault with hfault | ⟨b', -, hfault⟩
    · exact h b a hfault
    · exact ih b' hfault

end

variable [fault.Foreign]

namespace Fault

@[simp] theorem misuse_ne_foreign {m : Misuse} : misuse m ≠ fault := by
  rintro rfl
  cases ‹Foreign _›

@[simp] theorem undefinedValue_ne_foreign : undefinedValue ≠ fault := by
  rintro rfl
  cases ‹Foreign _›

@[simp] theorem unknownFilter_ne_foreign {name : Option String} : unknownFilter name ≠ fault := by
  rintro rfl
  cases ‹Foreign _›

@[simp] theorem unknownTest_ne_foreign {name : Option String} : unknownTest name ≠ fault := by
  rintro rfl
  cases ‹Foreign _›

@[simp] theorem unknownFunction_ne_foreign {name : String} : unknownFunction name ≠ fault := by
  rintro rfl
  cases ‹Foreign _›

@[simp] theorem unknownMethod_ne_foreign {kind : Kind} {name : String} :
    unknownMethod kind name ≠ fault := by
  rintro rfl
  cases ‹Foreign _›

@[simp] theorem missingArgument_ne_foreign : missingArgument ≠ fault := by
  rintro rfl
  cases ‹Foreign _›

@[simp] theorem tooManyArguments_ne_foreign {unknown : Option String} :
    tooManyArguments unknown ≠ fault := by
  rintro rfl
  cases ‹Foreign _›

end Fault

@[simp] theorem misuse_ne_foreign {m : Misuse} : (misuse m : Eval α) ≠ .error fault := by
  simp [misuse]

/-! ## Operators -/

namespace Value

variable {a b : Value} {n : Nat} {s : String}

/-- So many repetitions of a text have more bytes than can be addressed. -/
def Overlong (n : Nat) (s : String) : Prop := s ≠ "" ∧ 0x7FFFFFFFFFFFFFFF < n * s.utf8ByteSize

instance (n : Nat) (s : String) : Decidable (Overlong n s) := inferInstanceAs (Decidable (_ ∧ _))

omit [fault.Foreign] in
theorem repeatText_crashes : repeatText n s = .error fault ↔ fault = .crash ∧ Overlong n s := by
  unfold repeatText Overlong
  split_ifs <;> simp_all [eq_comm]

theorem checked_ne_foreign {operator : String} {i : Int} : checked operator a b i ≠ .error fault := by
  unfold checked
  split_ifs <;> simp

theorem unsupported_ne_foreign {operator : String} : unsupported operator a b ≠ .error fault :=
  misuse_ne_foreign

/-- One operand is a text, and the other one says how often it is repeated. -/
def Repeats (a b : Value) (n : Nat) (s : String) : Prop :=
  a = .str s ∧ b.asCount? = some n ∨ b = .str s ∧ a.asCount? = some n

/-- A product crashes exactly if a text is repeated too often. -/
theorem mul_crashes :
    a.mul b = .error fault ↔ fault = .crash ∧ ∃ n s, Repeats a b n s ∧ Overlong n s := by
  have uncounted (s : String) : asCount? (.str s) = Option.none := rfl
  unfold mul
  split
  next _ _ s =>
    constructor
    · intro h
      cases hn : asCount? b with
      | none => rw [hn] at h; exact absurd h misuse_ne_foreign
      | some n =>
        rw [hn] at h
        obtain ⟨hcrash, hlong⟩ := repeatText_crashes.mp h
        exact ⟨hcrash, n, s, .inl ⟨rfl, hn⟩, hlong⟩
    · rintro ⟨rfl, n, s', ⟨heq, hn⟩ | ⟨rfl, hn⟩, h⟩
      · cases heq
        rw [hn]
        exact repeatText_crashes.mpr ⟨rfl, h⟩
      · rw [uncounted] at hn
        cases hn
  next _ _ s hne =>
    constructor
    · intro h
      cases hn : asCount? a with
      | none => rw [hn] at h; exact absurd h misuse_ne_foreign
      | some n =>
        rw [hn] at h
        obtain ⟨hcrash, hlong⟩ := repeatText_crashes.mp h
        exact ⟨hcrash, n, s, .inr ⟨rfl, hn⟩, hlong⟩
    · rintro ⟨rfl, n, s', ⟨heq, hn⟩ | ⟨heq, hn⟩, h⟩
      · exact absurd heq (hne s')
      · cases heq
        rw [hn]
        exact repeatText_crashes.mpr ⟨rfl, h⟩
  next _ _ ha hb =>
    refine iff_of_false ?_ ?_
    · split
      · split <;> simp
      · split
        · exact checked_ne_foreign
        · simp
        · exact unsupported_ne_foreign
    · rintro ⟨-, n, s, ⟨heq, -⟩ | ⟨heq, -⟩, -⟩
      · exact ha s heq
      · exact hb s heq

theorem add_ne_foreign : a.add b ≠ .error fault := by
  unfold add
  split
  · simp
  · split
    · exact checked_ne_foreign
    · simp
    · simp
    · exact unsupported_ne_foreign

theorem sub_ne_foreign : a.sub b ≠ .error fault := by
  unfold sub
  split
  · exact checked_ne_foreign
  · simp
  · exact unsupported_ne_foreign

theorem div_ne_foreign : a.div b ≠ .error fault := by
  unfold div
  split
  · simp
  · exact unsupported_ne_foreign

theorem floorDiv_ne_foreign : a.floorDiv b ≠ .error fault := by
  unfold floorDiv
  split
  · split_ifs
    · exact misuse_ne_foreign
    · exact checked_ne_foreign
  · simp
  · exact unsupported_ne_foreign

theorem mod_ne_foreign : a.mod b ≠ .error fault := by
  unfold mod
  split
  · split_ifs <;> simp
  · simp
  · exact unsupported_ne_foreign

theorem pow_ne_foreign : a.pow b ≠ .error fault := by
  unfold pow
  split
  · split <;> simp
  · simp
  · exact unsupported_ne_foreign

theorem negate_ne_foreign : a.negate ≠ .error fault := by
  unfold negate
  split
  · simp
  · split_ifs <;> simp
  · simp

theorem contains_ne_foreign : a.contains b ≠ .error fault := by
  unfold contains
  split <;> simp

theorem asBound_ne_foreign : asBound a ≠ .error fault := by
  unfold asBound
  split
  · simp
  · split
    · split_ifs <;> simp
    · simp

theorem slice_ne_foreign {v start stop step : Value} : v.slice start stop step ≠ .error fault := by
  unfold slice
  simp only [ne_eq, bind_eq_error, asBound_ne_foreign, false_or, not_exists, not_and]
  intro _ _ _ _ _ _
  split_ifs
  · simp
  · split <;> simp
  · split <;> simp

end Value

theorem compareOp_ne_foreign {op : CompareOp} {a b : Value} : op.apply a b ≠ .error fault := by
  cases op <;> simp [CompareOp.apply, map_eq_error, Value.contains_ne_foreign]

theorem binaryOp_crashes {op : BinaryOp} {a b : Value} (h : op.apply a b = .error fault) :
    fault = .crash ∧ op = .mul ∧ ∃ n s, Value.Repeats a b n s ∧ Value.Overlong n s := by
  cases op with
  | mul =>
    obtain ⟨hcrash, hlong⟩ := Value.mul_crashes.mp h
    exact ⟨hcrash, rfl, hlong⟩
  | add => exact absurd h Value.add_ne_foreign
  | sub => exact absurd h Value.sub_ne_foreign
  | div => exact absurd h Value.div_ne_foreign
  | floorDiv => exact absurd h Value.floorDiv_ne_foreign
  | mod => exact absurd h Value.mod_ne_foreign
  | pow => exact absurd h Value.pow_ne_foreign
  | concat => cases h

/-! ## Arguments -/

section

variable {a : Arg} {args : List Arg} {v w : Value} {convert : Arg → Eval α} {now : Time.Instant}
  {keywords : List (Value × Value)}

@[simp] theorem passed_ne_foreign {p : Passing × Value} : Args.passed p ≠ .error fault := by
  unfold Args.passed
  split <;> simp

@[simp] theorem named_ne_foreign {p : Passing × Value} : Args.named p ≠ .error fault := by
  unfold Args.named
  split
  · simp
  · split_ifs <;> simp

@[simp] theorem gather_ne_foreign {positional keywords : List (Passing × Value)} :
    Args.gather positional keywords ≠ .error fault := fun h => by
  rcases bind_eq_error.mp h with h | ⟨entries, -, h⟩
  · obtain ⟨p, -, h⟩ := mapM_error h
    exact named_ne_foreign h
  rcases bind_eq_error.mp h with h | ⟨values, -, h⟩
  · obtain ⟨p, -, h⟩ := mapM_error h
    exact passed_ne_foreign h
  · cases h

@[simp] theorem asText_ne_foreign : a.asText ≠ .error fault := by
  unfold Arg.asText
  split <;> simp

omit [fault.Foreign] in
@[simp] theorem asAny_ne_foreign : a.asAny ≠ .error fault := by
  simp [Arg.asAny]

@[simp] theorem asStr_ne_foreign : a.asStr ≠ .error fault := by
  unfold Arg.asStr
  split <;> simp

@[simp] theorem asNat_ne_foreign {bound : Nat} {target : String} : a.asNat bound target ≠ .error fault := by
  unfold Arg.asNat
  dsimp only
  split
  · split_ifs <;> simp
  · simp

@[simp] theorem asInt_ne_foreign {lo hi : Int} {target : String} : a.asInt lo hi target ≠ .error fault := by
  unfold Arg.asInt
  dsimp only
  split
  · split_ifs <;> simp
  · simp

@[simp] theorem asBool_ne_foreign : a.asBool ≠ .error fault := by
  unfold Arg.asBool
  split <;> simp

@[simp] theorem required_ne_foreign (h : ∀ a, convert a ≠ .error fault) :
    required convert args ≠ .error fault := by
  unfold required
  split
  · simp
  · simp [map_eq_error, h]

omit [fault.Foreign] in
@[simp] theorem optional_ne_foreign (h : ∀ a, convert a ≠ .error fault) :
    optional convert args ≠ .error fault := by
  unfold optional
  split
  · simp
  · split_ifs <;> simp [map_eq_error, h]

theorem required_eq_ok {x : α} {rest : List Arg} (h : required convert args = .ok (x, rest)) :
    ∃ a, args = a :: rest ∧ convert a = .ok x := by
  unfold required at h
  split at h
  · cases h
  next a rest' =>
    cases ha : convert a with
    | error e => rw [ha] at h; cases h
    | ok x' => rw [ha] at h; cases h; exact ⟨a, rfl, ha⟩

theorem optional_eq_some {x : α} {rest : List Arg} (h : optional convert args = .ok (some x, rest)) :
    ∃ a, args = a :: rest ∧ convert a = .ok x := by
  unfold optional at h
  split at h
  · cases h
  next a rest' =>
    split_ifs at h
    · cases ha : convert a with
      | error e => rw [ha] at h; cases h
      | ok x' => rw [ha] at h; cases h; exact ⟨a, rfl, ha⟩
    · cases h

@[simp] theorem finish_ne_foreign : finish args ≠ .error fault := by
  unfold finish
  split <;> simp

theorem finish_eq_ok {u : Unit} (h : finish args = .ok u) : args = [] := by
  cases args with
  | nil => rfl
  | cons a args => cases h

omit [fault.Foreign] in
@[simp] theorem keyword_ne_foreign {name : String} (h : ∀ a, convert a ≠ .error fault) :
    keyword name convert keywords ≠ .error fault := by
  unfold keyword
  split
  · simp
  · split_ifs <;> simp [map_eq_error, h]

@[simp] theorem knownKeywords_ne_foreign {names : List String} :
    knownKeywords names keywords ≠ .error fault := by
  induction keywords with
  | nil => simp [knownKeywords]
  | cons k keywords ih =>
    unfold knownKeywords
    split
    · simp
    next heq =>
      cases heq
      split_ifs
      · exact ih
      · simp
    · simp

/-! ## Filters -/

@[simp] theorem itemsOf_ne_foreign : itemsOf v ≠ .error fault := by
  unfold itemsOf
  split <;> simp

theorem items?_of_itemsOf {items : List Value} (h : itemsOf v = .ok items) :
    v.items? = some items := by
  unfold itemsOf at h
  split at h
  next hitems =>
    cases h
    exact hitems
  · cases h

@[simp] theorem listOf_ne_foreign : listOf v ≠ .error fault := by
  unfold listOf
  split <;> simp

@[simp] theorem path_ne_foreign (steps : List (List Char)) (v : Value) : path steps v ≠ .error fault := by
  induction steps generalizing v with
  | nil => simp [path]
  | cons step rest ih =>
    unfold path
    split
    · simp
    · exact ih _

@[simp] theorem floatOfText_ne_foreign {s : String} : floatOfText s ≠ .error fault := by
  unfold floatOfText
  split <;> simp

@[simp] theorem toInteger_ne_foreign : toInteger v ≠ .error fault := by
  unfold toInteger
  split <;> try simp
  split
  · simp
  · simp [map_eq_error, floatOfText_ne_foreign]

@[simp] theorem toFloat_ne_foreign : toFloat v ≠ .error fault := by
  unfold toFloat
  split <;> try simp [map_eq_error, floatOfText_ne_foreign]
  split <;> simp

@[simp] theorem roundTo_ne_foreign {places : Int} : roundTo v places ≠ .error fault := by
  unfold roundTo
  split <;> simp

@[simp] theorem absolute_ne_foreign : absolute v ≠ .error fault := by
  unfold absolute
  split
  · split_ifs <;> simp
  · simp
  · simp

@[simp] theorem sumOf_ne_foreign {items : List Value} : sumOf items ≠ .error fault := by
  refine foldlM_ne_error (fun total v => ?_) _
  split
  · simp
  · split_ifs
    · exact Value.add_ne_foreign
    · simp

@[simp] theorem sortItems_ne_foreign {items : List Value} : sortItems items keywords ≠ .error fault := by
  simp [sortItems, bind_eq_error]

@[simp] theorem uniqueItems_ne_foreign : uniqueItems v keywords ≠ .error fault := by
  simp [uniqueItems, bind_eq_error]

@[simp] theorem reversed_ne_foreign : reversed v ≠ .error fault := by
  unfold reversed
  split <;> simp

@[simp] theorem instantOf_ne_foreign {j : Json} : instantOf now j ≠ .error fault := by
  unfold instantOf
  split
  · split_ifs
    · simp
    · split <;> simp
  · split_ifs <;> simp
  · simp
  · simp

/-- A point in time is written unless the format is none. -/
theorem formatTime_crashes {format : String} : formatTime now v format = .error fault ↔
    fault = .crash ∧ (∃ t, instantOf now v.toJson = .ok t) ∧ ¬ Time.Format format.toList := by
  rw [formatTime, bind_eq_error]
  constructor
  · rintro (h | ⟨t, ht, h⟩)
    · exact absurd h instantOf_ne_foreign
    · cases hformat : t.format? format with
      | some text => rw [hformat] at h; cases h
      | none =>
        rw [hformat] at h
        cases h
        refine ⟨rfl, ⟨t, ht⟩, fun hf => ?_⟩
        rw [← t.format?_isSome, hformat] at hf
        cases hf
  · rintro ⟨rfl, ⟨t, ht⟩, hf⟩
    have hnone : t.format? format = Option.none := by
      rwa [← Option.not_isSome_iff_eq_none, t.format?_isSome]
    exact .inr ⟨t, ht, by rw [hnone]⟩

@[simp] theorem bare_ne_foreign {f : Value → Eval Value} (h : f v ≠ .error fault) :
    bare f v args ≠ .error fault := by
  simp [bare, bind_eq_error, finish_ne_foreign, h]

@[simp] theorem keyed_ne_foreign {f : Value → List (Value × Value) → Eval Value}
    (h : ∀ ks, f v ks ≠ .error fault) : keyed f v args ≠ .error fault := by
  unfold keyed
  split
  · exact h _
  · exact h _
  · simp

/-- The filters that do not apply others; only the one for points in time may crash. -/
theorem filter?_ne_foreign {name : String} {f : Value → List Arg → Eval Value}
    (hf : filter? now name = some f) (hname : name ≠ "strftime") : f v args ≠ .error fault := by
  unfold filter? at hf
  split at hf <;> cases hf
  case h_8.refl => exact absurd rfl hname
  case h_2.refl =>
    intro h
    rcases bind_eq_error.mp h with h | ⟨⟨separator, rest⟩, -, h⟩
    · simp at h
    rcases bind_eq_error.mp h with h | ⟨_, -, h⟩
    · simp at h
    split at h <;> cases h
  case h_3.refl | h_4.refl =>
    refine bare_ne_foreign ?_
    split_ifs
    · split <;> simp
    · simp
  case h_13.refl =>
    refine bare_ne_foreign ?_
    split <;> simp
  case h_20.refl =>
    refine bare_ne_foreign ?_
    split_ifs <;> simp
  all_goals simp [bind_eq_error]

/-! ## Tests -/

omit [fault.Foreign] in
/-- A test for being a multiple crashes exactly if both are integers and the second one is zero. -/
theorem isMultiple_crashes :
    isMultiple v w = .error fault ↔
      fault = .crash ∧ ∃ i, v.coerce? false w = some (.ints i 0) := by
  unfold isMultiple
  split
  next i j heq =>
    rw [heq]
    split_ifs with hj <;> simp [hj, eq_comm]
  next heq => simp [heq]
  next hne _ =>
    refine iff_of_false (by simp) fun ⟨_, i, h⟩ => ?_
    exact hne i 0 h

theorem bareTest_ne_foreign {f : Value → Bool} : bareTest f v args ≠ .error fault := by
  simp [bareTest, bind_eq_error]

theorem pairTest_crashes {f : Value → Value → Eval Bool} (h : pairTest f v args = .error fault) :
    ∃ a, args = [a] ∧ f v a.toValue = .error fault := by
  match args with
  | [] => simp [pairTest, required, bind_eq_error] at h
  | [a] => exact ⟨a, rfl, h⟩
  | _ :: _ :: _ => simp [pairTest, required, Arg.asAny, finish, Except.map, bind_eq_error] at h

/-- The one test that may crash, and when. -/
theorem test?_crashes {name : String} {f : Value → List Arg → Eval Bool} (hf : test? name = some f)
    (h : f v args = .error fault) : fault = .crash ∧ name = "divisibleby" ∧
      ∃ a i, args = [a] ∧ v.coerce? false a.toValue = some (.ints i 0) := by
  unfold test? at hf
  split at hf <;> cases hf
  case h_12.refl =>
    obtain ⟨a, ha, h⟩ := pairTest_crashes h
    obtain ⟨hcrash, i, hi⟩ := isMultiple_crashes.mp h
    exact ⟨hcrash, rfl, a, i, ha, hi⟩
  case h_13.refl | h_14.refl =>
    obtain ⟨a, -, h⟩ := pairTest_crashes h
    cases h
  case h_15.refl => simp [bind_eq_error] at h
  all_goals exact absurd h bareTest_ne_foreign

theorem applyTest_crashes {name : String} {args : Args} (h : applyTest name v args = .error fault) :
    fault = .crash ∧ name = "divisibleby" ∧ ∃ a i, Arg.ofArgs args.positional args.keywords = [a] ∧
      v.coerce? false a.toValue = some (.ints i 0) := by
  unfold applyTest at h
  split at h
  next hf => exact test?_crashes hf h
  · simp at h

/-! ## Filters that apply others -/

/-- A selection crashes because of a test of one of the items. -/
theorem selectItems_crashes (h : selectItems v args = .error fault) : fault = .crash ∧
    ∃ a b, args = [a, b] ∧ a.asText = .ok "divisibleby" ∧ ∃ items, v.items? = some items ∧
      ∃ u ∈ items, ∃ i, u.coerce? false b.toValue = some (.ints i 0) := by
  unfold selectItems at h
  rcases bind_eq_error.mp h with h | ⟨⟨name, rest⟩, hname, h⟩
  · simp at h
  -- what is done with every item, once the test is known
  have filtered {keep : Value → Eval Bool}
      (h : (itemsOf v >>= fun items => (items.filterM keep).map Value.seq) = .error fault) :
      ∃ items, v.items? = some items ∧ ∃ u ∈ items, keep u = .error fault := by
    rcases bind_eq_error.mp h with h | ⟨items, hitems, h⟩
    · simp at h
    · exact ⟨items, items?_of_itemsOf hitems, filterM_error (map_eq_error.mp h)⟩
  dsimp only at h
  split at h
  · obtain ⟨_, -, _, -, h⟩ := filtered h
    cases h
  next test =>
    split at h
    next f hf =>
      obtain ⟨items, hitems, u, hu, hu'⟩ := filtered h
      obtain ⟨a, hargs, ha⟩ := optional_eq_some hname
      obtain ⟨hcrash, rfl, b, i, rfl, hi⟩ := test?_crashes hf hu'
      exact ⟨hcrash, a, b, hargs, ha, items, hitems, u, hu, i, hi⟩
    · simp [bind_eq_error] at h

@[simp] theorem mapAttribute_ne_foreign {attr fallback : Value} :
    mapAttribute v attr fallback ≠ .error fault := fun h => by
  unfold mapAttribute at h
  rcases bind_eq_error.mp h with h | ⟨items, -, h⟩
  · simp at h
  obtain ⟨u, -, h⟩ := mapM_error (map_eq_error.mp h)
  dsimp only at h
  split at h
  · simp at h
  · cases h
  next e he =>
    split_ifs at h
    cases h
    split at he
    · exact path_ne_foreign _ _ he
    · split at he
      · simp at he
      · cases he

/-- Why a filter crashes, with arguments by keyword and by position. -/
inductive FilterCrash (now : Time.Instant) :
    Option (List (Value × Value)) → List Value → String → Value → Prop
  | format {keywords positional v a format t} (args : Arg.ofArgs positional keywords = [a])
    (text : a.asText = .ok format) (time : instantOf now v.toJson = .ok t)
    (none : ¬ Time.Format format.toList) : FilterCrash now keywords positional "strftime" v
  | multiple {keywords positional v a b us u i}
    (args : Arg.ofArgs positional keywords = [a, b]) (test : a.asText = .ok "divisibleby")
    (items : v.items? = some us) (item : u ∈ us)
    (zero : Value.coerce? false u b.toValue = some (.ints i 0)) :
    FilterCrash now keywords positional "select" v
  | item {keywords name rest v us u} (items : v.items? = some us) (item : u ∈ us)
    (crash : FilterCrash now Option.none rest name u) :
    FilterCrash now keywords (.str name :: rest) "map" v

theorem simple_crashes {keywords : Option (List (Value × Value))} {positional : List Value}
    {name : String}
    (h : applyFilter.simple now name v (Arg.ofArgs positional keywords) = .error fault) :
    fault = .crash ∧ FilterCrash now keywords positional name v := by
  unfold applyFilter.simple at h
  split_ifs at h with hselect
  · obtain ⟨hcrash, a, b, hargs, htest, items, hitems, u, hu, i, hi⟩ := selectItems_crashes h
    rw [hselect]
    exact ⟨hcrash, .multiple hargs htest hitems hu hi⟩
  split at h
  next f hf =>
    by_cases hname : name = "strftime"
    · subst hname
      cases hf
      rcases bind_eq_error.mp h with h | ⟨⟨format, rest⟩, hformat, h⟩
      · simp at h
      rcases bind_eq_error.mp h with h | ⟨_, hrest, h⟩
      · simp at h
      obtain ⟨hcrash, ⟨t, ht⟩, hnone⟩ := formatTime_crashes.mp h
      obtain ⟨a, hargs, ha⟩ := required_eq_ok hformat
      rw [finish_eq_ok hrest] at hargs
      exact ⟨hcrash, .format hargs ha ht hnone⟩
    · exact absurd h (filter?_ne_foreign hf hname)
  · simp at h

/-- A filter crashes for one of these reasons. -/
theorem applyFilter_crashes {keywords : Option (List (Value × Value))} {positional : List Value}
    {name : String} (h : applyFilter now keywords positional name v = .error fault) :
    fault = .crash ∧ FilterCrash now keywords positional name v := by
  induction positional generalizing keywords name v with
  | nil =>
    unfold applyFilter at h
    split_ifs at h with hmap
    · split at h
      · simp [bind_eq_error] at h
      · simp at h
    · exact simple_crashes h
  | cons a rest ih =>
    unfold applyFilter at h
    split_ifs at h with hmap hattr
    · simp at h
    · split at h
      next filter =>
        split_ifs at h
        · simp at h
        rcases bind_eq_error.mp h with h | ⟨items, hitems, h⟩
        · simp at h
        obtain ⟨u, hu, h⟩ := mapM_error (map_eq_error.mp h)
        obtain ⟨hcrash, hitem⟩ := ih h
        rw [hmap]
        exact ⟨hcrash, .item (items?_of_itemsOf hitems) hu hitem⟩
      · simp at h
    · exact simple_crashes h

/-! ## Functions -/

theorem rangeOf_ne_foreign {first last step : Int} : rangeOf first last step ≠ .error fault := by
  unfold rangeOf
  split_ifs
  · simp
  all_goals dsimp only; split_ifs <;> simp

theorem apply_ne_foreign {f : Function} {args : Args} : f.apply args ≠ .error fault := fun h => by
  cases f with
  | range =>
    rcases bind_eq_error.mp h with h | ⟨⟨lower, rest⟩, -, h⟩
    · simp at h
    rcases bind_eq_error.mp h with h | ⟨⟨upper, rest⟩, -, h⟩
    · simp at h
    rcases bind_eq_error.mp h with h | ⟨⟨step, rest⟩, -, h⟩
    · simp at h
    rcases bind_eq_error.mp h with h | ⟨_, -, h⟩
    · simp at h
    split at h <;> exact rangeOf_ne_foreign h
  | dict =>
    rcases bind_eq_error.mp h with h | ⟨⟨base, rest⟩, -, h⟩
    · simp at h
    rcases bind_eq_error.mp h with h | ⟨_, -, h⟩
    · simp at h
    dsimp only at h
    split at h
    · cases h
    · split_ifs at h
      · cases h
      · simp [bind_eq_error] at h

theorem callValue_ne_foreign {args : Args} : callValue v args ≠ .error fault := by
  unfold callValue
  split
  · exact apply_ne_foreign
  · simp

theorem callField_ne_foreign {name : String} {args : Args} :
    callField v name args ≠ .error fault := by
  unfold callField
  split
  · exact callValue_ne_foreign
  · simp

theorem call_ne_foreign {names : Names} {id : String} {args : Args} :
    names.call id args ≠ .error fault := by
  unfold Names.call
  split
  · simp
  · simp
  · split
    · simp
    · exact callValue_ne_foreign

end

end FlowEngine.Expr
