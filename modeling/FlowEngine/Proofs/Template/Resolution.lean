import FlowEngine.Proofs.Template.Tokens

/-!
# Resolution

Resolving a template fills its tokens, and nothing else: what comes out is determined by what the
listed expressions evaluate to.

* `TextFilled`, `Filled` — a text and a document with the values of expressions in the places of its
  tokens.
* `firstFailure?` — the failure of the first expression that has no value.
* `resolve_fills_tokens` — resolution against both of them.
-/

namespace FlowEngine.Template

open FlowEngine.Expr

variable {names names' : Names} {value : String → Json} {f : Failure} {s : String} {j k : Json}
  {tokens : List (List Char × List Char)} {last inside : List Char}

/-! ## Filled documents -/

/-- The literals of a cut and the texts of values between them. -/
def written (value : String → Json) (tokens : List (List Char × List Char)) (last : List Char) :
    List Char :=
  (tokens.flatMap fun t => t.1 ++ inserted (value (expressionOf t.2))) ++ last

/-- A cut with one token, and no more than blanks around it. -/
def Alone (tokens : List (List Char × List Char)) (last inside : List Char) : Prop :=
  ∃ before, tokens = [(before, inside)] ∧ (∀ c ∈ before, Text.isBlank c = true) ∧
    ∀ c ∈ last, Text.isBlank c = true

/-- What a text becomes: it stays if it has no token, is the value itself if the token is alone, and
has the texts of the values in it otherwise. -/
inductive TextFilled (value : String → Json) (s : String) : Json → Prop
  | plain {last : List Char} (cut : Cut s.toList [] last) : TextFilled value s (.str s)
  | alone {tokens : List (List Char × List Char)} {last inside : List Char}
    (cut : Cut s.toList tokens last) (alone : Alone tokens last inside) :
    TextFilled value s (value (expressionOf inside))
  | mixed {tokens : List (List Char × List Char)} {last : List Char}
    (cut : Cut s.toList tokens last) (some : tokens ≠ []) (mixed : ∀ inside, ¬ Alone tokens last inside) :
    TextFilled value s (.str (String.ofList (written value tokens last)))

mutual

/-- A template and what it becomes: of the same shape, with every text filled. -/
def Filled (value : String → Json) : Json → Json → Prop
  | .str s, k => TextFilled value s k
  | .arr elements, k => ∃ ks, k = .arr ks ∧ FilledAll value elements ks
  | .obj members, k => ∃ ks, k = .obj ks ∧ FilledMembers value members ks
  | j, k => k = j

/-- The same for each of several templates. -/
def FilledAll (value : String → Json) : List Json → List Json → Prop
  | [], ks => ks = []
  | j :: rest, ks => ∃ k ks', ks = k :: ks' ∧ Filled value j k ∧ FilledAll value rest ks'

/-- The same for each of several members, under the same name. -/
def FilledMembers (value : String → Json) : List (String × Json) → List (String × Json) → Prop
  | [], ks => ks = []
  | (name, j) :: rest, ks =>
    ∃ k ks', ks = (name, k) :: ks' ∧ Filled value j k ∧ FilledMembers value rest ks'

end

/-- The failure of an expression that has no value. -/
def failure? (names : Names) (expression : String) : Option Failure :=
  match evaluate names expression with
  | .ok _ => none
  | .error f => some f

/-- The failure of the first expression that has no value. -/
def firstFailure? (names : Names) (expressions : List String) : Option Failure :=
  expressions.findSome? (failure? names)

/-- The values that expressions have. -/
def HasValues (names : Names) (value : String → Json) (expressions : List String) : Prop :=
  ∀ e ∈ expressions, evaluate names e = .ok (value e)

/-! ## Failures -/

theorem firstFailure?_append (es es' : List String) : firstFailure? names (es ++ es') =
    (firstFailure? names es).or (firstFailure? names es') :=
  List.findSome?_append

theorem firstFailure?_cons_error {e : String} (es : List String) (h : evaluate names e = .error f) :
    firstFailure? names (e :: es) = some f := by
  rw [firstFailure?, List.findSome?_cons, failure?, h]

theorem firstFailure?_cons_ok {e : String} (es : List String) (h : evaluate names e = .ok j) :
    firstFailure? names (e :: es) = firstFailure? names es := by
  rw [firstFailure?, List.findSome?_cons, failure?, h]
  rfl

theorem firstFailure?_congr {es : List String} (h : ∀ e ∈ es, evaluate names e = evaluate names' e) :
    firstFailure? names es = firstFailure? names' es := by
  induction es with
  | nil => rw [firstFailure?, firstFailure?, List.findSome?_nil, List.findSome?_nil]
  | cons e es ih =>
    have he := h e List.mem_cons_self
    have hes := ih fun e' he' => h e' (List.mem_cons_of_mem _ he')
    cases hv : evaluate names e with
    | error f =>
      rw [firstFailure?_cons_error es hv, firstFailure?_cons_error es (he.symm.trans hv)]
    | ok j => rw [firstFailure?_cons_ok es hv, firstFailure?_cons_ok es (he.symm.trans hv), hes]

/-- Expressions have values unless one of them fails. -/
theorem exists_hasValues {es : List String} (h : firstFailure? names es = none) :
    ∃ value, HasValues names value es := by
  refine ⟨fun e => (evaluate names e).toOption.getD .null, fun e he => ?_⟩
  have := List.findSome?_eq_none_iff.mp h e he
  rw [failure?] at this
  cases hv : evaluate names e with
  | ok v => simp [hv, Except.toOption]
  | error f => rw [hv] at this; cases this

theorem HasValues.left {es es' : List String} (h : HasValues names value (es ++ es')) :
    HasValues names value es :=
  fun e he => h e (List.mem_append_left _ he)

theorem HasValues.right {es es' : List String} (h : HasValues names value (es ++ es')) :
    HasValues names value es' :=
  fun e he => h e (List.mem_append_right _ he)

/-! ## Texts -/

/-- Blanks around an expression do not matter. -/
theorem evaluate_expressionOf (names : Names) (inside : List Char) :
    evaluate names (expressionOf inside) = evaluate names (String.ofList inside) := by
  have htrim : Text.trimText (expressionOf inside) = Text.trimText (String.ofList inside) := by
    simp only [Text.trimText, expressionOf, String.toList_ofList, trim_trim]
  simp only [evaluate, htrim]

/-- Text before other pieces is written as it is. -/
theorem interpolate_plainPiece (names : Names) (cs : List Char) (rest : List Piece) :
    interpolate names (plainPiece cs ++ rest) = (interpolate names rest).map (cs ++ ·) := by
  unfold plainPiece
  split_ifs with hempty
  · rw [List.isEmpty_iff.mp hempty, List.nil_append]
    cases interpolate names rest <;> rfl
  · cases h : interpolate names rest <;> simp [interpolate, h, bind, Except.bind, Except.map]

theorem interpolate_last (names : Names) (last : List Char) :
    interpolate names (plainPiece last) = .ok last := by
  have := interpolate_plainPiece names last []
  rw [List.append_nil] at this
  rw [this, interpolate, Except.map, List.append_nil]

theorem interpolate_token (names : Names) (t : List Char × List Char) (rest : List Piece) :
    interpolate names (plainPiece t.1 ++ .token t.2 :: rest) = (do
      let j ← evaluate names (expressionOf t.2)
      let after ← interpolate names rest
      .ok (t.1 ++ (inserted j ++ after))) := by
  rw [interpolate_plainPiece, interpolate, evaluate_expressionOf]
  cases evaluate names (String.ofList t.2) with
  | error f => rfl
  | ok j => cases interpolate names rest <;> rfl

theorem interpolate_ok (h : HasValues names value (tokens.map fun t => expressionOf t.2)) :
    interpolate names (piecesOf tokens last) = .ok (written value tokens last) := by
  induction tokens with
  | nil => exact interpolate_last names last
  | cons t tokens ih =>
    have hrest : HasValues names value (tokens.map fun t => expressionOf t.2) :=
      fun e he => h e (List.mem_cons_of_mem _ he)
    have ht := h _ List.mem_cons_self
    rw [piecesOf_cons, interpolate_token, ht, ih hrest]
    simp [written, bind, Except.bind]

theorem interpolate_error (h : firstFailure? names (tokens.map fun t => expressionOf t.2) = some f) :
    interpolate names (piecesOf tokens last) = .error f := by
  induction tokens with
  | nil => cases h
  | cons t tokens ih =>
    rw [piecesOf_cons, interpolate_token]
    rw [List.map_cons] at h
    cases hv : evaluate names (expressionOf t.2) with
    | error g =>
      rw [firstFailure?_cons_error _ hv] at h
      rw [Option.some.inj h]
      rfl
    | ok j =>
      rw [firstFailure?_cons_ok _ hv] at h
      rw [ih h]
      rfl

theorem onlyToken?_eq_some_iff (cut : Cut s.toList tokens last) :
    onlyToken? (Text.trim s.toList) = some inside ↔ Alone tokens last inside :=
  onlyToken?_trim_iff cut

/-- A text with a token that is alone gives what its expression gives. -/
theorem resolveText_alone (cut : Cut s.toList tokens last) (h : Alone tokens last inside) :
    resolveText names s = evaluate names (expressionOf inside) := by
  rw [resolveText, (onlyToken?_eq_some_iff cut).mpr h, evaluate_expressionOf]

/-- In any other text the values are written between the literals. -/
theorem resolveText_mixed (cut : Cut s.toList tokens last) (h : ∀ inside, ¬ Alone tokens last inside) :
    resolveText names s =
      (interpolate names (piecesOf tokens last)).map fun cs => .str (String.ofList cs) := by
  have hnone : onlyToken? (Text.trim s.toList) = none := by
    cases honly : onlyToken? (Text.trim s.toList) with
    | none => rfl
    | some inside => exact absurd ((onlyToken?_eq_some_iff cut).mp honly) (h inside)
  rw [resolveText, hnone, pieces_of_cut cut]

/-- An expression as a token. -/
def tokenText (e : String) : String := String.ofList (opening ++ (e.toList ++ closing))

/-- A token without closing braces inside resolves to what its expression evaluates to. -/
theorem resolveText_tokenText {e : String} (h : '\x7d' ∉ e.toList) :
    resolveText names (tokenText e) = evaluate names e := by
  have hfirst : FirstToken (opening ++ (e.toList ++ closing)) [] e.toList [] := by
    refine ⟨by simp [CutAt], fun b i a _ => Nat.zero_le _, ?_⟩
    intro i a hcut
    by_contra hlt
    rw [Nat.not_le] at hlt
    -- otherwise the braces that close the shorter token would stand inside the longer one
    have htail : e.toList ++ closing = i ++ (closing ++ a) := List.append_cancel_left hcut
    have hbrace : (e.toList ++ closing)[i.length]? = some '\x7d' := by
      rw [htail]
      simp [closing]
    rw [List.getElem?_append_left hlt] at hbrace
    exact h (List.mem_of_getElem? hbrace)
  have hcut : Cut (tokenText e).toList [([], e.toList)] [] := by
    rw [tokenText, String.toList_ofList]
    exact .token hfirst (.last fun _ _ _ => not_cutAt_of_blank (by simp))
  rw [resolveText_alone hcut ⟨[], rfl, by simp, by simp⟩, evaluate_expressionOf, String.ofList_toList]

/-- A text without tokens is what follows the last one. -/
theorem Cut.eq_last {cs : List Char} (h : Cut cs [] last) : last = cs := by
  cases h
  rfl

theorem not_alone_nil (inside : List Char) : ¬ Alone [] last inside := by
  rintro ⟨before, h, -⟩
  cases h

theorem Alone.unique {inside' : List Char} (h : Alone tokens last inside)
    (h' : Alone tokens last inside') : inside = inside' := by
  obtain ⟨before, rfl, -⟩ := h
  obtain ⟨before', h, -⟩ := h'
  cases h
  rfl

/-- There is one way to fill a text. -/
theorem TextFilled.unique (h : TextFilled value s j) (h' : TextFilled value s k) : j = k := by
  cases h with
  | plain cut =>
    cases h' with
    | plain => rfl
    | alone cut' alone =>
      obtain ⟨rfl, rfl⟩ := cut.unique cut'
      exact absurd alone (not_alone_nil _)
    | mixed cut' hsome => exact absurd (cut.unique cut').1.symm hsome
  | alone cut alone =>
    cases h' with
    | plain cut' =>
      obtain ⟨rfl, rfl⟩ := cut.unique cut'
      exact absurd alone (not_alone_nil _)
    | alone cut' alone' =>
      obtain ⟨rfl, rfl⟩ := cut.unique cut'
      rw [alone.unique alone']
    | mixed cut' hsome mixed =>
      obtain ⟨rfl, rfl⟩ := cut.unique cut'
      exact absurd alone (mixed _)
  | mixed cut hsome mixed =>
    cases h' with
    | plain cut' => exact absurd (cut.unique cut').1 hsome
    | alone cut' alone =>
      obtain ⟨rfl, rfl⟩ := cut.unique cut'
      exact absurd alone (mixed _)
    | mixed cut' =>
      obtain ⟨rfl, rfl⟩ := cut.unique cut'
      rfl

theorem resolveText_ok (h : HasValues names value (tokensOfText s)) :
    ∃ k, resolveText names s = .ok k ∧ TextFilled value s k := by
  obtain ⟨tokens, last, cut⟩ := Cut.exists s.toList
  rw [tokensOfText_of_cut cut] at h
  by_cases halone : ∃ inside, Alone tokens last inside
  · obtain ⟨inside, halone⟩ := halone
    refine ⟨value (expressionOf inside), ?_, .alone cut halone⟩
    rw [resolveText_alone cut halone]
    obtain ⟨before, rfl, -⟩ := halone
    exact h _ List.mem_cons_self
  · rw [not_exists] at halone
    have hresolve : resolveText names s = .ok (.str (String.ofList (written value tokens last))) := by
      rw [resolveText_mixed cut halone, interpolate_ok h]
      rfl
    cases tokens with
    | nil =>
      refine ⟨_, hresolve, ?_⟩
      rw [show written value [] last = s.toList from cut.eq_last, String.ofList_toList]
      exact .plain cut
    | cons t tokens => exact ⟨_, hresolve, .mixed cut (List.cons_ne_nil _ _) halone⟩

theorem resolveText_error (h : firstFailure? names (tokensOfText s) = some f) :
    resolveText names s = .error f := by
  obtain ⟨tokens, last, cut⟩ := Cut.exists s.toList
  rw [tokensOfText_of_cut cut] at h
  by_cases halone : ∃ inside, Alone tokens last inside
  · obtain ⟨inside, halone⟩ := halone
    rw [resolveText_alone cut halone]
    obtain ⟨before, rfl, -⟩ := halone
    rw [List.map_cons] at h
    cases hv : evaluate names (expressionOf inside) with
    | error g =>
      rw [firstFailure?_cons_error _ hv] at h
      rw [Option.some.inj h]
    | ok j =>
      rw [firstFailure?_cons_ok _ hv] at h
      cases h
  · rw [not_exists] at halone
    rw [resolveText_mixed cut halone, interpolate_error h]
    rfl

/-! ## Documents -/

mutual

theorem resolve_ok (j : Json) (h : HasValues names value (Template.tokens j)) :
    ∃ k, resolve names j = .ok k ∧ ∀ k', Filled value j k' ↔ k' = k := by
  cases j with
  | str s =>
    obtain ⟨k, hk, hfilled⟩ := resolveText_ok (s := s) h
    refine ⟨k, hk, fun k' => ⟨fun h' => TextFilled.unique h' hfilled, ?_⟩⟩
    rintro rfl
    exact hfilled
  | arr elements =>
    obtain ⟨ks, hks, hfilled⟩ := resolveAll_ok elements h
    refine ⟨.arr ks, ?_, fun k' => ?_⟩
    · rw [resolve, hks]; rfl
    · simp only [Filled, hfilled, exists_eq_right]
  | obj members =>
    obtain ⟨ks, hks, hfilled⟩ := resolveMembers_ok members h
    refine ⟨.obj ks, ?_, fun k' => ?_⟩
    · rw [resolve, hks]; rfl
    · simp only [Filled, hfilled, exists_eq_right]
  | null => exact ⟨_, rfl, fun k' => Iff.rfl⟩
  | bool b => exact ⟨_, rfl, fun k' => Iff.rfl⟩
  | int i => exact ⟨_, rfl, fun k' => Iff.rfl⟩
  | float x => exact ⟨_, rfl, fun k' => Iff.rfl⟩

theorem resolveAll_ok (js : List Json) (h : HasValues names value (tokensOfAll js)) :
    ∃ ks, resolveAll names js = .ok ks ∧ ∀ ks', FilledAll value js ks' ↔ ks' = ks := by
  cases js with
  | nil => exact ⟨[], rfl, fun ks' => Iff.rfl⟩
  | cons j rest =>
    rw [tokensOfAll] at h
    obtain ⟨k, hk, hfilled⟩ := resolve_ok j h.left
    obtain ⟨ks, hks, hrest⟩ := resolveAll_ok rest h.right
    refine ⟨k :: ks, ?_, fun ks' => ?_⟩
    · rw [resolveAll, hk, hks]; rfl
    · simp only [FilledAll, hfilled, hrest]
      exact ⟨fun ⟨_, _, h, hk, hks⟩ => by rw [h, hk, hks], fun h => ⟨k, ks, h, rfl, rfl⟩⟩

theorem resolveMembers_ok (ms : List (String × Json)) (h : HasValues names value (tokensOfMembers ms)) :
    ∃ ks, resolveMembers names ms = .ok ks ∧ ∀ ks', FilledMembers value ms ks' ↔ ks' = ks := by
  cases ms with
  | nil => exact ⟨[], rfl, fun ks' => Iff.rfl⟩
  | cons m rest =>
    obtain ⟨name, j⟩ := m
    rw [tokensOfMembers] at h
    obtain ⟨k, hk, hfilled⟩ := resolve_ok j h.left
    obtain ⟨ks, hks, hrest⟩ := resolveMembers_ok rest h.right
    refine ⟨(name, k) :: ks, ?_, fun ks' => ?_⟩
    · rw [resolveMembers, hk, hks]; rfl
    · simp only [FilledMembers, hfilled, hrest]
      exact ⟨fun ⟨_, _, h, hk, hks⟩ => by rw [h, hk, hks], fun h => ⟨k, ks, h, rfl, rfl⟩⟩

end

mutual

theorem resolve_error (j : Json) (h : firstFailure? names (Template.tokens j) = some f) :
    resolve names j = .error f := by
  cases j with
  | str s => exact resolveText_error h
  | arr elements => rw [resolve, resolveAll_error elements h]; rfl
  | obj members => rw [resolve, resolveMembers_error members h]; rfl
  | null => cases h
  | bool b => cases h
  | int i => cases h
  | float x => cases h

theorem resolveAll_error (js : List Json) (h : firstFailure? names (tokensOfAll js) = some f) :
    resolveAll names js = .error f := by
  cases js with
  | nil => cases h
  | cons j rest =>
    rw [tokensOfAll, firstFailure?_append] at h
    cases hj : firstFailure? names (Template.tokens j) with
    | some g =>
      rw [hj] at h
      cases h
      rw [resolveAll, resolve_error j hj]
      rfl
    | none =>
      rw [hj] at h
      obtain ⟨value, hvalue⟩ := exists_hasValues hj
      obtain ⟨k, hk, -⟩ := resolve_ok j hvalue
      rw [resolveAll, hk, resolveAll_error rest h]
      rfl

theorem resolveMembers_error (ms : List (String × Json))
    (h : firstFailure? names (tokensOfMembers ms) = some f) :
    resolveMembers names ms = .error f := by
  cases ms with
  | nil => cases h
  | cons m rest =>
    obtain ⟨name, j⟩ := m
    rw [tokensOfMembers, firstFailure?_append] at h
    cases hj : firstFailure? names (Template.tokens j) with
    | some g =>
      rw [hj] at h
      cases h
      rw [resolveMembers, resolve_error j hj]
      rfl
    | none =>
      rw [hj] at h
      obtain ⟨value, hvalue⟩ := exists_hasValues hj
      obtain ⟨k, hk, -⟩ := resolve_ok j hvalue
      rw [resolveMembers, hk, resolveMembers_error rest h]
      rfl

end

/-- Two sets of names that give the expressions of a template the same values resolve it alike. -/
theorem resolve_congr (h : ∀ e ∈ Template.tokens j, evaluate names e = evaluate names' e) :
    resolve names j = resolve names' j := by
  have hfirst := firstFailure?_congr h
  cases hf : firstFailure? names (Template.tokens j) with
  | some f => rw [resolve_error j hf, resolve_error j (hfirst.symm.trans hf)]
  | none =>
    obtain ⟨value, hvalue⟩ := exists_hasValues hf
    have hvalue' : HasValues names' value (Template.tokens j) := fun e he => by
      rw [← h e he, hvalue e he]
    obtain ⟨k, hk, hfilled⟩ := resolve_ok j hvalue
    obtain ⟨k', hk', hfilled'⟩ := resolve_ok j hvalue'
    rw [hk, hk', (hfilled k').mp ((hfilled' k').mpr rfl)]

/-- Every text has one cut into literals and tokens, and its expressions are those in the tokens. A
template resolves to the same wherever its expressions have the same values: to the failure of the
first one that fails, or else to the one document in which exactly the tokens are filled with the
values. -/
theorem resolve_fills_tokens (template : Json) :
    (∀ cs, ∃! cut : List (List Char × List Char) × List Char, Cut cs cut.1 cut.2) ∧
    (∀ (s : String) tokens last, Cut s.toList tokens last →
      Template.tokens (.str s) = tokens.map fun t => expressionOf t.2) ∧
    (∀ names names', (∀ e ∈ Template.tokens template, evaluate names e = evaluate names' e) →
      resolve names template = resolve names' template) ∧
    (∀ names f, firstFailure? names (Template.tokens template) = some f →
      resolve names template = .error f) ∧
    (∀ names, firstFailure? names (Template.tokens template) = none →
      ∃ value, HasValues names value (Template.tokens template)) ∧
    ∀ names value, HasValues names value (Template.tokens template) →
      ∃ k, resolve names template = .ok k ∧ ∀ k', Filled value template k' ↔ k' = k := by
  refine ⟨fun cs => ?_, fun s tokens last cut => tokensOfText_of_cut cut,
    fun names names' h => resolve_congr h, fun names f h => resolve_error template h,
    fun names h => exists_hasValues h, fun names value h => resolve_ok template h⟩
  obtain ⟨tokens, last, cut⟩ := Cut.exists cs
  refine ⟨(tokens, last), cut, ?_⟩
  rintro ⟨tokens', last'⟩ cut'
  obtain ⟨rfl, rfl⟩ := cut.unique cut'
  rfl

/-! ## An example -/

/-- The scope behind a step whose output looks like a token. -/
def quoting : Scope :=
  .ofSteps [("note", .action ⟨.succeeded, .null, none, none⟩ (.str "\x7b\x7bgone\x7d\x7d"))]

/-- A token with blanks around it. -/
def aloneText : Json := .str " \x7b\x7b note \x7d\x7d\n"

/-- A token with text before it. -/
def mixedText : Json := .str "a \x7b\x7bnote\x7d\x7d"

/-- A token that cannot be read. -/
def brokenText : Json := .str "\x7b\x7bnote.\x7d\x7d"

/-- What looks like a token in a value stays as it is; what cannot be read is an error. -/
theorem quoting_resolved :
    resolve (quoting.names ⟨0, 0⟩) (.arr [aloneText, mixedText]) =
      .ok (.arr [.str "\x7b\x7bgone\x7d\x7d", .str "a \x7b\x7bgone\x7d\x7d"]) ∧
    (∃ k, resolve (quoting.names ⟨0, 0⟩) (.arr [aloneText, mixedText]) = .ok k ∧
      ∀ k', Filled (fun _ => .str "\x7b\x7bgone\x7d\x7d") (.arr [aloneText, mixedText]) k' ↔ k' = k) ∧
    ∃ f, resolve (quoting.names ⟨0, 0⟩) (.arr [aloneText, brokenText, mixedText]) = .error f := by
  have htokens : Template.tokens (.arr [aloneText, mixedText]) = ["note", "note"] := by decide +kernel
  have hnote : evaluate (quoting.names ⟨0, 0⟩) "note" = .ok (.str "\x7b\x7bgone\x7d\x7d") := by
    decide +kernel
  have hfirst : (firstFailure? (quoting.names ⟨0, 0⟩)
      (Template.tokens (.arr [aloneText, brokenText, mixedText]))).isSome = true := by
    decide +kernel
  obtain ⟨f, hf⟩ := Option.isSome_iff_exists.mp hfirst
  obtain ⟨-, -, -, -, -, hfills⟩ := resolve_fills_tokens (.arr [aloneText, mixedText])
  obtain ⟨-, -, -, hfails, -⟩ := resolve_fills_tokens (.arr [aloneText, brokenText, mixedText])
  refine ⟨by decide +kernel, hfills _ _ ?_, f, hfails _ f hf⟩
  intro e he
  simp only [htokens, List.mem_cons, List.not_mem_nil, or_false, or_self] at he
  rw [he, hnote]

end FlowEngine.Template
