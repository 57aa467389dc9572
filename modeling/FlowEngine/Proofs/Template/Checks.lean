import FlowEngine.Proofs.Template.Crashes
import FlowEngine.Proofs.Template.Resolution

/-!
# Checked templates

The check of a template reads all its expressions, and its resolution evaluates them one by one. What
has been read is never found to be malformed later, so both find the same syntax errors, except that the
check also refuses a token with nothing inside, which resolves to null.

* `Failure.Syntactic` — the failures that are syntax errors.
* `firstUnread?`, `check_eq` — the check as a search for the first expression that cannot be read.
* `valueOf_syntactic` — an expression has a syntax error only if it cannot be read.
* `check_agrees` — the check against the resolution of a template.
-/

namespace FlowEngine.Template

open FlowEngine.Expr

variable {names : Names} {e : String} {f : Failure} {j : Json} {es : List String}

/-! ## Syntax errors -/

/-- The failures that are syntax errors. -/
inductive Failure.Syntactic : Failure → Prop
  | malformed (expression : String) : Syntactic (.error (.malformed expression))

theorem ofLocated_syntactic {x : Located} (h : (Failure.ofLocated e x).Syntactic) :
    x.fault = .malformed := by
  unfold Failure.ofLocated at h
  split at h
  next hx => cases h
  next hx => exact hx
  all_goals cases h

theorem valueOf_unread (h : readTerm e = .error f) : valueOf names e = .error f := by
  rw [valueOf, h]
  rfl

/-- An expression has a syntax error only if it cannot be read. -/
theorem valueOf_syntactic (hf : f.Syntactic) (h : valueOf names e = .error f) :
    readTerm e = .error f := by
  cases hread : readTerm e with
  | error g =>
    rw [valueOf_unread hread] at h
    rw [Except.error.inj h]
  | ok term =>
    rw [valueOf, hread] at h
    change (term.eval names).mapError (Failure.ofLocated e) = .error f at h
    cases heval : term.eval names with
    | ok v => rw [heval] at h; cases h
    | error x =>
      rw [heval] at h
      obtain rfl := Except.error.inj h
      -- evaluation does not find a term malformed that has been read
      have hfails : Fails .malformed (term.eval names) :=
        ⟨x.line, by rw [heval, ← ofLocated_syntactic hf]⟩
      cases (Term.eval_crashes names term hfails).1

/-! ## Listed expressions -/

theorem mem_tokensOfAll {js : List Json} : e ∈ tokensOfAll js ↔ ∃ j ∈ js, e ∈ tokens j := by
  induction js with
  | nil => simp [tokensOfAll]
  | cons j js ih => simp [tokensOfAll, ih]

theorem mem_tokensOfMembers {ms : List (String × Json)} :
    e ∈ tokensOfMembers ms ↔ ∃ m ∈ ms, e ∈ tokens m.2 := by
  induction ms with
  | nil => simp [tokensOfMembers]
  | cons m ms ih => simp [tokensOfMembers, ih]

/-- No blanks are around an expression. -/
def Trimmed (e : String) : Prop := Text.trimText e = e

theorem trimmed_expressionOf (inside : List Char) : Trimmed (expressionOf inside) := by
  rw [Trimmed, Text.trimText, expressionOf, String.toList_ofList, trim_trim]

theorem trimmed_of_mem_tokensOfText {s : String} (h : e ∈ tokensOfText s) : Trimmed e := by
  obtain ⟨piece, -, hpiece⟩ := List.mem_filterMap.mp h
  cases piece with
  | text cs => cases hpiece
  | token inside =>
    cases hpiece
    exact trimmed_expressionOf inside

mutual

/-- The expressions of a template are listed without blanks around them. -/
theorem trimmed_of_mem_tokens : ∀ j : Json, e ∈ tokens j → Trimmed e
  | .str _, h => trimmed_of_mem_tokensOfText h
  | .arr elements, h => trimmed_of_mem_tokensOfAll elements h
  | .obj members, h => trimmed_of_mem_tokensOfMembers members h
  | .null, h | .bool _, h | .int _, h | .float _, h => by cases h

theorem trimmed_of_mem_tokensOfAll : ∀ js : List Json, e ∈ tokensOfAll js → Trimmed e
  | [], h => by cases h
  | j :: rest, h => (List.mem_append.mp h).elim (trimmed_of_mem_tokens j)
      (trimmed_of_mem_tokensOfAll rest)

theorem trimmed_of_mem_tokensOfMembers : ∀ ms : List (String × Json),
    e ∈ tokensOfMembers ms → Trimmed e
  | [], h => by cases h
  | (_, j) :: rest, h => (List.mem_append.mp h).elim (trimmed_of_mem_tokens j)
      (trimmed_of_mem_tokensOfMembers rest)

end

theorem evaluate_trimmed (htrim : Trimmed e) (hne : e ≠ "") :
    evaluate names e = (valueOf names e).map Value.toJson := by
  have htext : Text.trimText e = e := htrim
  rw [evaluate, htext, if_neg hne]

/-- The empty expression has a value, and every other one that has can be read. -/
theorem readTerm_of_evaluate (htrim : Trimmed e) (hne : e ≠ "") (h : evaluate names e = .ok j) :
    ∃ term, readTerm e = .ok term := by
  rw [evaluate_trimmed htrim hne] at h
  cases hread : readTerm e with
  | ok term => exact ⟨term, rfl⟩
  | error f => rw [valueOf_unread hread] at h; cases h

theorem readTerm_of_syntactic (htrim : Trimmed e) (hf : f.Syntactic)
    (h : evaluate names e = .error f) : readTerm e = .error f := by
  by_cases hempty : e = ""
  · subst hempty
    cases h
  · rw [evaluate_trimmed htrim hempty] at h
    cases hv : valueOf names e with
    | ok v => rw [hv] at h; cases h
    | error g =>
      rw [hv] at h
      cases h
      exact valueOf_syntactic hf hv

/-! ## The check -/

/-- Why an expression cannot be read. -/
def unread? (e : String) : Option Failure :=
  match readTerm e with
  | .ok _ => none
  | .error f => some f

/-- Why the first of several expressions that cannot be read cannot. -/
def firstUnread? (es : List String) : Option Failure := es.findSome? unread?

/-- A check passes unless there is a failure. -/
def verdict : Option Failure → Except Failure Unit
  | none => .ok ()
  | some f => .error f

theorem forM_readTerm (es : List String) :
    (es.forM fun e => (readTerm e).map fun _ => ()) = verdict (firstUnread? es) := by
  induction es with
  | nil => rfl
  | cons e es ih =>
    have hcons : ((e :: es).forM fun e => (readTerm e).map fun _ => ()) =
        ((readTerm e).map fun _ => ()) >>= fun _ => verdict (firstUnread? es) := by
      rw [← ih]
      rfl
    rw [hcons, firstUnread?, firstUnread?, List.findSome?_cons, unread?]
    cases readTerm e <;> rfl

theorem check_eq (template : Json) : check template = verdict (firstUnread? (tokens template)) :=
  forM_readTerm (tokens template)

theorem check_ok_iff {template : Json} :
    check template = .ok () ↔ ∀ e ∈ tokens template, unread? e = none := by
  rw [check_eq, ← List.findSome?_eq_none_iff, firstUnread?]
  cases (tokens template).findSome? unread? <;> simp [verdict]

/-- Expressions that are not empty and that all have values can be read. -/
theorem firstUnread?_of_none (htrim : ∀ e ∈ es, Trimmed e) (hne : "" ∉ es)
    (h : firstFailure? names es = none) : firstUnread? es = none := by
  obtain ⟨value, hvalue⟩ := exists_hasValues h
  refine List.findSome?_eq_none_iff.mpr fun e he => ?_
  obtain ⟨term, hterm⟩ :=
    readTerm_of_evaluate (htrim e he) (fun hempty => hne (hempty ▸ he)) (hvalue e he)
  rw [unread?, hterm]

/-- If the first expression without a value has a syntax error, it is the first one that cannot be
read. -/
theorem firstUnread?_of_some (htrim : ∀ e ∈ es, Trimmed e) (hne : "" ∉ es) (hf : f.Syntactic)
    (h : firstFailure? names es = some f) : firstUnread? es = some f := by
  induction es with
  | nil => cases h
  | cons e es ih =>
    have he := htrim e List.mem_cons_self
    have hnonempty : e ≠ "" := fun hempty => hne (hempty ▸ List.mem_cons_self)
    rw [firstUnread?, List.findSome?_cons, unread?]
    cases hv : evaluate names e with
    | error g =>
      rw [firstFailure?_cons_error _ hv] at h
      obtain rfl := Option.some.inj h
      rw [readTerm_of_syntactic he hf hv]
    | ok v =>
      rw [firstFailure?_cons_ok _ hv] at h
      obtain ⟨term, hterm⟩ := readTerm_of_evaluate he hnonempty hv
      rw [hterm]
      exact ih (fun e' he' => htrim e' (List.mem_cons_of_mem _ he'))
        (fun hmem => hne (List.mem_cons_of_mem _ hmem)) h

/-! ## The check against the resolution -/

theorem exists_of_firstFailure? (h : firstFailure? names es = some f) :
    ∃ e ∈ es, evaluate names e = .error f := by
  obtain ⟨e, he, hfails⟩ := List.exists_of_findSome?_eq_some h
  refine ⟨e, he, ?_⟩
  rw [failure?] at hfails
  cases hv : evaluate names e with
  | ok v => rw [hv] at hfails; cases hfails
  | error g => rw [hv] at hfails; cases hfails; rfl

/-- Resolution fails as the first expression that has no value. -/
theorem resolve_eq_error_iff {template : Json} :
    resolve names template = .error f ↔ firstFailure? names (tokens template) = some f := by
  cases hfirst : firstFailure? names (tokens template) with
  | some g => rw [resolve_error template hfirst, Except.error.injEq, Option.some.injEq]
  | none =>
    obtain ⟨value, hvalue⟩ := exists_hasValues hfirst
    obtain ⟨k, hk, -⟩ := resolve_ok template hvalue
    simp [hk]

/-- A template that passes the check never fails with a syntax error. -/
theorem not_syntactic_of_check {template : Json} (h : check template = .ok ())
    (hf : resolve names template = .error f) : ¬ f.Syntactic := by
  intro hsyntactic
  obtain ⟨e, he, hv⟩ := exists_of_firstFailure? (resolve_eq_error_iff.mp hf)
  have hread := readTerm_of_syntactic (trimmed_of_mem_tokens template he) hsyntactic hv
  have := check_ok_iff.mp h e he
  rw [unread?, hread] at this
  cases this

/-- Without empty tokens the check comes to what the resolution comes to, where that fails for no other
reason than a syntax error. -/
theorem check_eq_resolve {template : Json} (hne : "" ∉ tokens template)
    (h : ∀ f, resolve names template = .error f → f.Syntactic) :
    check template = (resolve names template).map fun _ => () := by
  have htrim : ∀ e ∈ tokens template, Trimmed e := fun e => trimmed_of_mem_tokens template
  rw [check_eq]
  cases hfirst : firstFailure? names (tokens template) with
  | some f =>
    have hf := resolve_error template hfirst
    rw [hf, firstUnread?_of_some htrim hne (h f hf) hfirst]
    rfl
  | none =>
    obtain ⟨value, hvalue⟩ := exists_hasValues hfirst
    obtain ⟨k, hk, -⟩ := resolve_ok template hvalue
    rw [hk, firstUnread?_of_none htrim hne hfirst]
    rfl

theorem not_mem_tokens_of_check {template : Json} (h : check template = .ok ()) :
    "" ∉ tokens template := by
  intro hmem
  have hempty : unread? "" ≠ none := by decide
  exact hempty (check_ok_iff.mp h "" hmem)

/-- A template that passes the check never fails with a syntax error, wherever it is resolved. Where it
fails with no other error, it passes the check just if no token is empty and it does not fail with a
syntax error; and without empty tokens the error is the same. -/
theorem check_agrees (template : Json) (names : Names) :
    (check template = .ok () → ∀ f, resolve names template = .error f → ¬ f.Syntactic) ∧
    ((∀ f, resolve names template = .error f → f.Syntactic) →
      (check template = .ok () ↔
        "" ∉ tokens template ∧ ∀ f, resolve names template = .error f → ¬ f.Syntactic) ∧
      ("" ∉ tokens template → check template = (resolve names template).map fun _ => ())) := by
  refine ⟨fun h f => not_syntactic_of_check h, fun h => ⟨⟨fun hcheck => ?_, ?_⟩, ?_⟩⟩
  · exact ⟨not_mem_tokens_of_check hcheck, fun f => not_syntactic_of_check hcheck⟩
  · rintro ⟨hne, hnone⟩
    rw [check_eq_resolve hne h]
    cases hr : resolve names template with
    | ok k => rfl
    | error f => exact absurd (h f hr) (hnone f hr)
  · exact fun hne => check_eq_resolve hne h

/-- Here a template resolves and passes, and another one fails and is refused with the same syntax
error. -/
theorem quoting_checked : check (.arr [aloneText, mixedText]) = .ok () ∧
    check (.arr [aloneText, brokenText]) = .error (.error (.malformed "note.")) := by
  have hresolves : resolve (quoting.names ⟨0, 0⟩) (.arr [aloneText, mixedText]) =
      .ok (.arr [.str "\x7b\x7bgone\x7d\x7d", .str "a \x7b\x7bgone\x7d\x7d"]) := by decide +kernel
  have hfails : resolve (quoting.names ⟨0, 0⟩) (.arr [aloneText, brokenText]) =
      .error (.error (.malformed "note.")) := rfl
  obtain ⟨-, hpasses⟩ := check_agrees (.arr [aloneText, mixedText]) (quoting.names ⟨0, 0⟩)
  obtain ⟨-, hrefused⟩ := check_agrees (.arr [aloneText, brokenText]) (quoting.names ⟨0, 0⟩)
  constructor
  · refine (hpasses fun f hf => ?_).1.mpr ⟨by decide, fun f hf => ?_⟩
    · rw [hresolves] at hf; cases hf
    · rw [hresolves] at hf; cases hf
  · rw [(hrefused fun f hf => ?_).2 (by decide), hfails]
    · rfl
    · rw [hfails] at hf
      cases hf
      exact .malformed _

/-- A token with nothing inside. -/
def emptyToken : Json := .str "\x7b\x7b \x7d\x7d"

theorem resolve_emptyToken (names : Names) : resolve names emptyToken = .ok .null := by
  have hinside : onlyToken? (Text.trim ['\x7b', '\x7b', ' ', '\x7d', '\x7d']) = some [' '] := rfl
  have hempty : Text.trimText (String.ofList [' ']) = "" := rfl
  have htext : resolveText names "\x7b\x7b \x7d\x7d" = evaluate names (String.ofList [' ']) := by
    rw [resolveText, show "\x7b\x7b \x7d\x7d".toList = ['\x7b', '\x7b', ' ', '\x7d', '\x7d'] from rfl,
      hinside]
  rw [emptyToken, resolve, htext, evaluate, hempty, if_pos rfl]

/-- It resolves to null wherever it stands, and is refused all the same. -/
theorem emptyToken_refused : (∀ names, resolve names emptyToken = .ok .null) ∧
    check emptyToken = .error (.error (.malformed "")) ∧
    ¬ (check emptyToken = .ok () ↔
      ∀ names f, resolve names emptyToken = .error f → ¬ f.Syntactic) := by
  have hrefused : check emptyToken = .error (.error (.malformed "")) := rfl
  refine ⟨resolve_emptyToken, hrefused, fun h => ?_⟩
  have hpasses := h.mpr fun names f hf => by rw [resolve_emptyToken] at hf; cases hf
  rw [hrefused] at hpasses
  cases hpasses

end FlowEngine.Template
