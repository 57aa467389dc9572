import FlowEngine.Proofs.Template.Truth
import Mathlib.Data.List.Infix

/-!
# Tokens of texts

A text is cut at its tokens from left to right: at the token that begins first, and of those that begin
there at the one that ends first; then what follows is cut. There is one way to do this.

* `CutAt`, `FirstToken` — a token of a text, and the first one.
* `Cut` — a text cut at all of its tokens; `Cut.unique`, `Cut.exists`.
* `pieces_of_cut` — the pieces of a text are those of its cut.
* `onlyToken?_trim_iff` — a text is a single token, apart from blanks around it, if its cut says so.
-/

namespace FlowEngine

namespace Text

variable {separator before after cs : List Char}

/-- A text is cut at the first occurrence of a separator. -/
theorem cut?_some (h : cut? separator cs = some (before, after)) :
    cs = before ++ (separator ++ after) ∧
      ∀ b a, cs = b ++ (separator ++ a) → before.length ≤ b.length := by
  induction cs generalizing before with
  | nil =>
    rw [cut?] at h
    split_ifs at h with hempty
    obtain ⟨rfl, rfl⟩ := Prod.mk.inj (Option.some.inj h)
    rw [List.isEmpty_iff.mp hempty]
    exact ⟨rfl, fun b a _ => Nat.zero_le _⟩
  | cons c cs ih =>
    rw [cut?] at h
    split_ifs at h with hfront
    · obtain ⟨rfl, rfl⟩ := Prod.mk.inj (Option.some.inj h)
      obtain ⟨rest, hrest⟩ := List.isPrefixOf_iff_prefix.mp hfront
      constructor
      · rw [← hrest]
        simp
      · intro b a _
        exact Nat.zero_le _
    · obtain ⟨⟨b, a⟩, hcut, heq⟩ := Option.map_eq_some_iff.mp h
      obtain ⟨rfl, rfl⟩ := Prod.mk.inj heq
      obtain ⟨hcs, hfirst⟩ := ih hcut
      constructor
      · rw [hcs]
        rfl
      · intro b' a' h'
        cases b' with
        | nil =>
          have hprefix : separator <+: c :: cs := ⟨a', h'.symm⟩
          exact absurd (List.isPrefixOf_iff_prefix.mpr hprefix) hfront
        | cons d b' =>
          have := hfirst b' a' (List.cons.inj h').2
          simpa using this

/-- A separator that is not found does not occur. -/
theorem cut?_none (h : cut? separator cs = none) (b a : List Char) :
    cs ≠ b ++ (separator ++ a) := by
  induction cs generalizing b with
  | nil =>
    intro heq
    rw [cut?] at h
    split_ifs at h with hempty
    have hnil : separator = [] :=
      (List.append_eq_nil_iff.mp (List.append_eq_nil_iff.mp heq.symm).2).1
    exact hempty (List.isEmpty_iff.mpr hnil)
  | cons c cs ih =>
    intro heq
    rw [cut?] at h
    split_ifs at h with hfront
    cases b with
    | nil => exact hfront (List.isPrefixOf_iff_prefix.mpr ⟨a, heq.symm⟩)
    | cons d b => exact ih (Option.map_eq_none_iff.mp h) b (List.cons.inj heq).2

/-- A text is what is left after trimming, with blanks around it. -/
theorem exists_blanks (cs : List Char) : ∃ w w', cs = w ++ (trim cs ++ w') ∧
    (∀ c ∈ w, isBlank c = true) ∧ ∀ c ∈ w', isBlank c = true := by
  have hstart : cs = cs.takeWhile isBlank ++ trimStart cs := (List.takeWhile_append_dropWhile).symm
  have hend (l : List Char) : l = trimEnd l ++ (l.reverse.takeWhile isBlank).reverse := by
    rw [trimEnd, ← List.reverse_append, List.takeWhile_append_dropWhile, List.reverse_reverse]
  refine ⟨cs.takeWhile isBlank, ((trimStart cs).reverse.takeWhile isBlank).reverse, ?_, ?_, ?_⟩
  · conv_lhs => rw [hstart, hend (trimStart cs)]
    rfl
  · intro c hc
    exact List.mem_takeWhile_imp hc
  · intro c hc
    exact List.mem_takeWhile_imp (List.mem_reverse.mp hc)

/-- Trimming removes the blanks around a text that does not begin or end with one. -/
theorem trim_of_blanks {w w' mid : List Char} {c d : Char} (hw : ∀ c ∈ w, isBlank c = true)
    (hw' : ∀ c ∈ w', isBlank c = true) (hc : isBlank c = false) (hd : isBlank d = false) :
    trim (w ++ (c :: (mid ++ [d]) ++ w')) = c :: (mid ++ [d]) := by
  have hstart : trimStart (w ++ (c :: (mid ++ [d]) ++ w')) = c :: (mid ++ [d]) ++ w' := by
    rw [trimStart, List.dropWhile_append_of_pos hw]
    exact List.dropWhile_cons_of_neg (by simp [hc])
  have hreverse : (c :: (mid ++ [d]) ++ w').reverse = w'.reverse ++ d :: (mid.reverse ++ [c]) := by
    simp
  rw [trim, hstart, trimEnd, hreverse,
    List.dropWhile_append_of_pos fun x hx => hw' x (List.mem_reverse.mp hx),
    List.dropWhile_cons_of_neg (by simp [hd])]
  simp

end Text

namespace Template

open FlowEngine.Expr

/-! ## The first token -/

/-- A text has a token: what stands before it, what is between the braces, and what follows. -/
def CutAt (cs before inside after : List Char) : Prop :=
  cs = before ++ (opening ++ (inside ++ (closing ++ after)))

/-- The token that begins first, and of those that begin there the one that ends first. -/
structure FirstToken (cs before inside after : List Char) : Prop where
  cut : CutAt cs before inside after
  leftmost : ∀ b i a, CutAt cs b i a → before.length ≤ b.length
  shortest : ∀ i a, CutAt cs before i a → inside.length ≤ i.length

variable {cs before inside after b i a last : List Char} {tokens tokens' : List (List Char × List Char)}

/-- What follows an earlier opening ends with what follows a later one. -/
theorem suffix_of_openings {r r₀ b₀ : List Char} (h : cs = b ++ (opening ++ r))
    (h₀ : cs = b₀ ++ (opening ++ r₀)) (hle : b₀.length ≤ b.length) : r <:+ r₀ := by
  have hr : r <:+ cs := ⟨b ++ opening, by rw [h, List.append_assoc]⟩
  have hr₀ : r₀ <:+ cs := ⟨b₀ ++ opening, by rw [h₀, List.append_assoc]⟩
  refine List.suffix_of_suffix_length_le hr hr₀ ?_
  have hlen := congrArg List.length (h.symm.trans h₀)
  simp only [List.length_append] at hlen
  omega

theorem cutToken?_some (h : cutToken? cs = some (before, inside, after)) :
    FirstToken cs before inside after := by
  obtain ⟨⟨b, rest⟩, hopen, h⟩ := Option.bind_eq_some_iff.mp h
  obtain ⟨⟨i, a⟩, hclose, h⟩ := Option.bind_eq_some_iff.mp h
  cases h
  obtain ⟨hcs, hfirst⟩ := Text.cut?_some hopen
  obtain ⟨hrest, hshort⟩ := Text.cut?_some hclose
  refine ⟨?_, ?_, ?_⟩
  · rw [CutAt, hcs, hrest]
  · intro b i a hcut
    exact hfirst b _ hcut
  · intro i a hcut
    refine hshort i a ?_
    have hsame : opening ++ rest = opening ++ (i ++ (closing ++ a)) :=
      List.append_cancel_left (hcs.symm.trans hcut)
    exact List.append_cancel_left hsame

theorem cutToken?_none (h : cutToken? cs = none) : ¬ CutAt cs before inside after := by
  intro hcut
  cases hopen : Text.cut? opening cs with
  | none => exact Text.cut?_none hopen _ _ hcut
  | some p =>
    obtain ⟨b₀, r₀⟩ := p
    obtain ⟨hcs, hfirst⟩ := Text.cut?_some hopen
    obtain ⟨w, hw⟩ := suffix_of_openings hcut hcs (hfirst _ _ hcut)
    have hclose : Text.cut? closing r₀ = none := by
      cases hclose : Text.cut? closing r₀ with
      | none => rfl
      | some q =>
        simp [cutToken?, hopen, hclose] at h
    refine Text.cut?_none hclose (w ++ inside) after ?_
    rw [← hw, List.append_assoc]

/-- There is one first token. -/
theorem FirstToken.unique (h : FirstToken cs before inside after) (h' : FirstToken cs b i a) :
    before = b ∧ inside = i ∧ after = a := by
  have hb : before = b := by
    have hlen : before.length = b.length :=
      Nat.le_antisymm (h.leftmost _ _ _ h'.cut) (h'.leftmost _ _ _ h.cut)
    exact (List.append_inj (h.cut.symm.trans h'.cut) hlen).1
  subst hb
  have htail : inside ++ (closing ++ after) = i ++ (closing ++ a) :=
    List.append_cancel_left (List.append_cancel_left (h.cut.symm.trans h'.cut))
  have hlen : inside.length = i.length :=
    Nat.le_antisymm (h.shortest _ _ h'.cut) (h'.shortest _ _ h.cut)
  obtain ⟨hi, ha⟩ := List.append_inj htail hlen
  exact ⟨rfl, hi, List.append_cancel_left ha⟩

/-! ## All tokens -/

/-- A text cut at its tokens: each with what stands before it, and what follows the last one. -/
inductive Cut : List Char → List (List Char × List Char) → List Char → Prop
  | last {cs : List Char} (bare : ∀ before inside after, ¬ CutAt cs before inside after) : Cut cs [] cs
  | token {cs before inside after : List Char} {tokens : List (List Char × List Char)}
    {last : List Char} (first : FirstToken cs before inside after)
    (next : Cut after tokens last) : Cut cs ((before, inside) :: tokens) last

theorem Cut.unique {last' : List Char} (h : Cut cs tokens last) (h' : Cut cs tokens' last') :
    tokens = tokens' ∧ last = last' := by
  induction h generalizing tokens' with
  | last bare =>
    cases h' with
    | last => exact ⟨rfl, rfl⟩
    | token first => exact absurd first.cut (bare _ _ _)
  | token first next ih =>
    cases h' with
    | last bare => exact absurd first.cut (bare _ _ _)
    | token first' next' =>
      obtain ⟨rfl, rfl, rfl⟩ := first.unique first'
      obtain ⟨rfl, rfl⟩ := ih next'
      exact ⟨rfl, rfl⟩

theorem FirstToken.length_lt (h : FirstToken cs before inside after) : after.length < cs.length := by
  rw [h.cut]
  simp only [List.length_append, opening, closing, List.length_cons, List.length_nil]
  omega

/-- The pieces of a text that is cut. -/
def piecesOf (tokens : List (List Char × List Char)) (last : List Char) : List Piece :=
  (tokens.flatMap fun t => plainPiece t.1 ++ [.token t.2]) ++ plainPiece last

theorem piecesOf_cons (t : List Char × List Char) :
    piecesOf (t :: tokens) last = plainPiece t.1 ++ .token t.2 :: piecesOf tokens last := by
  simp [piecesOf]

theorem piecesWithin_of_cut (h : Cut cs tokens last) {fuel : Nat} (hfuel : cs.length ≤ fuel) :
    piecesWithin fuel cs = piecesOf tokens last := by
  induction h generalizing fuel with
  | @last cs bare =>
    have hcut : cutToken? cs = none := by
      cases hcut : cutToken? cs with
      | none => rfl
      | some p => exact absurd (cutToken?_some hcut).cut (bare _ _ _)
    cases fuel with
    | zero => rfl
    | succ fuel => rw [piecesWithin, hcut]; rfl
  | @token cs before inside after tokens last first next ih =>
    have hlt := first.length_lt
    cases fuel with
    | zero => omega
    | succ fuel =>
      cases hcut : cutToken? cs with
      | none => exact absurd first.cut (cutToken?_none hcut)
      | some p =>
        obtain ⟨b, i, a⟩ := p
        obtain ⟨rfl, rfl, rfl⟩ := first.unique (cutToken?_some hcut)
        rw [piecesWithin, hcut, piecesOf_cons]
        simp only
        rw [ih (by omega)]

theorem pieces_of_cut (h : Cut cs tokens last) : pieces cs = piecesOf tokens last :=
  piecesWithin_of_cut h le_rfl

/-- Every text can be cut at its tokens. -/
theorem Cut.exists (cs : List Char) : ∃ tokens last, Cut cs tokens last := by
  induction hn : cs.length using Nat.strong_induction_on generalizing cs with
  | _ n ih =>
    cases hcut : cutToken? cs with
    | none => exact ⟨[], cs, .last fun _ _ _ => cutToken?_none hcut⟩
    | some p =>
      obtain ⟨before, inside, after⟩ := p
      have first := cutToken?_some hcut
      obtain ⟨tokens, last, next⟩ := ih after.length (hn ▸ first.length_lt) after rfl
      exact ⟨(before, inside) :: tokens, last, .token first next⟩

/-- The expression of a piece, if it is a token. -/
theorem filterMap_plainPiece {f : Piece → Option String} (hf : ∀ cs, f (.text cs) = none)
    (cs : List Char) : (plainPiece cs).filterMap f = [] := by
  unfold plainPiece
  split_ifs
  · rfl
  · rw [List.filterMap_cons, hf, List.filterMap_nil]

/-- The expressions in a text are those inside its tokens, in order. -/
theorem tokensOfText_of_cut {s : String} (h : Cut s.toList tokens last) :
    tokensOfText s = tokens.map fun t => expressionOf t.2 := by
  rw [tokensOfText, pieces_of_cut h, piecesOf, List.filterMap_append,
    filterMap_plainPiece fun _ => rfl, List.append_nil]
  clear h
  induction tokens with
  | nil => rfl
  | cons t tokens ih =>
    rw [List.flatMap_cons, List.filterMap_append, List.filterMap_append,
      filterMap_plainPiece fun _ => rfl, ih]
    rfl

/-! ## Single tokens -/

theorem plainPiece_eq_nil (h : plainPiece cs = []) : cs = [] := by
  unfold plainPiece at h
  split_ifs at h with hempty
  exact List.isEmpty_iff.mp hempty

theorem piecesOf_eq_token_iff : piecesOf tokens last = [.token inside] ↔
    tokens = [([], inside)] ∧ last = [] := by
  constructor
  · intro h
    cases tokens with
    | nil =>
      simp only [piecesOf, plainPiece, List.flatMap_nil, List.nil_append] at h
      split_ifs at h
      cases h
    | cons t tokens =>
      obtain ⟨b, i⟩ := t
      rw [piecesOf_cons] at h
      have hb : plainPiece b = [] := by
        unfold plainPiece at h ⊢
        split_ifs at h with hb
        · rw [if_pos hb]
        · cases h
      rw [hb, List.nil_append] at h
      obtain ⟨hi, htail⟩ := List.cons.inj h
      cases hi
      obtain rfl := plainPiece_eq_nil hb
      cases tokens with
      | nil => exact ⟨rfl, plainPiece_eq_nil htail⟩
      | cons t tokens =>
        rw [piecesOf_cons] at htail
        simp at htail
  · rintro ⟨rfl, rfl⟩
    rfl

theorem onlyToken?_of_cut (h : Cut cs tokens last) :
    onlyToken? cs = some inside ↔ tokens = [([], inside)] ∧ last = [] := by
  rw [← piecesOf_eq_token_iff, ← pieces_of_cut h, onlyToken?]
  constructor
  · intro h'
    split at h'
    · rename_i hpieces
      rw [hpieces, Option.some.inj h']
    · cases h'
  · intro h'
    rw [h']

/-- Blanks have no token in them. -/
theorem not_cutAt_of_blank (h : ∀ c ∈ cs, Text.isBlank c = true) : ¬ CutAt cs before inside after := by
  rintro rfl
  have hbrace := h '\x7b' (by simp [opening])
  exact absurd hbrace (by decide)

/-- A token with blanks around it is the first one if it is so without them. -/
theorem firstToken_blanks {w w' : List Char} (hw : ∀ c ∈ w, Text.isBlank c = true) :
    FirstToken (opening ++ (inside ++ closing)) [] inside [] ↔
      FirstToken (w ++ (opening ++ (inside ++ closing) ++ w')) w inside w' := by
  have hcut : CutAt (w ++ (opening ++ (inside ++ closing) ++ w')) w inside w' := by simp [CutAt]
  constructor
  · intro h
    refine ⟨hcut, ?_, ?_⟩
    · intro b i a h'
      by_contra hlt
      rw [Nat.not_le] at hlt
      -- the brace that opens the other token would be a blank
      have hbrace : '\x7b' ∈ w := by
        have hget : (w ++ (opening ++ (inside ++ closing) ++ w'))[b.length]? = some '\x7b' := by
          rw [show w ++ (opening ++ (inside ++ closing) ++ w') = _ from h']
          simp [opening]
        rw [List.getElem?_append_left hlt] at hget
        exact List.mem_of_getElem? hget
      exact absurd (hw _ hbrace) (by decide)
    · intro i a h'
      by_contra hlt
      rw [Nat.not_le] at hlt
      have htail : inside ++ (closing ++ w') = i ++ (closing ++ a) :=
        List.append_cancel_left (List.append_cancel_left (hcut.symm.trans h'))
      have hsuffix : w' <:+ a := by
        have hw'tail : w' <:+ inside ++ (closing ++ w') := ⟨inside ++ closing, by simp⟩
        have hatail : a <:+ inside ++ (closing ++ w') := ⟨i ++ closing, by rw [htail]; simp⟩
        refine List.suffix_of_suffix_length_le hw'tail hatail ?_
        · have hlen := congrArg List.length htail
          simp only [List.length_append] at hlen
          omega
      obtain ⟨x, rfl⟩ := hsuffix
      have hshort : inside ++ closing = i ++ (closing ++ x) := by
        have hright : (inside ++ closing) ++ w' = (i ++ (closing ++ x)) ++ w' := by simpa using htail
        exact List.append_cancel_right hright
      have := h.shortest i x (by rw [CutAt, hshort]; rfl)
      omega
  · intro h
    refine ⟨by simp [CutAt], fun b i a _ => Nat.zero_le _, ?_⟩
    intro i a h'
    refine h.shortest i (a ++ w') ?_
    rw [CutAt, show opening ++ (inside ++ closing) = _ from h']
    simp

/-- A text that is trimmed is a single token if its cut has one token, and blanks around it. -/
theorem onlyToken?_trim_iff (h : Cut cs tokens last) : onlyToken? (Text.trim cs) = some inside ↔
    ∃ before, tokens = [(before, inside)] ∧ (∀ c ∈ before, Text.isBlank c = true) ∧
      ∀ c ∈ last, Text.isBlank c = true := by
  constructor
  · intro honly
    obtain ⟨tokens', last', h'⟩ := Cut.exists (Text.trim cs)
    obtain ⟨rfl, rfl⟩ := (onlyToken?_of_cut h').mp honly
    obtain ⟨w, w', hcs, hw, hw'⟩ := Text.exists_blanks cs
    cases h' with
    | token first next =>
      cases next with
      | last bare =>
        have htrim : Text.trim cs = opening ++ (inside ++ closing) := by simpa [CutAt] using first.cut
        rw [htrim] at first hcs
        have hcut : Cut cs [(w, inside)] w' := by
          rw [hcs]
          exact .token ((firstToken_blanks hw).mp first) (.last fun _ _ _ => not_cutAt_of_blank hw')
        obtain ⟨rfl, rfl⟩ := h.unique hcut
        exact ⟨w, rfl, hw, hw'⟩
  · rintro ⟨before, rfl, hbefore, hlast⟩
    cases h with
    | token first next =>
      cases next with
      | last bare =>
        have hcs : cs = before ++ (opening ++ (inside ++ closing) ++ last) := by
          rw [first.cut]
          simp
        have htrim : Text.trim cs = opening ++ (inside ++ closing) := by
          have hbraces : opening ++ (inside ++ closing) =
              '\x7b' :: (('\x7b' :: (inside ++ ['\x7d'])) ++ ['\x7d']) := by simp [opening, closing]
          rw [hcs, hbraces]
          exact Text.trim_of_blanks hbefore hlast (by decide) (by decide)
        rw [hcs] at first
        have hcut : Cut (Text.trim cs) [([], inside)] [] := by
          rw [htrim]
          exact .token ((firstToken_blanks hbefore).mpr first) (.last fun _ _ _ => by simp [CutAt, opening])
        exact (onlyToken?_of_cut hcut).mpr ⟨rfl, rfl⟩

end Template

end FlowEngine
