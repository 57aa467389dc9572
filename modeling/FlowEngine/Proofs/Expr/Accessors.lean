import FlowEngine.Proofs.Documents.Numerals
import FlowEngine.Proofs.Expr.Names

/-!
# Written paths

An expression can begin with a name and go on with fields, keys and indices.

* `Accessor` — one part of a path, and how it is written.
* `Spells` — some characters are a token, whatever follows them.
* `lex_path` — a written path is cut into the tokens of its parts.
-/

namespace FlowEngine.Expr

open FlowEngine.Flow (isStepName)

/-! ## Accessors -/

/-- A part of a path: a name after a point, or a key or an index in brackets. -/
inductive Accessor where
  | dot (name : String)
  | key (name : String)
  | index (n : Nat)
  deriving DecidableEq, Inhabited

/-- A character of a key in quotation marks. A closing brace is escaped, since two of them end a token
of a template. -/
def escapeKey (c : Char) : List Char :=
  if c = '"' then ['\\', '"']
  else if c = '\\' then ['\\', '\\']
  else if c = '\n' then ['\\', 'n']
  else if c = '\x7d' then ['\\', 'u', '0', '0', '7', 'd']
  else [c]

namespace Accessor

/-- An accessor as it is written. -/
def chars : Accessor → List Char
  | dot name => '.' :: name.toList
  | key name => '[' :: ('"' :: (name.toList.flatMap escapeKey ++ ['"']) ++ [']'])
  | index n => '[' :: (Nat.toDigits 10 n ++ [']'])

/-- A name after a point is an identifier, and an index is an integer of 128 bits. -/
def WellFormed : Accessor → Prop
  | dot name => isStepName name = true
  | key _ => True
  | index n => n < 0x100000000000000000000000000000000

instance : DecidablePred WellFormed
  | dot name => inferInstanceAs (Decidable (isStepName name = true))
  | key _ => isTrue trivial
  | index n => inferInstanceAs (Decidable (n < 0x100000000000000000000000000000000))

/-- The tokens of an accessor. -/
def tokens : Accessor → List Token
  | dot name => [.sign .dot, .name name]
  | key name => [.sign .openBracket, .text name, .sign .closeBracket]
  | index n => [.sign .openBracket, .int n, .sign .closeBracket]

end Accessor

variable {c : Char} {cs rest ds : List Char} {n : Nat} {t : Token} {name : String}
  {path : List Accessor} {fuel last : Nat}

/-! ## Tokens -/

theorem ofPair?_eq_none (h : c ∉ ['/', '*', '=', '!', '>', '<']) (d : Char) :
    Sign.ofPair? c d = none := by
  unfold Sign.ofPair?
  split <;> first | rfl | exact absurd (by decide) h

/-- Characters of a name are one token if no other one follows them. -/
theorem token_name_append (hc : startsName c = true) (hcs : ∀ d ∈ c :: cs, inName d = true)
    (hrest : ∀ d ∈ rest.head?, inName d = false) :
    token (c :: cs ++ rest) = (.name (String.ofList (c :: cs)), (c :: cs).length) := by
  have hpair : (cs ++ rest).head?.bind (Sign.ofPair? c) = none := by
    cases cs ++ rest with
    | nil => rfl
    | cons d _ => exact ofPair?_of_startsName hc d
  have hquote : ¬ (c = '\'' ∨ c = '"') := by
    rintro (rfl | rfl) <;> exact absurd hc (by decide)
  have hstop : rest.takeWhile inName = [] := by
    cases rest with
    | nil => rfl
    | cons d rest => exact List.takeWhile_cons_of_neg (by simp [hrest d (by simp)])
  have hall : (c :: (cs ++ rest)).takeWhile inName = c :: cs := by
    rw [← List.cons_append, List.takeWhile_append_of_pos hcs, hstop, List.append_nil]
  rw [List.cons_append]
  simp only [token, hpair, ofChar?_of_startsName hc, if_neg hquote, isDigit_of_startsName hc, hc, hall]
  rfl

/-! ### Keys -/

theorem textBody?_plain {mark : Char} (hmark : c ≠ mark) (hslash : c ≠ '\\') :
    textBody? mark (c :: rest) = (textBody? mark rest).map (c :: ·) := by
  rw [textBody?, if_neg hmark, if_neg hslash]
  exact fun _ _ h _ => hslash h

theorem textBody?_escapeKey (c : Char) (rest : List Char) :
    textBody? '"' (escapeKey c ++ rest) = (textBody? '"' rest).map (escapeKey c ++ ·) := by
  unfold escapeKey
  split_ifs with hquote hslash hn hbrace
  · simp [textBody?]
  · simp [textBody?]
  · simp [textBody?]
  · simp [textBody?, Function.comp_def]
  · rw [List.singleton_append, textBody?_plain hquote hslash]
    rfl

theorem textBody?_key (cs rest : List Char) :
    textBody? '"' (cs.flatMap escapeKey ++ '"' :: rest) = some (cs.flatMap escapeKey) := by
  induction cs with
  | nil => rw [List.flatMap_nil, List.nil_append, textBody?, if_pos rfl]; rintro _ _ ⟨⟩
  | cons c cs ih =>
    rw [List.flatMap_cons, List.append_assoc, textBody?_escapeKey, ih]
    rfl

theorem unescape?_plain (h : c ≠ '\\') :
    unescape? (c :: rest) = (unescape? rest).map (c :: ·) := by
  rw [unescape?]
  all_goals
    intros
    contradiction

/-- An escape of one letter. -/
theorem unescape?_short (hu : c ≠ 'u') (hx : c ≠ 'x') (hoctal : octalValue? c = none)
    (rest : List Char) :
    unescape? ('\\' :: c :: rest) = (unescape? rest).map (shortEscape c ++ ·) := by
  rw [unescape?]
  · simp only [hoctal]
  all_goals
    intros
    contradiction

theorem unescape?_escapeKey (c : Char) (rest : List Char) :
    unescape? (escapeKey c ++ rest) = (unescape? rest).map (c :: ·) := by
  unfold escapeKey
  split_ifs with hquote hslash hn hbrace
  · subst hquote
    exact unescape?_short (by decide) (by decide) (by decide) rest
  · subst hslash
    exact unescape?_short (by decide) (by decide) (by decide) rest
  · subst hn
    exact unescape?_short (by decide) (by decide) (by decide) rest
  · subst hbrace
    have hunit : codeUnit? '0' '0' '7' 'd' = some 0x7d := by decide
    simp [unescape?, hunit]
  · exact unescape?_plain hslash

theorem unescape?_key (cs : List Char) : unescape? (cs.flatMap escapeKey) = some cs := by
  induction cs with
  | nil => rfl
  | cons c cs ih =>
    rw [List.flatMap_cons, unescape?_escapeKey, ih]
    rfl

/-- A key in quotation marks is one token. -/
theorem token_key (name : String) (rest : List Char) :
    token ('"' :: (name.toList.flatMap escapeKey ++ ['"']) ++ rest) =
      (.text name, ('"' :: (name.toList.flatMap escapeKey ++ ['"'])).length) := by
  have hshape : '"' :: (name.toList.flatMap escapeKey ++ ['"']) ++ rest =
      '"' :: (name.toList.flatMap escapeKey ++ '"' :: rest) := by simp
  have hpair (l : List Char) : l.head?.bind (Sign.ofPair? '"') = none := by
    cases l with
    | nil => rfl
    | cons d _ => exact ofPair?_eq_none (c := '"') (by decide) d
  have hchar : Sign.ofChar? '"' = none := rfl
  rw [hshape]
  simp only [token, hpair, hchar, textBody?_key, unescape?_key, String.ofList_toList]
  simp

/-! ### Indices -/

theorem inNumeral_digit (h : c.isDigit = true) : c ≠ '.' ∧ c ≠ '_' ∧ c ≠ '\'' ∧ c ≠ '"' ∧
    Sign.ofChar? c = none ∧ c ∉ ['/', '*', '=', '!', '>', '<'] := by
  refine ⟨?_, ?_, ?_, ?_, ?_, ?_⟩
  · rintro rfl; cases h
  · rintro rfl; cases h
  · rintro rfl; cases h
  · rintro rfl; cases h
  · unfold Sign.ofChar?
    split <;> first | rfl | exact absurd h (by decide)
  · simp only [List.mem_cons, List.not_mem_nil, or_false]
    rintro (rfl | rfl | rfl | rfl | rfl | rfl) <;> cases h

theorem decimalChars_digits (hds : Json.Digits ds) :
    decimalChars .integer (ds ++ ']' :: rest) = (ds, false) := by
  induction ds with
  | nil => rfl
  | cons c ds ih =>
    have hc : c.isDigit = true := hds c List.mem_cons_self
    have hdot := (inNumeral_digit hc).1
    have hnext : NumeralPart.next? .integer c = some .integer := by
      rw [NumeralPart.next?, if_pos hc]
      rfl
    rw [List.cons_append, decimalChars, if_neg (by simp [hdot]), hnext]
    simp only [ih fun d hd => hds d (List.mem_cons_of_mem _ hd)]

/-- A number whose second character is a digit, or the end, is decimal. -/
theorem radix?_digits (hds : Json.Digits ds) : radix? (ds ++ ']' :: rest) = none := by
  have hsecond : ∀ c d l, ds ++ ']' :: rest = '0' :: c :: l → c = d → d.isDigit = false → d = ']' := by
    intro c d l h hd hdigit
    subst hd
    rcases ds with _ | ⟨x, _ | ⟨y, ds⟩⟩
    · cases h
    · cases h
      rfl
    · cases h
      rw [hds c (by simp)] at hdigit
      cases hdigit
  unfold radix?
  split
  · exact absurd (hsecond _ 'b' _ ‹_› rfl rfl) (by decide)
  · exact absurd (hsecond _ 'B' _ ‹_› rfl rfl) (by decide)
  · exact absurd (hsecond _ 'o' _ ‹_› rfl rfl) (by decide)
  · exact absurd (hsecond _ 'O' _ ‹_› rfl rfl) (by decide)
  · exact absurd (hsecond _ 'x' _ ‹_› rfl rfl) (by decide)
  · exact absurd (hsecond _ 'X' _ ‹_› rfl rfl) (by decide)
  · rfl

theorem mapM_hexValue? (hds : Json.Digits ds) :
    ds.mapM Json.hexValue? = some (ds.map fun c => c.toNat - '0'.toNat) := by
  induction ds with
  | nil => rfl
  | cons c ds ih =>
    have hc : Json.hexValue? c = some (c.toNat - '0'.toNat) := by
      rw [Json.hexValue?, if_pos (hds c List.mem_cons_self)]
    rw [List.mapM_cons, hc, ih fun d hd => hds d (List.mem_cons_of_mem _ hd)]
    rfl

theorem foldl_digits (ds : List Char) (n : Nat) :
    (ds.map fun c => c.toNat - '0'.toNat).foldl (fun n d => 10 * n + d) n = Nat.ofDigitChars 10 ds n := by
  induction ds generalizing n with
  | nil => rfl
  | cons c ds ih => rw [List.map_cons, List.foldl_cons, ih, Nat.ofDigitChars_cons]

theorem integerToken?_digits (hds : Json.Digits ds) (hne : ds ≠ [])
    (hn : Nat.ofDigitChars 10 ds 0 < 0x100000000000000000000000000000000) :
    integerToken? 10 ds = some (.int (Nat.ofDigitChars 10 ds 0)) := by
  have hsmall : (ds.map fun c => c.toNat - '0'.toNat).any (fun v => decide (10 ≤ v)) = false := by
    rw [List.any_eq_false]
    intro v hv
    obtain ⟨c, hc, rfl⟩ := List.mem_map.mp hv
    have hdigit := hds c hc
    simp only [Char.isDigit, Bool.and_eq_true, decide_eq_true_eq] at hdigit
    have hhi : c.toNat ≤ 57 := hdigit.2
    have hzero : '0'.toNat = 48 := rfl
    simp
    omega
  have hbits : (Nat.ofDigitChars 10 ds 0).log2 < 128 := by
    rcases Nat.eq_zero_or_pos (Nat.ofDigitChars 10 ds 0) with h | h
    · rw [h]; decide
    · exact (Nat.log2_lt (by omega)).mpr (Nat.lt_of_lt_of_eq hn (by decide))
  rw [integerToken?, mapM_hexValue? hds]
  simp only [Option.bind_eq_bind, Option.bind_some, hsmall, foldl_digits]
  rw [if_neg (by simp [hne]), if_pos hbits]

/-- An index is one token if a bracket follows it. -/
theorem token_index (hn : n < 0x100000000000000000000000000000000) :
    token (Nat.toDigits 10 n ++ ']' :: rest) = (.int n, (Nat.toDigits 10 n).length) := by
  have hds : Json.Digits (Nat.toDigits 10 n) := .toDigits n
  have hvalue : Nat.ofDigitChars 10 (Nat.toDigits 10 n) 0 = n := Nat.ofDigitChars_ten_toDigits
  have hne : Nat.toDigits 10 n ≠ [] := Nat.toDigits_ne_nil
  generalize Nat.toDigits 10 n = ds at hds hvalue hne
  have hnumber : numberToken? (ds ++ ']' :: rest) = (some (.int n), ds.length) := by
    have hscore : ∀ d ∈ ds, (d != '_') = true := by
      intro d hd
      simpa using (inNumeral_digit (hds d hd)).2.1
    have hlast : ds.getLast? ≠ some '_' := by
      intro hlast
      exact (inNumeral_digit (hds _ (List.mem_of_getLast? hlast))).2.1 rfl
    have htoken := integerToken?_digits hds hne (by rwa [hvalue])
    rw [hvalue] at htoken
    simp only [numberToken?, radix?_digits hds, decimalChars_digits hds, List.filter_eq_self.mpr hscore,
      htoken]
    rw [if_neg hlast, if_neg Bool.false_ne_true, Nat.zero_add]
  obtain ⟨c, cs, rfl⟩ := List.exists_cons_of_ne_nil hne
  obtain ⟨-, -, hquote, hquotes, hchar, hsign⟩ := inNumeral_digit (hds c List.mem_cons_self)
  have hpair : (cs ++ ']' :: rest).head?.bind (Sign.ofPair? c) = none := by
    cases cs ++ ']' :: rest with
    | nil => rfl
    | cons d _ => exact ofPair?_eq_none hsign d
  rw [List.cons_append] at hnumber ⊢
  simp only [token, hpair, hchar, hds c List.mem_cons_self, hnumber]
  rw [if_neg (by simp [hquote, hquotes]), if_pos trivial]

/-! ### Whole paths -/

theorem token_sign {sign : Sign} (h : c ∉ ['/', '*', '=', '!', '>', '<'])
    (hsign : Sign.ofChar? c = some sign) (rest : List Char) : token (c :: rest) = (.sign sign, 1) := by
  have hpair : rest.head?.bind (Sign.ofPair? c) = none := by
    cases rest with
    | nil => rfl
    | cons d _ => exact ofPair?_eq_none h d
  simp only [token, hpair, hsign]

/-- Characters before others are one token, on one line and without blanks before it. -/
structure Spells (chunk : List Char) (t : Token) (rest : List Char) : Prop where
  token : token (chunk ++ rest) = (t, chunk.length)
  good : ∀ fault, t ≠ .bad fault
  start : ∀ c ∈ chunk.head?, isSpace c = false
  line : '\n' ∉ chunk
  some : chunk ≠ []

theorem lexFrom_nil (fuel line last : Nat) : lexFrom fuel line last [] = [] := by
  cases fuel <;> rfl

theorem lexFrom_spells {chunk : List Char} (h : Spells chunk t rest) (fuel last : Nat) :
    lexFrom (fuel + 1) 1 last (chunk ++ rest) = ⟨t, 1⟩ :: lexFrom fuel 1 1 rest := by
  obtain ⟨c, cs, rfl⟩ := List.exists_cons_of_ne_nil h.some
  have hblank : (c :: cs ++ rest).takeWhile isSpace = [] := by
    rw [List.cons_append]
    exact List.takeWhile_cons_of_neg (by simp [h.start c (by simp)])
  have hcount : lineEnds ((c :: (cs ++ rest)).take (c :: cs).length) = 0 := by
    rw [← List.cons_append, List.take_left, lineEnds]
    exact List.count_eq_zero_of_not_mem h.line
  have htoken := h.token
  rw [lexFrom, hblank]
  simp only [List.length_nil, List.drop_zero, List.cons_append] at htoken ⊢
  rw [htoken]
  cases t with
  | bad fault => exact absurd rfl (h.good fault)
  | _ =>
    simp only [hcount]
    rw [← List.cons_append, List.drop_left]
    rfl

/-- A path as it is written. -/
def pathChars (path : List Accessor) : List Char := path.flatMap Accessor.chars

/-- The tokens of a path. -/
def pathTokens (path : List Accessor) : List Token := path.flatMap Accessor.tokens

theorem pathChars_cons (a : Accessor) (path : List Accessor) :
    pathChars (a :: path) = a.chars ++ pathChars path := rfl

theorem pathTokens_cons (a : Accessor) (path : List Accessor) :
    pathTokens (a :: path) = a.tokens ++ pathTokens path := rfl

/-- What follows a name in a path does not belong to it. -/
theorem inName_head?_pathChars (path : List Accessor) : ∀ d ∈ (pathChars path).head?, inName d = false := by
  intro d hd
  cases path with
  | nil => cases hd
  | cons a path =>
    cases a with
    | dot name => cases hd; rfl
    | key name => cases hd; rfl
    | index n => cases hd; rfl

theorem spells_name (h : isStepName name = true) (hrest : ∀ d ∈ rest.head?, inName d = false) :
    Spells name.toList (.name name) rest := by
  obtain ⟨c, cs, hn, hc, hall⟩ := exists_of_isStepName h
  have hname : String.ofList (c :: cs) = name := by rw [← hn, String.ofList_toList]
  refine ⟨?_, by simp, ?_, ?_, by simp [hn]⟩
  · rw [hn, token_name_append hc hall hrest, hname]
  · intro d hd
    rw [hn] at hd
    cases hd
    exact isSpace_of_inName (inName_of_startsName hc)
  · rw [hn]
    intro hline
    exact absurd (hall _ hline) (by decide)

theorem spells_sign {sign : Sign} (h : c ∉ ['/', '*', '=', '!', '>', '<'])
    (hsign : Sign.ofChar? c = some sign) (hspace : isSpace c = false) (hline : c ≠ '\n')
    (rest : List Char) : Spells [c] (.sign sign) rest :=
  ⟨token_sign h hsign rest, by simp, by simpa using hspace, by simpa using hline.symm, by simp⟩

theorem spells_key (name : String) (rest : List Char) :
    Spells ('"' :: (name.toList.flatMap escapeKey ++ ['"'])) (.text name) rest := by
  refine ⟨token_key name rest, by simp, by simp; rfl, ?_, by simp⟩
  simp only [List.mem_cons, List.mem_append, List.mem_flatMap, List.not_mem_nil, or_false, not_or]
  refine ⟨by decide, ?_, by decide⟩
  rintro ⟨c, -, hc⟩
  unfold escapeKey at hc
  split_ifs at hc with h₁ h₂ h₃ h₄
  · exact absurd hc (by decide)
  · exact absurd hc (by decide)
  · exact absurd hc (by decide)
  · exact absurd hc (by decide)
  · exact h₃ (List.mem_singleton.mp hc).symm

theorem isSpace_of_isDigit (hc : c.isDigit = true) : isSpace c = false :=
  isSpace_of_inName (by simp [inName, Char.isAlphanum, hc])

theorem spells_index (hn : n < 0x100000000000000000000000000000000) :
    Spells (Nat.toDigits 10 n) (.int n) ([']'] ++ rest) := by
  have hds : Json.Digits (Nat.toDigits 10 n) := .toDigits n
  refine ⟨token_index hn, by simp, ?_, ?_, Nat.toDigits_ne_nil⟩
  · intro c hc
    exact isSpace_of_isDigit (hds c (List.mem_of_mem_head? hc))
  · intro hline
    exact absurd (hds _ hline) (by decide)

/-- The tokens of an accessor come before those of what follows. -/
theorem lexFrom_accessor {a : Accessor} (ha : a.WellFormed) (hrest : ∀ d ∈ rest.head?, inName d = false)
    (fuel last : Nat) : lexFrom (fuel + a.tokens.length) 1 last (a.chars ++ rest) =
      a.tokens.map (⟨·, 1⟩) ++ lexFrom fuel 1 1 rest := by
  have hdot := fun rest => spells_sign (c := '.') (by decide) rfl rfl (by decide) rest
  have hopen := fun rest => spells_sign (c := '[') (by decide) rfl rfl (by decide) rest
  have hclose := fun rest => spells_sign (c := ']') (by decide) rfl rfl (by decide) rest
  cases a with
  | dot name =>
    change lexFrom (fuel + 1 + 1) 1 last (['.'] ++ (name.toList ++ rest)) = _
    rw [lexFrom_spells (hdot _), lexFrom_spells (spells_name ha hrest)]
    rfl
  | key name =>
    have hshape : (Accessor.key name).chars ++ rest =
        ['['] ++ ('"' :: (name.toList.flatMap escapeKey ++ ['"']) ++ ([']'] ++ rest)) := by
      simp [Accessor.chars]
    rw [hshape]
    change lexFrom (fuel + 1 + 1 + 1) 1 last _ = _
    rw [lexFrom_spells (hopen _), lexFrom_spells (spells_key name _), lexFrom_spells (hclose _)]
    rfl
  | index n =>
    have hshape : (Accessor.index n).chars ++ rest =
        ['['] ++ (Nat.toDigits 10 n ++ ([']'] ++ rest)) := by simp [Accessor.chars]
    rw [hshape]
    change lexFrom (fuel + 1 + 1 + 1) 1 last _ = _
    rw [lexFrom_spells (hopen _), lexFrom_spells (spells_index ha), lexFrom_spells (hclose _)]
    rfl

theorem lexFrom_path (hpath : ∀ a ∈ path, a.WellFormed) (fuel last : Nat) :
    lexFrom (fuel + (pathTokens path).length) 1 last (pathChars path) =
      (pathTokens path).map (⟨·, 1⟩) := by
  induction path generalizing fuel last with
  | nil => exact lexFrom_nil _ _ _
  | cons a path ih =>
    have hlen : fuel + (pathTokens (a :: path)).length =
        fuel + (pathTokens path).length + a.tokens.length := by
      rw [pathTokens_cons, List.length_append]
      omega
    rw [hlen, pathChars_cons,
      lexFrom_accessor (hpath a List.mem_cons_self) (inName_head?_pathChars path),
      ih fun b hb => hpath b (List.mem_cons_of_mem _ hb), pathTokens_cons, List.map_append]

theorem length_tokens_le {a : Accessor} (ha : a.WellFormed) : a.tokens.length ≤ a.chars.length := by
  cases a with
  | dot name =>
    obtain ⟨c, cs, hn, -⟩ := exists_of_isStepName ha
    simp [Accessor.tokens, Accessor.chars, hn]
  | key name => simp [Accessor.tokens, Accessor.chars]
  | index n =>
    have hpos : 0 < (Nat.toDigits 10 n).length := Nat.length_toDigits_pos
    simp [Accessor.tokens, Accessor.chars]
    omega

theorem length_pathTokens_le (hpath : ∀ a ∈ path, a.WellFormed) :
    (pathTokens path).length ≤ (pathChars path).length := by
  induction path with
  | nil => exact le_rfl
  | cons a path ih =>
    have ha := length_tokens_le (hpath a List.mem_cons_self)
    have hrest := ih fun b hb => hpath b (List.mem_cons_of_mem _ hb)
    rw [pathTokens_cons, pathChars_cons, List.length_append, List.length_append]
    omega

/-- A name with a path as it is written. -/
def pathText (root : String) (path : List Accessor) : String :=
  String.ofList (root.toList ++ pathChars path)

/-- A written path is cut into the tokens of its parts. -/
theorem lex_path {root : String} (hroot : isStepName root = true) (hpath : ∀ a ∈ path, a.WellFormed) :
    lex (pathText root path) = ⟨.name root, 1⟩ :: (pathTokens path).map (⟨·, 1⟩) := by
  obtain ⟨spare, hspare⟩ := Nat.exists_eq_add_of_le (length_pathTokens_le hpath)
  have hfuel : (pathText root path).length + 1 =
      (root.toList.length + spare) + (pathTokens path).length + 1 := by
    rw [pathText, String.length_ofList, List.length_append, hspare]
    omega
  rw [lex, hfuel, pathText, String.toList_ofList,
    lexFrom_spells (spells_name hroot (inName_head?_pathChars path)), lexFrom_path hpath]

end FlowEngine.Expr
