import FlowEngine.Json.Printer
import FlowEngine.Proofs.Documents.Numbers
import Mathlib.Data.List.DropRight

/-!
# Reading written documents

* `Json.Writable` — a document that has a text.
* `Json.reread` — what its text is read as: numbers are rounded again.
* `Json.string?_quoted` — a string literal is read as its text.
* `Json.document?_pretty` — the indented text of a document is read so, at any level and whatever
  follows it, unless containers are nested too deep.
* `Json.read?_pretty`, `Json.readRecord?_pretty` — a whole text.
-/

namespace FlowEngine.Json

variable {leaves : Leaves} {front : Front} {value : String → Front} {level depth fuel n : Nat}
  {cs rest : List Char} {j : Json} {elements : List Json} {members : List (String × Json)}

/-! ## Documents that have texts -/

mutual

/-- Integers are in range and other numbers are finite. -/
def Writable : Json → Prop
  | .arr elements => WritableElements elements
  | .obj members => WritableMembers members
  | .float x => x.isFinite = true
  | .int i => InRange i
  | _ => True

/-- Every element is writable. -/
def WritableElements : List Json → Prop
  | [] => True
  | j :: rest => Writable j ∧ WritableElements rest

/-- Every member's value is writable. -/
def WritableMembers : List (String × Json) → Prop
  | [] => True
  | (_, j) :: rest => Writable j ∧ WritableMembers rest

end

mutual

/-- The document that the text of a document is read as. -/
def reread : Json → Json
  | .arr elements => .arr (rereadElements elements)
  | .obj members => .obj (rereadMembers members)
  | .float x => .float x.reread
  | j => j

/-- What elements are read as. -/
def rereadElements : List Json → List Json
  | [] => []
  | j :: rest => reread j :: rereadElements rest

/-- What members are read as. -/
def rereadMembers : List (String × Json) → List (String × Json)
  | [] => []
  | (k, j) :: rest => (k, reread j) :: rereadMembers rest

end

/-! ## Blanks -/

/-- A character that may stand between the parts of a document. -/
def Blank (c : Char) : Bool := c == ' ' || c == '\n' || c == '\t' || c == '\r'

theorem skipBlanks_cons {c : Char} (h : Blank c = false) (cs : List Char) :
    skipBlanks (c :: cs) = c :: cs := List.dropWhile_cons_of_neg (Bool.not_eq_true _ ▸ h)

theorem skipBlanks_newLine (n : Nat) (cs : List Char) : skipBlanks (newLine n ++ cs) = skipBlanks cs := by
  have hblank : ∀ c ∈ newLine n, Blank c = true := by
    intro c hc
    rw [newLine, List.mem_cons, List.mem_replicate] at hc
    rcases hc with rfl | ⟨-, rfl⟩ <;> rfl
  exact List.dropWhile_append_of_pos hblank

theorem skipBlanks_idem (cs : List Char) : skipBlanks (skipBlanks cs) = skipBlanks cs :=
  List.dropWhile_idempotent _ _

theorem document?_skipBlanks (depth : Nat) (cs : List Char) :
    document? leaves depth (skipBlanks cs) = document? leaves depth cs := by
  cases depth <;> simp only [document?, skipBlanks_idem]

theorem elements?_skipBlanks (fuel depth : Nat) (cs : List Char) :
    elements? (document? leaves depth) fuel (skipBlanks cs) =
      elements? (document? leaves depth) fuel cs := by
  cases fuel
  · rfl
  · simp only [elements?, document?_skipBlanks]

theorem members?_skipBlanks (fuel : Nat) (cs : List Char) :
    members? leaves value fuel (skipBlanks cs) = members? leaves value fuel cs := by
  cases fuel
  · rfl
  · simp only [members?, memberName?, skipBlanks_idem]

/-! ## Strings -/

theorem hexValue?_hexDigit : ∀ n < 16, hexValue? (hexDigit n) = some n := by decide

theorem hexDigit_mod (n : Nat) : hexDigit (n % 16) = hexDigit n := by
  rw [hexDigit, hexDigit, Nat.mod_mod]

/-- The escape of a control character is read as that character. -/
theorem unicodeEscape?_control {c : Char} (h : c.toNat < 32) :
    unicodeEscape? ('0' :: '0' :: hexDigit (c.toNat / 16) :: hexDigit c.toNat :: rest) =
      some (c, rest) := by
  have hfour : hexFour? ('0' :: '0' :: hexDigit (c.toNat / 16) :: hexDigit c.toNat :: rest) =
      some (c.toNat, rest) := by
    have hhigh := hexValue?_hexDigit (c.toNat / 16) (by omega)
    have hlow := hexValue?_hexDigit (c.toNat % 16) (Nat.mod_lt _ (by omega))
    rw [hexDigit_mod] at hlow
    have hzero : hexValue? '0' = some 0 := rfl
    simp only [hexFour?, hzero, hhigh, hlow, Option.bind_eq_bind, Option.bind_some]
    congr 2
    omega
  rw [unicodeEscape?, hfour]
  simp only [Option.bind_eq_bind, Option.bind_some]
  rw [if_neg (by omega), if_neg (by omega), Char.ofNat_toNat]

/-- The escape of a character is read as that character. -/
theorem stringBody?_escapeChar (fuel : Nat) (c : Char) (rest : List Char) :
    stringBody? (fuel + 1) (escapeChar c ++ rest) =
      (stringBody? fuel rest).map fun (cs, rest) => (c :: cs, rest) := by
  have escaped {cs : List Char} (h : escape? cs = some (c, rest)) :
      stringBody? (fuel + 1) ('\\' :: cs) =
        (stringBody? fuel rest).map fun (cs, rest) => (c :: cs, rest) := by
    simp only [stringBody?, h, Option.bind_eq_bind, Option.bind_some]
    rcases stringBody? fuel rest with _ | ⟨cs, rest⟩ <;> rfl
  unfold escapeChar
  split_ifs with hquote hslash hn hr ht hb hf hcontrol
  · subst hquote; exact escaped rfl
  · subst hslash; exact escaped rfl
  · subst hn; exact escaped rfl
  · subst hr; exact escaped rfl
  · subst ht; exact escaped rfl
  -- backspace and form feed are compared by their codes
  · refine escaped ?_
    rw [← Char.ofNat_toNat c, hb]
    rfl
  · refine escaped ?_
    rw [← Char.ofNat_toNat c, hf]
    rfl
  · exact escaped (unicodeEscape?_control hcontrol)
  · rw [List.singleton_append, stringBody?, if_neg hquote, if_neg hcontrol]
    exact fun h => hslash (by rw [h])

theorem length_le_escaped (cs : List Char) : cs.length ≤ (cs.flatMap escapeChar).length := by
  induction cs with
  | nil => exact Nat.le_refl _
  | cons c cs ih =>
    have hc : 1 ≤ (escapeChar c).length := by unfold escapeChar; split_ifs <;> simp
    rw [List.flatMap_cons, List.length_cons, List.length_append]
    omega

theorem stringBody?_escaped (h : cs.length < fuel) :
    stringBody? fuel (cs.flatMap escapeChar ++ '"' :: rest) = some (cs, rest) := by
  induction cs generalizing fuel with
  | nil =>
    obtain ⟨fuel, rfl⟩ := Nat.exists_eq_succ_of_ne_zero (Nat.ne_of_gt h)
    rw [List.flatMap_nil, List.nil_append, stringBody?, if_pos rfl]
    rintro ⟨⟩
  | cons c cs ih =>
    obtain ⟨fuel, rfl⟩ := Nat.exists_eq_succ_of_ne_zero (Nat.ne_zero_of_lt h)
    rw [List.flatMap_cons, List.append_assoc, stringBody?_escapeChar,
      ih (by simpa using Nat.lt_of_succ_lt_succ h)]
    rfl

/-- A string literal, after its opening quote, is read as its text. -/
theorem string?_quoted (s : String) (rest : List Char) :
    string? (s.toList.flatMap escapeChar ++ '"' :: rest) = some (s, rest) := by
  have hlen := length_le_escaped s.toList
  rw [string?, stringBody?_escaped (by rw [List.length_append]; omega)]
  simp only [Option.map_some, String.ofList_toList]

theorem quote_append (s : String) (rest : List Char) :
    quote s.toList ++ rest = '"' :: (s.toList.flatMap escapeChar ++ '"' :: rest) := by
  rw [quote, List.cons_append, List.append_assoc, List.singleton_append]

/-! ## Scalars -/

/-- A number starts with a digit or a sign. -/
theorem head_of_number? {r : Json × List Char} (h : number? cs = some r) :
    ∃ c ∈ cs.head?, c = '-' ∨ c.isDigit = true := by
  have hnumeral : numeral? cs ≠ none := by
    rintro hnone
    rw [number?, hnone] at h
    cases h
  rcases cs with _ | ⟨c, cs⟩
  · exact absurd rfl hnumeral
  refine ⟨c, rfl, ?_⟩
  by_contra hc
  rw [not_or] at hc
  refine hnumeral ?_
  unfold numeral?
  split
  next heq =>
    split at heq
    · next hcons => exact absurd (List.cons.inj hcons).1 hc.1
    · cases heq
      simp [hc.2]

/-- A text that starts neither with a blank nor with a bracket or a brace. -/
def StartsScalar (cs : List Char) : Prop :=
  ∃ c ∈ cs.head?, Blank c = false ∧ c ≠ '[' ∧ c ≠ ']' ∧ c ≠ '\x7b'

theorem document?_scalar (depth : Nat) (h : StartsScalar cs) :
    document? leaves depth cs = scalar? leaves cs := by
  obtain ⟨c, hc, hblank, harr, -, hobj⟩ := h
  obtain ⟨cs, rfl⟩ := List.head?_eq_some_iff.mp hc
  have hbracket (cs' : List Char) : c :: cs ≠ '[' :: cs' := fun h => harr (List.cons.inj h).1
  have hbrace (cs' : List Char) : c :: cs ≠ '\x7b' :: cs' := fun h => hobj (List.cons.inj h).1
  cases depth <;>
  · rw [document?, skipBlanks_cons hblank]
    split
    · next h => exact absurd h (hbracket _)
    · next h => exact absurd h (hbrace _)
    · rfl

theorem scalar?_number {r : Json × List Char} (h : number? cs = some r) :
    StartsScalar cs ∧ scalar? .valued cs = some r := by
  obtain ⟨c, hc, hnumber⟩ := head_of_number? h
  obtain ⟨cs, rfl⟩ := List.head?_eq_some_iff.mp hc
  have hne (d : Char) (hd : d ≠ '-') (hd' : d.isDigit = false) : c ≠ d := by
    rintro rfl
    rcases hnumber with rfl | hdigit
    · exact hd rfl
    · exact absurd hdigit (by rw [hd']; decide)
  refine ⟨⟨c, rfl, ?_, ?_, ?_, ?_⟩, ?_⟩
  · have hspace := hne ' ' (by decide) (by decide)
    have hline := hne '\n' (by decide) (by decide)
    have htab := hne '\t' (by decide) (by decide)
    have hreturn := hne '\r' (by decide) (by decide)
    simp [Blank, hspace, hline, htab, hreturn]
  iterate 3 exact hne _ (by decide) (by decide)
  · rw [← h]
    unfold scalar?
    split
    · next h => exact absurd (List.cons.inj h).1 (hne _ (by decide) (by decide))
    · next h => exact absurd (List.cons.inj h).1 (hne _ (by decide) (by decide))
    · next h => exact absurd (List.cons.inj h).1 (hne _ (by decide) (by decide))
    · next h => exact absurd (List.cons.inj h).1 (hne _ (by decide) (by decide))
    · rfl

/-- A scalar is read as it is written. -/
theorem scalar?_scalarText (hj : Writable j) (hscalar : j.depth = 0) (hr : Ends rest) :
    StartsScalar (scalarText j ++ rest) ∧
      scalar? .valued (scalarText j ++ rest) = some (reread j, rest) := by
  cases j with
  | null => exact ⟨⟨'n', rfl, by decide⟩, rfl⟩
  | bool b => cases b <;> exact ⟨⟨_, rfl, by decide⟩, rfl⟩
  | int i => exact scalar?_number (number?_int hj hr)
  | float x => exact scalar?_number (number?_numberText hj hr)
  | str s =>
    rw [scalarText, quote_append]
    refine ⟨⟨'"', rfl, by decide⟩, ?_⟩
    exact congrArg (Option.map fun read => (Json.str read.1, read.2)) (string?_quoted s rest)
  | arr _ => cases hscalar
  | obj _ => cases hscalar

/-! ## Containers -/

/-- The text of a document is read back, unless containers are nested deeper. -/
def ReadBack (front : Front) (level depth : Nat) (j : Json) : Prop :=
  ∀ rest, Ends rest → front (prettyChars level j ++ rest) =
    if j.depth ≤ depth then some (reread j, rest) else none

theorem document?_newLine (depth n : Nat) (cs : List Char) :
    document? leaves depth (newLine n ++ cs) = document? leaves depth cs := by
  rw [← document?_skipBlanks, skipBlanks_newLine, document?_skipBlanks]

theorem document?_space (depth : Nat) (cs : List Char) :
    document? leaves depth (' ' :: cs) = document? leaves depth cs := by
  rw [← document?_skipBlanks, ← document?_skipBlanks depth cs]
  rfl

theorem ends_newLine (n : Nat) (cs : List Char) : Ends (newLine n ++ cs) := by
  rintro c ⟨⟩
  decide

theorem ends_comma (cs : List Char) : Ends (',' :: cs) := by
  rintro c ⟨⟩
  decide

/-- Elements that are read back make a list that is. -/
theorem elements?_pretty (hne : elements ≠ []) (hfuel : elements.length ≤ fuel)
    (h : ∀ j ∈ elements, ReadBack (document? leaves depth) level depth j) :
    elements? (document? leaves depth) fuel
        (prettyElements level elements ++ (newLine n ++ ']' :: rest)) =
      if depthElements elements ≤ depth then some (rereadElements elements, rest) else none := by
  induction elements generalizing fuel with
  | nil => exact absurd rfl hne
  | cons j elements ih =>
    obtain ⟨fuel, rfl⟩ := Nat.exists_eq_succ_of_ne_zero (Nat.ne_zero_of_lt hfuel)
    have hj := h j List.mem_cons_self
    -- the last element is followed by a line break, and every other one by a comma
    rcases elements with _ | ⟨j', elements⟩
    · rw [prettyElements, List.append_assoc, elements?, document?_newLine, hj _ (ends_newLine _ _)]
      have hdepth : depthElements [j] = j.depth := Nat.max_zero _
      rw [hdepth]
      split_ifs
      · simp only [Option.bind_eq_bind, Option.bind_some, skipBlanks_newLine]
        rfl
      · rfl
    · have ih := ih (by rintro ⟨⟩) (Nat.le_of_succ_le_succ hfuel)
        fun j hj => h j (List.mem_cons_of_mem _ hj)
      rw [prettyElements.eq_3 _ _ _ (by rintro ⟨⟩), List.append_assoc, List.append_assoc, elements?,
        document?_newLine, List.cons_append, hj _ (ends_comma _), depthElements]
      by_cases hd : j.depth ≤ depth
      · rw [if_pos hd]
        simp only [Option.bind_eq_bind, Option.bind_some, skipBlanks_cons (show Blank ',' = false from rfl),
          ih, Nat.max_le, hd, true_and]
        split_ifs <;> rfl
      · rw [if_neg hd, if_neg fun h => hd (Nat.max_le.mp h).1]
        rfl

theorem memberName?_pretty (n : Nat) (k : String) (cs : List Char) :
    memberName? .valued (newLine n ++ (quote k.toList ++ ':' :: cs)) = some (k, cs) := by
  rw [memberName?, skipBlanks_newLine, quote_append, skipBlanks_cons rfl]
  simp only [Leaves.valued, string?_quoted, Option.bind_eq_bind, Option.bind_some,
    skipBlanks_cons (show Blank ':' = false from rfl)]

/-- Members that are read back make an object that is. -/
theorem members?_pretty (hne : members ≠ []) (hfuel : members.length ≤ fuel)
    (h : ∀ m ∈ members, ReadBack (fun cs => value m.1 (' ' :: cs)) level depth m.2) :
    members? .valued value fuel (prettyMembers level members ++ (newLine n ++ '\x7d' :: rest)) =
      if depthMembers members ≤ depth then some (rereadMembers members, rest) else none := by
  induction members generalizing fuel with
  | nil => exact absurd rfl hne
  | cons m members ih =>
    obtain ⟨k, j⟩ := m
    obtain ⟨fuel, rfl⟩ := Nat.exists_eq_succ_of_ne_zero (Nat.ne_zero_of_lt hfuel)
    have hj := h (k, j) List.mem_cons_self
    rcases members with _ | ⟨m, members⟩
    · rw [prettyMembers, List.append_assoc, List.append_assoc, List.cons_append, List.cons_append,
        members?, memberName?_pretty]
      have hdepth : depthMembers [(k, j)] = j.depth := Nat.max_zero _
      have hread := hj _ (ends_newLine n ('\x7d' :: rest))
      simp only [Option.bind_eq_bind, Option.bind_some, hread, hdepth]
      split_ifs
      · simp only [Option.bind_some, skipBlanks_newLine]
        rfl
      · rfl
    · have ih := ih (by rintro ⟨⟩) (Nat.le_of_succ_le_succ hfuel)
        fun j hj => h j (List.mem_cons_of_mem _ hj)
      rw [prettyMembers.eq_3 _ _ _ _ (by rintro ⟨⟩), List.append_assoc, List.append_assoc,
        List.cons_append, List.cons_append, List.append_assoc, List.cons_append, members?,
        memberName?_pretty, depthMembers]
      have hread := hj _ (ends_comma (prettyMembers level (m :: members) ++ (newLine n ++ '\x7d' :: rest)))
      simp only [Option.bind_eq_bind, Option.bind_some, hread]
      by_cases hd : j.depth ≤ depth
      · rw [if_pos hd]
        simp only [Option.bind_some, skipBlanks_cons (show Blank ',' = false from rfl), ih, Nat.max_le, hd,
          true_and]
        split_ifs <;> rfl
      · rw [if_neg hd, if_neg fun h => hd (Nat.max_le.mp h).1]
        rfl

/-- The text of a document starts neither with a blank nor with a closing bracket. -/
theorem prettyChars_start (hj : Writable j) (level : Nat) :
    ∃ c cs, prettyChars level j = c :: cs ∧ Blank c = false ∧ c ≠ ']' := by
  have scalar {j : Json} (hj : Writable j) (h : j.depth = 0) :
      ∃ c cs, scalarText j = c :: cs ∧ Blank c = false ∧ c ≠ ']' := by
    have hends : Ends ([] : List Char) := by rintro c ⟨⟩
    obtain ⟨c, hc, hblank, -, hclose, -⟩ := (scalar?_scalarText hj h hends).1
    rw [List.append_nil] at hc
    obtain ⟨cs, hcs⟩ := List.head?_eq_some_iff.mp hc
    exact ⟨c, cs, hcs, hblank, hclose⟩
  cases j with
  | arr elements => cases elements <;> exact ⟨'[', _, rfl, rfl, by decide⟩
  | obj members => cases members <;> exact ⟨'\x7b', _, rfl, rfl, by decide⟩
  | _ => exact scalar hj rfl

/-- The first element, and at least one character for every other one. -/
theorem prettyElements_cons (level : Nat) (j : Json) (elements : List Json) : ∃ tail,
    prettyElements level (j :: elements) = newLine level ++ (prettyChars level j ++ tail) ∧
      elements.length ≤ tail.length := by
  induction elements generalizing j with
  | nil => exact ⟨[], by rw [prettyElements, List.append_nil], Nat.le_refl _⟩
  | cons j' elements ih =>
    obtain ⟨tail, htail, hlen⟩ := ih j'
    refine ⟨',' :: prettyElements level (j' :: elements), ?_, ?_⟩
    · rw [prettyElements.eq_3 _ _ _ (by rintro ⟨⟩), List.append_assoc]
    · rw [htail]
      simp only [List.length_cons, List.length_append]
      omega

/-- The first member, and at least one character for every other one. -/
theorem prettyMembers_cons (level : Nat) (m : String × Json) (members : List (String × Json)) :
    ∃ tail, prettyMembers level (m :: members) = newLine level ++ (quote m.1.toList ++ tail) ∧
      members.length ≤ tail.length := by
  induction members generalizing m with
  | nil => exact ⟨_, by rw [prettyMembers, List.append_assoc], Nat.zero_le _⟩
  | cons m' members ih =>
    obtain ⟨tail, htail, hlen⟩ := ih m'
    refine ⟨':' :: ' ' :: (prettyChars level m.2 ++ ',' :: prettyMembers level (m' :: members)), ?_, ?_⟩
    · rw [prettyMembers.eq_3 _ _ _ _ (by rintro ⟨⟩), List.append_assoc]
    · rw [htail]
      simp only [List.length_cons, List.length_append]
      omega

/-- What follows an opening bracket. -/
theorem elements?_first (n : Nat) (rest : List Char) (hj : Writable j)
    (h : ∀ i ∈ j :: elements, ReadBack (document? leaves depth) level depth i) :
    ∃ c cs, skipBlanks (prettyElements level (j :: elements) ++ (newLine n ++ ']' :: rest)) = c :: cs ∧
      c ≠ ']' ∧ elements? (document? leaves depth) ((c :: cs).length + 1) (c :: cs) =
        if depthElements (j :: elements) ≤ depth then some (rereadElements (j :: elements), rest)
        else none := by
  obtain ⟨tail, htail, hlen⟩ := prettyElements_cons level j elements
  obtain ⟨c, cs, hstart, hblank, hclose⟩ := prettyChars_start hj level
  have hskip : skipBlanks (prettyElements level (j :: elements) ++ (newLine n ++ ']' :: rest)) =
      c :: (cs ++ (tail ++ (newLine n ++ ']' :: rest))) := by
    rw [htail, List.append_assoc, List.append_assoc, skipBlanks_newLine, hstart, List.cons_append,
      skipBlanks_cons hblank]
  refine ⟨c, _, hskip, hclose, ?_⟩
  rw [← hskip, elements?_skipBlanks, hskip]
  refine elements?_pretty (by rintro ⟨⟩) ?_ h
  simp only [List.length_cons, List.length_append]
  omega

/-- A list is read back if its elements are. -/
theorem arr_pretty (hj : WritableElements elements)
    (h : ∀ depth level, ∀ j ∈ elements, ReadBack (document? .valued depth) level depth j) :
    ReadBack (document? .valued depth) level depth (.arr elements) := by
  intro rest hr
  rcases elements with _ | ⟨j, elements⟩
  · cases depth <;> rfl
  rw [prettyChars.eq_2 _ _ (by rintro ⟨⟩), List.cons_append, List.append_assoc, List.append_assoc,
    List.singleton_append]
  rcases depth with _ | depth
  · rw [document?, skipBlanks_cons rfl, if_neg (by rw [Json.depth]; omega)]
    rfl
  · obtain ⟨c, cs, hskip, hclose, hread⟩ := elements?_first level rest hj.1 (h depth (level + 1))
    rw [document?, skipBlanks_cons rfl]
    simp only [hskip]
    split
    · next heq => exact absurd (List.cons.inj heq).1 hclose
    · rw [hread, Json.depth, reread]
      simp only [Nat.add_le_add_iff_right]
      split_ifs <;> rfl

/-- An object is read back if its members are. -/
theorem object?_pretty (value : String → Front)
    (h : ∀ m ∈ members, ReadBack (fun cs => value m.1 (' ' :: cs)) level depth m.2) :
    object? .valued value (prettyMembers level members ++ (newLine n ++ '\x7d' :: rest)) =
      if depthMembers members ≤ depth then some (.obj (rereadMembers members), rest) else none := by
  rcases members with _ | ⟨m, members⟩
  · rw [prettyMembers, List.nil_append, object?, skipBlanks_newLine, skipBlanks_cons rfl]
    rfl
  · obtain ⟨tail, htail, hlen⟩ := prettyMembers_cons level m members
    have hskip : skipBlanks (prettyMembers level (m :: members) ++ (newLine n ++ '\x7d' :: rest)) =
        '"' :: (m.1.toList.flatMap escapeChar ++ '"' :: (tail ++ (newLine n ++ '\x7d' :: rest))) := by
      rw [htail, List.append_assoc, List.append_assoc, skipBlanks_newLine, quote_append,
        skipBlanks_cons rfl]
    unfold object?
    split
    · next heq =>
        rw [hskip] at heq
        cases heq
    · rw [members?_skipBlanks, members?_pretty (by rintro ⟨⟩) ?_ h]
      · split_ifs <;> rfl
      · rw [hskip]
        simp only [List.length_cons, List.length_append]
        omega

/-- A document that is an object is read back if its members are. -/
theorem obj_pretty
    (h : ∀ depth level, ∀ m ∈ members, ReadBack (document? .valued depth) level depth m.2) :
    ReadBack (document? .valued depth) level depth (.obj members) := by
  intro rest hr
  rcases members with _ | ⟨m, members⟩
  · cases depth <;> rfl
  rw [prettyChars.eq_4 _ _ (by rintro ⟨⟩), List.cons_append, List.append_assoc, List.append_assoc,
    List.singleton_append]
  rcases depth with _ | depth
  · rw [document?, skipBlanks_cons rfl, if_neg (by rw [Json.depth]; omega)]
    rfl
  · have hmembers : ∀ m' ∈ m :: members,
        ReadBack (fun cs => document? .valued depth (' ' :: cs)) (level + 1) depth m'.2 := by
      intro m' hm' rest hr
      rw [← h depth (level + 1) m' hm' rest hr]
      exact document?_space _ _
    rw [document?, skipBlanks_cons rfl, Json.depth, reread]
    simp only [Nat.add_le_add_iff_right]
    exact object?_pretty (fun _ => document? .valued depth) hmembers

/-! ## Documents -/

theorem scalar_pretty (hj : Writable j) (hscalar : j.depth = 0)
    (htext : prettyChars level j = scalarText j) :
    ReadBack (document? .valued depth) level depth j := by
  intro rest hr
  obtain ⟨hstart, hread⟩ := scalar?_scalarText hj hscalar hr
  rw [htext, document?_scalar depth hstart, hread, if_pos (hscalar.trans_le (Nat.zero_le _))]

mutual

/-- A document is read back from its text. -/
theorem document?_pretty : ∀ (j : Json), Writable j → ∀ depth level,
    ReadBack (document? .valued depth) level depth j
  | .null, hj, _, _ => scalar_pretty hj rfl rfl
  | .bool _, hj, _, _ => scalar_pretty hj rfl rfl
  | .int _, hj, _, _ => scalar_pretty hj rfl rfl
  | .float _, hj, _, _ => scalar_pretty hj rfl rfl
  | .str _, hj, _, _ => scalar_pretty hj rfl rfl
  | .arr elements, hj, _, _ => arr_pretty hj (document?_elements elements hj)
  | .obj members, hj, _, _ => obj_pretty (document?_members members hj)

/-- Elements are read back. -/
theorem document?_elements : ∀ (elements : List Json), WritableElements elements → ∀ depth level,
    ∀ j ∈ elements, ReadBack (document? .valued depth) level depth j
  | [], _, _, _, _, hmem => absurd hmem List.not_mem_nil
  | i :: elements, hj, depth, level, j, hmem => by
    rcases List.mem_cons.mp hmem with heq | hmem
    · rw [heq]
      exact document?_pretty i hj.1 depth level
    · exact document?_elements elements hj.2 depth level j hmem

/-- Members are read back. -/
theorem document?_members : ∀ (members : List (String × Json)), WritableMembers members →
    ∀ depth level, ∀ m ∈ members, ReadBack (document? .valued depth) level depth m.2
  | [], _, _, _, _, hmem => absurd hmem List.not_mem_nil
  | (k, j) :: members, hj, depth, level, m, hmem => by
    rcases List.mem_cons.mp hmem with heq | hmem
    · rw [heq]
      exact document?_pretty j hj.1 depth level
    · exact document?_members members hj.2 depth level m hmem

end

/-- The text of a document is read unless its containers are nested too deep. -/
theorem read?_pretty (hj : Writable j) :
    read? j.pretty = if j.depth ≤ maxDepth then some (reread j) else none := by
  have hread := document?_pretty j hj maxDepth 0 [] (by rintro c ⟨⟩)
  rw [List.append_nil] at hread
  rw [read?, pretty, String.toList_ofList, hread]
  split_ifs <;> rfl

/-- The text of a record that has only known fields is read in the same way. -/
theorem readRecord?_pretty {names : List String} (hm : WritableMembers members)
    (hknown : ∀ m ∈ members, m.1 ∈ names) :
    readRecord? names (pretty (.obj members)) =
      if Json.depth (.obj members) ≤ maxDepth then some (reread (.obj members)) else none := by
  rcases members with _ | ⟨m, members⟩
  · rfl
  -- members that are not known would be skimmed, and there are none
  have hmembers (n : Nat) : ∀ m' ∈ m :: members, ReadBack (fun cs => (if names.contains m'.1 then
      document? .valued (maxDepth - 1) else document? .skimmed n) (' ' :: cs)) 1 (maxDepth - 1) m'.2 := by
    intro m' hm' rest hr
    rw [← document?_members _ hm (maxDepth - 1) 1 m' hm' rest hr]
    simp only [List.contains_eq_mem, hknown m' hm', decide_true, if_true, document?_space]
  rw [readRecord?, pretty, String.toList_ofList, prettyChars.eq_4 _ _ (by rintro ⟨⟩),
    skipBlanks_cons rfl]
  change whole? (object? .valued (fun name => if names.contains name then
    document? .valued (maxDepth - 1) else document? .skimmed _) _) = _
  rw [List.append_assoc, object?_pretty (fun name => if names.contains name then
    document? .valued (maxDepth - 1) else document? .skimmed _) (hmembers _), Json.depth]
  have hmax : depthMembers (m :: members) + 1 ≤ maxDepth ↔
      depthMembers (m :: members) ≤ maxDepth - 1 := Nat.add_le_add_iff_right (n := 1) (k := maxDepth - 1)
  rw [if_congr hmax rfl rfl]
  split_ifs <;> rfl

end FlowEngine.Json
