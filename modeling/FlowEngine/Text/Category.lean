import FlowEngine.Text.CategoryTable

/-!
# Character classes

General categories of characters and the classes built from them.

* `GeneralCategory.of` — the general category of a character.
* `GeneralCategory.intervals` — the characters of a category.
* `isBlank` — white space.
* `isCased`, `isCaseIgnorable` — what the lower case of a final sigma depends on.
* `isPrintable` — what stands for itself in a quoted text.
-/

namespace FlowEngine.Text

/-- General categories of characters. -/
inductive GeneralCategory where
  | Lu | Ll | Lt | Lm | Lo
  | Mn | Mc | Me
  | Nd | Nl | No
  | Pc | Pd | Ps | Pe | Pi | Pf | Po
  | Sm | Sc | Sk | So
  | Zs | Zl | Zp
  | Cc | Cf | Cs | Co | Cn
  deriving DecidableEq, Inhabited

namespace GeneralCategory

/-- The category with a two-letter name. -/
def ofLetters? : Char → Char → Option GeneralCategory
  | 'L', 'u' => some Lu | 'L', 'l' => some Ll | 'L', 't' => some Lt | 'L', 'm' => some Lm
  | 'L', 'o' => some Lo
  | 'M', 'n' => some Mn | 'M', 'c' => some Mc | 'M', 'e' => some Me
  | 'N', 'd' => some Nd | 'N', 'l' => some Nl | 'N', 'o' => some No
  | 'P', 'c' => some Pc | 'P', 'd' => some Pd | 'P', 's' => some Ps | 'P', 'e' => some Pe
  | 'P', 'i' => some Pi | 'P', 'f' => some Pf | 'P', 'o' => some Po
  | 'S', 'm' => some Sm | 'S', 'c' => some Sc | 'S', 'k' => some Sk | 'S', 'o' => some So
  | 'Z', 's' => some Zs | 'Z', 'l' => some Zl | 'Z', 'p' => some Zp
  | 'C', 'c' => some Cc | 'C', 'f' => some Cf | 'C', 's' => some Cs | 'C', 'o' => some Co
  | 'C', 'n' => some Cn
  | _, _ => none

/-- A stretch of code points below `stop` of one category, or of two that alternate. The stretch
begins where the one before it stops. -/
structure Run where
  stop : Nat
  even : GeneralCategory
  odd : GeneralCategory
  deriving Inhabited

/-- The number in front of a text, one if there is none, and what follows it. -/
def runLength (cs : List Char) : Nat × List Char :=
  let ds := cs.takeWhile Char.isDigit
  (if ds.isEmpty then 1 else ds.foldl (fun n c => 10 * n + (c.toNat - '0'.toNat)) 0,
    cs.dropWhile Char.isDigit)

/-- The runs of a run-length text; an alternation counts from its start. -/
def readRuns (start : Nat) : Nat → List Char → List Run
  | fuel + 1, '~' :: a :: b :: c :: d :: rest =>
    match ofLetters? a b, ofLetters? c d with
    | some x, some y =>
      let (n, rest) := runLength rest
      let stop := start + 2 * n
      ⟨stop, if start % 2 = 0 then x else y, if start % 2 = 0 then y else x⟩ ::
        readRuns stop fuel rest
    | _, _ => []
  | fuel + 1, a :: b :: rest =>
    match ofLetters? a b with
    | some x =>
      let (n, rest) := runLength rest
      ⟨start + n, x, x⟩ :: readRuns (start + n) fuel rest
    | none => []
  | _, _ => []

/-- The runs of all code points. -/
def runs : List Run := readRuns 0 categoryRuns.length categoryRuns.toList

/-- The general category of a character. -/
def of (c : Char) : GeneralCategory :=
  match runs.find? (fun r => c.toNat < r.stop) with
  | some r => if c.toNat % 2 = 0 then r.even else r.odd
  | none => Cn

/-- The members of a run that have a category, as closed intervals; the run starts at `start`. -/
def Run.intervals (g : GeneralCategory) (start : Nat) (r : Run) : List (Nat × Nat) :=
  if r.even = r.odd then (if r.even = g then [(start, r.stop - 1)] else [])
  else
    ((List.range' start (r.stop - start)).filter fun c =>
      decide ((if c % 2 = 0 then r.even else r.odd) = g)).map fun c => (c, c)

/-- The members of runs that have a category, as closed intervals. -/
def intervalsFrom (g : GeneralCategory) (start : Nat) : List Run → List (Nat × Nat)
  | [] => []
  | r :: rest => r.intervals g start ++ intervalsFrom g r.stop rest

/-- The code points of a category as closed intervals, in order. -/
def intervals (g : GeneralCategory) : List (Nat × Nat) := intervalsFrom g 0 runs

/-- The letter that groups categories: letters, marks, numbers, and so on. -/
def major : GeneralCategory → Char
  | Lu | Ll | Lt | Lm | Lo => 'L'
  | Mn | Mc | Me => 'M'
  | Nd | Nl | No => 'N'
  | Pc | Pd | Ps | Pe | Pi | Pf | Po => 'P'
  | Sm | Sc | Sk | So => 'S'
  | Zs | Zl | Zp => 'Z'
  | Cc | Cf | Cs | Co | Cn => 'C'

end GeneralCategory

/-! ## Classes -/

/-- Whether a code point lies in one of some closed intervals. -/
def inIntervals (intervals : List (Nat × Nat)) (c : Char) : Bool :=
  intervals.any fun (lo, hi) => decide (lo ≤ c.toNat) && decide (c.toNat ≤ hi)

/-- White space: the characters that trimming removes. -/
def isBlank (c : Char) : Bool :=
  inIntervals [(0x9, 0xD), (0x20, 0x20), (0x85, 0x85), (0xA0, 0xA0), (0x1680, 0x1680),
    (0x2000, 0x200A), (0x2028, 0x2029), (0x202F, 0x202F), (0x205F, 0x205F), (0x3000, 0x3000)] c

/-- Letters inside circles and squares, which count as letters with a case. -/
def isEnclosedLetter (c : Char) : Bool :=
  inIntervals [(0x24B6, 0x24E9), (0x1F130, 0x1F149), (0x1F150, 0x1F169), (0x1F170, 0x1F189)] c

/-- Modifier letters and other signs that count as lower-case letters, and Roman numerals. -/
def isOtherCased (c : Char) : Bool :=
  inIntervals [(0xAA, 0xAA), (0xBA, 0xBA), (0x2B0, 0x2B8), (0x2C0, 0x2C1), (0x2E0, 0x2E4),
    (0x345, 0x345), (0x37A, 0x37A), (0x10FC, 0x10FC), (0x1D2C, 0x1D6A), (0x1D78, 0x1D78),
    (0x1D9B, 0x1DBF), (0x2071, 0x2071), (0x207F, 0x207F), (0x2090, 0x209C), (0x2160, 0x217F),
    (0x2C7C, 0x2C7D), (0xA69C, 0xA69D), (0xA770, 0xA770), (0xA7F1, 0xA7F4), (0xA7F8, 0xA7F9),
    (0xAB5C, 0xAB5F), (0xAB69, 0xAB69), (0x10780, 0x10780), (0x10783, 0x10785),
    (0x10787, 0x107B0), (0x107B2, 0x107BA), (0x1E030, 0x1E06D)] c

/-- Characters that have a case. -/
def isCased (c : Char) : Bool :=
  match GeneralCategory.of c with
  | .Lu | .Ll | .Lt => true
  | _ => isOtherCased c || isEnclosedLetter c

/-- Characters that are skipped when the case of a neighbour is looked for: marks, modifiers,
format characters and the punctuation that stands inside words. -/
def isCaseIgnorable (c : Char) : Bool :=
  match GeneralCategory.of c with
  | .Mn | .Me | .Cf | .Lm | .Sk => true
  | _ =>
    inIntervals [(0x27, 0x27), (0x2E, 0x2E), (0x3A, 0x3A), (0xB7, 0xB7), (0x387, 0x387),
      (0x55F, 0x55F), (0x5F4, 0x5F4), (0x2018, 0x2019), (0x2024, 0x2024), (0x2027, 0x2027),
      (0xFE13, 0xFE13), (0xFE52, 0xFE52), (0xFE55, 0xFE55), (0xFF07, 0xFF07), (0xFF0E, 0xFF0E),
      (0xFF1A, 0xFF1A)] c

/-- Spacing marks and letters that extend the character before them like the marks without width. -/
def isSpacingExtension (c : Char) : Bool :=
  inIntervals [(0x9BE, 0x9BE), (0x9D7, 0x9D7), (0xB3E, 0xB3E), (0xB57, 0xB57), (0xBBE, 0xBBE),
    (0xBD7, 0xBD7), (0xCC0, 0xCC0), (0xCC2, 0xCC2), (0xCC7, 0xCC8), (0xCCA, 0xCCB),
    (0xCD5, 0xCD6), (0xD3E, 0xD3E), (0xD57, 0xD57), (0xDCF, 0xDCF), (0xDDF, 0xDDF),
    (0x1715, 0x1715), (0x1734, 0x1734), (0x1B35, 0x1B35), (0x1B3B, 0x1B3B), (0x1B3D, 0x1B3D),
    (0x1B43, 0x1B44), (0x1BAA, 0x1BAA), (0x1BF2, 0x1BF3), (0x302E, 0x302F), (0xA953, 0xA953),
    (0xA9C0, 0xA9C0), (0xFF9E, 0xFF9F), (0x111C0, 0x111C0), (0x11235, 0x11235),
    (0x1133E, 0x1133E), (0x1134D, 0x1134D), (0x11357, 0x11357), (0x113B8, 0x113B8),
    (0x113C2, 0x113C2), (0x113C5, 0x113C5), (0x113C7, 0x113C9), (0x113CF, 0x113CF),
    (0x114B0, 0x114B0), (0x114BD, 0x114BD), (0x115AF, 0x115AF), (0x116B6, 0x116B6),
    (0x11930, 0x11930), (0x1193D, 0x1193D), (0x11F41, 0x11F41), (0x16FF0, 0x16FF1),
    (0x1D165, 0x1D166), (0x1D16D, 0x1D172)] c

/-- Characters that stand for themselves in a quoted text: neither controls, separators other than
the space, private, unassigned nor combining. -/
def isPrintable (c : Char) : Bool :=
  if c.toNat < 128 then decide (32 ≤ c.toNat) && decide (c.toNat < 127)
  else
    match GeneralCategory.of c with
    | .Cc | .Cf | .Cs | .Co | .Cn | .Zs | .Zl | .Zp | .Mn | .Me => false
    | _ => !isSpacingExtension c

/-! ## Blanks and lines -/

/-- The text without blanks in front. -/
def trimStart (cs : List Char) : List Char := cs.dropWhile isBlank

/-- The text without blanks at the end. -/
def trimEnd (cs : List Char) : List Char := (cs.reverse.dropWhile isBlank).reverse

/-- The text without blanks at either end. -/
def trim (cs : List Char) : List Char := trimEnd (trimStart cs)

/-- The text without blanks at either end. -/
def trimText (s : String) : String := String.ofList (trim s.toList)

/-- The line in front of a text: up to its line feed, and what follows if there is one. -/
def firstLine (cs : List Char) : List Char × Option (List Char) :=
  match cs.dropWhile (· != '\n') with
  | [] => (cs, none)
  | _ :: rest =>
    let line := cs.takeWhile (· != '\n')
    (if line.getLast? = some '\r' then line.dropLast else line, some rest)

theorem firstLine_rest_length {cs line rest : List Char} (h : firstLine cs = (line, some rest)) :
    rest.length < cs.length := by
  unfold firstLine at h
  have hl : (cs.dropWhile (· != '\n')).length ≤ cs.length :=
    (List.dropWhile_suffix _).length_le
  split at h
  · simp at h
  · next hd =>
    rw [hd] at hl
    simp only [Prod.mk.injEq, Option.some.injEq] at h
    simp only [List.length_cons] at hl
    obtain ⟨-, rfl⟩ := h
    omega

/-- The lines of a text. A line ends with a line feed, before which a carriage return is dropped;
nothing follows the last one. -/
def lines (cs : List Char) : List (List Char) :=
  if cs = [] then []
  else
    match _h : firstLine cs with
    | (line, none) => [line]
    | (line, some rest) => line :: lines rest
termination_by cs.length
decreasing_by exact firstLine_rest_length _h

end FlowEngine.Text
