import FlowEngine.Text.CaseTable

/-!
# Sets of characters

A set of characters is kept as the closed intervals of its code points, in order and with gaps
between them. Surrogates are no characters, and no set holds them.

* `CharSet.contains` — membership.
* `CharSet.union`, `compl`, `inter`, `diff`, `symmDiff` — the operations on sets.
* `CharSet.caseless` — a set with all characters that differ from a member by case only.
-/

namespace FlowEngine.Pattern

open FlowEngine.Text

/-- A set of characters: closed intervals of code points in order, with gaps between them. -/
structure CharSet where
  intervals : List (Nat × Nat)
  deriving Inhabited

/-- Sets that are one object are equal without a look at their intervals. -/
instance : DecidableEq CharSet := fun a b =>
  withPtrEqDecEq a b fun _ =>
    if h : a.intervals = b.intervals then
      .isTrue (by cases a; cases b; cases h; rfl)
    else .isFalse fun e => h (e ▸ rfl)

/-- Sets are told apart quickly by where they begin. -/
instance : Hashable CharSet := ⟨fun s => hash s.intervals.head?⟩

namespace CharSet

/-! ## Intervals -/

/-- Joins intervals that overlap or touch, given in the order of their beginnings, to the one before
them. -/
def joinFrom (lo hi : Nat) : List (Nat × Nat) → List (Nat × Nat)
  | [] => [(lo, hi)]
  | (a, b) :: rest =>
    if a ≤ hi + 1 then joinFrom lo (max hi b) rest else (lo, hi) :: joinFrom a b rest

/-- Joins intervals that overlap or touch. -/
def join (intervals : List (Nat × Nat)) : List (Nat × Nat) :=
  match intervals.mergeSort fun a b => decide (a.1 ≤ b.1) with
  | [] => []
  | (lo, hi) :: rest => joinFrom lo hi rest

/-- What lies between intervals, from a code point up to the last one. -/
def gapsFrom (start : Nat) : List (Nat × Nat) → List (Nat × Nat)
  | [] => if start ≤ 0x10FFFF then [(start, 0x10FFFF)] else []
  | (lo, hi) :: rest =>
    if start < lo then (start, lo - 1) :: gapsFrom (hi + 1) rest else gapsFrom (hi + 1) rest

/-! ## Operations -/

/-- Whether a character belongs to a set. -/
def contains (s : CharSet) (c : Char) : Bool :=
  s.intervals.any fun (lo, hi) => decide (lo ≤ c.toNat) && decide (c.toNat ≤ hi)

/-- Whether a set has no members. -/
def isEmpty (s : CharSet) : Bool := s.intervals.isEmpty

/-- The characters that do not belong to a set. -/
def compl (s : CharSet) : CharSet := ⟨gapsFrom 0 (join ((0xD800, 0xDFFF) :: s.intervals))⟩

/-- The set of no characters. -/
def nothing : CharSet := ⟨[]⟩

/-- The set of all characters. -/
def any : CharSet := compl nothing

/-- The members of either set. -/
def union (a b : CharSet) : CharSet := ⟨join (a.intervals ++ b.intervals)⟩

/-- The members of both sets. -/
def inter (a b : CharSet) : CharSet := compl (union (compl a) (compl b))

/-- The members of the first set that are not in the second one. -/
def diff (a b : CharSet) : CharSet := inter a (compl b)

/-- The members of exactly one of two sets. -/
def symmDiff (a b : CharSet) : CharSet := diff (union a b) (inter a b)

/-- The union of some sets. -/
def unions (sets : List CharSet) : CharSet := ⟨join (sets.flatMap CharSet.intervals)⟩

/-- The characters of some closed intervals of code points. -/
def ofIntervals (intervals : List (Nat × Nat)) : CharSet :=
  diff ⟨join intervals⟩ ⟨[(0xD800, 0xDFFF)]⟩

/-- The characters from one to another. -/
def interval (first last : Char) : CharSet := ofIntervals [(first.toNat, last.toNat)]

/-- The set of one character. -/
def single (c : Char) : CharSet := ⟨[(c.toNat, c.toNat)]⟩

/-- The only member of a set that has one. -/
def single? (s : CharSet) : Option Char :=
  match s.intervals with
  | [(lo, hi)] => if lo = hi then some (Char.ofNat lo) else none
  | _ => none

/-- Whether all members are ASCII characters. -/
def isAscii (s : CharSet) : Bool := s.intervals.all fun i => decide (i.2 < 128)

/-! ## Case -/

/-- A set with the images of its members under some spans. -/
def withImages (spans : List CaseSpan) (s : CharSet) : CharSet :=
  ⟨join (s.intervals ++
    spans.flatMap fun span => s.intervals.flatMap fun (lo, hi) => span.imagesBetween lo hi)⟩

/-- A set with all characters whose images under some spans are members. -/
def withSources (spans : List CaseSpan) (s : CharSet) : CharSet :=
  ⟨join (s.intervals ++
    spans.flatMap fun span => s.intervals.flatMap fun (lo, hi) => span.sourcesBetween lo hi)⟩

/-- The set with all characters that differ from a member by case only. -/
def caseless (s : CharSet) : CharSet := (s.withImages foldSpans).withSources foldSpans

/-- The case of the letters `A` to `Z`. -/
def asciiSpans : List CaseSpan := [⟨65, 90, 1, 32⟩]

/-- The set with all characters that differ from a member by the case of an ASCII letter only. -/
def asciiCaseless (s : CharSet) : CharSet := (s.withImages asciiSpans).withSources asciiSpans

/-! ## Written sets -/

/-- The intervals of a text: the gap before each, and after a plus sign its length unless it is one.
The first gap is counted from `start`. -/
def readIntervals (start : Nat) : List String → List (Nat × Nat)
  | [] => []
  | word :: rest =>
    let (gap, length) := match word.splitOn "+" with
      | [g, n] => (g.toNat?.getD 0, n.toNat?.getD 1)
      | _ => (word.toNat?.getD 0, 1)
    let lo := start + gap
    (lo, lo + length - 1) :: readIntervals (lo + length) rest

/-- The set of a text of gaps and lengths. -/
def ofText (text : String) : CharSet := ⟨readIntervals 0 (text.splitOn " ")⟩

/-- The set under a name in a table; an entry lists its names. -/
def named? (table : List (String × String)) (name : String) : Option CharSet :=
  (table.find? fun e => (e.1.splitOn " ").contains name).map fun e => ofText e.2

end CharSet

end FlowEngine.Pattern
