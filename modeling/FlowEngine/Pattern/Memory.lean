import FlowEngine.Pattern.Basic

/-!
# The memory of a pattern

A pattern is kept as an automaton over bytes, once to run forwards and once to run backwards.
Counted repetitions are written out, so that short patterns may take much memory.

* `CharSet.sequences` — the encoded characters of a set, as sequences of byte ranges: one byte from each
  range of a sequence makes a character of the set, and each character is made by one sequence.
* `continuations`, `beginnings` — how many parts of sequences can be told apart, from either end.
* `Regex.size` — the memory of the automaton in one direction.
* `Regex.bytes` — the larger of the two.
-/

namespace FlowEngine.Pattern

/-- A closed interval of bytes. -/
abbrev ByteRange := Nat × Nat

/-! ## Sequences -/

/-- Cuts an interval so that each part lies within one block of some size or consists of whole
blocks. -/
def cutBlocks (size : Nat) (i : Nat × Nat) : List (Nat × Nat) :=
  let (lo, hi) := i
  if lo / size = hi / size then [(lo, hi)]
  else
    let first := (lo + size - 1) / size * size
    let last := (hi + 1) / size * size
    ([(lo, first), (first, last), (last, hi + 1)].filter fun (a, b) => decide (a < b)).map
      fun (a, b) => (a, b - 1)

/-- Cuts an interval before a code point inside it. -/
def cutBefore (n : Nat) (i : Nat × Nat) : List (Nat × Nat) :=
  if i.1 < n ∧ n ≤ i.2 then [(i.1, n - 1), (n, i.2)] else [i]

/-- Cuts an interval into parts whose characters differ, byte by byte, by what lies between the
bytes of the first and the last one. -/
def evenParts (i : Nat × Nat) : List (Nat × Nat) :=
  if i.2 < 0x80 then [i]
  else ((cutBlocks 0x40 i).flatMap (cutBlocks 0x1000)).flatMap (cutBlocks 0x40000)

/-- The bytes of a code point. -/
def encoded (n : Nat) : List Nat := (String.utf8EncodeChar (Char.ofNat n)).map UInt8.toNat

/-- The sequences of byte ranges that make the characters of a set, in order. -/
def CharSet.sequences (s : CharSet) : List (List ByteRange) :=
  ((((s.intervals.flatMap (cutBefore 0x80)).flatMap (cutBefore 0x800)).flatMap
    (cutBefore 0x10000)).flatMap evenParts).map fun (lo, hi) => (encoded lo).zip (encoded hi)

/-! ## Common parts -/

/-- Sequences by their first range: what follows each range, without those that end there. -/
def followers (seqs : List (List ByteRange)) : List (List (List ByteRange)) :=
  (seqs.splitBy fun a b => a.head? == b.head?).map fun group =>
    (group.map (·.drop 1)).filter (!·.isEmpty)

/-- What can follow some bytes of the sequences; the first argument bounds the number of bytes. -/
def continuations : Nat → List (List ByteRange) → List (List (List ByteRange))
  | 0, _ => []
  | n + 1, seqs =>
    if seqs.isEmpty then [] else seqs :: (followers seqs).flatMap (continuations n)

/-- The number of different beginnings of the sequences; the first argument bounds their length. -/
def beginnings : Nat → List (List ByteRange) → Nat
  | 0, _ => 0
  | n + 1, seqs => (followers seqs).foldl (fun k rest => k + 1 + beginnings n rest) 0

/-! ## States -/

/-- The direction in which an automaton reads a text. -/
inductive Direction where
  | forwards
  | backwards
  deriving DecidableEq, Inhabited

/-- The bytes of a state. -/
def stateBytes : Nat := 32

/-- The bytes of one transition of a state that has several on characters. -/
def transitionBytes : Nat := 8

/-- The bytes of one branch of a state that reads nothing. -/
def branchBytes : Nat := 4

/-- The bytes of a state with one transition for each of some intervals. -/
def sparseBytes (intervals : Nat) : Nat := stateBytes + transitionBytes * intervals

/-! ## Sets -/

/-- The bytes of a set. Forwards, states are shared if the same can follow them, and backwards if
the same bytes have led to them. -/
def CharSet.bytes (d : Direction) (s : CharSet) : Nat :=
  if s.single?.isSome then s.sequences.foldl (fun n seq => n + stateBytes * seq.length) 0
  else if s.isAscii then stateBytes + sparseBytes s.intervals.length
  else
    match d with
    | .forwards =>
      let states := (continuations 4 s.sequences).eraseDups
      states.foldl (fun n seqs => n + sparseBytes (followers seqs).length) stateBytes
    | .backwards =>
      2 * stateBytes + branchBytes * s.sequences.length + stateBytes * beginnings 4 s.sequences

/-! ## Patterns -/

/-- The size of an automaton: its bytes, and whether its last state branches. Such a state takes one
branch more where something follows. -/
structure Size where
  bytes : Nat
  branching : Bool

namespace Size

/-- The bytes of an automaton with something behind it. -/
def followed (s : Size) : Nat := s.bytes + if s.branching then branchBytes else 0

/-- The size of two automata, one behind the other. -/
def andThen (a b : Size) : Size := ⟨a.followed + b.bytes, b.branching⟩

/-- The size of some copies of an automaton, one behind the other. -/
def times (n : Nat) (s : Size) : Size :=
  match n with
  | 0 => ⟨stateBytes, false⟩
  | n + 1 => ⟨n * s.followed + s.bytes, s.branching⟩

/-- The size of an optional automaton. -/
def optional (s : Size) : Size := ⟨s.followed + 2 * stateBytes + 2 * branchBytes, false⟩

/-- The size of copies of an automaton of which all after the first `least` may be left out. -/
def counted (least most : Nat) (s : Size) : Size :=
  if least = most then s.times least
  else
    let more := s.followed + stateBytes + 2 * branchBytes
    ⟨(s.times least).followed + stateBytes + (most - least) * more, false⟩

/-- The size of an automaton that runs at least some times. `consuming` tells that every run reads
something. -/
def unbounded (least : Nat) (consuming : Bool) (s : Size) : Size :=
  match least with
  | 0 =>
    if consuming then ⟨s.followed + stateBytes + branchBytes, true⟩
    else ⟨s.followed + 3 * stateBytes + 4 * branchBytes, false⟩
  | 1 => ⟨s.followed + stateBytes + branchBytes, true⟩
  | n + 2 => ⟨(s.times (n + 1)).followed + s.followed + stateBytes + branchBytes, true⟩

end Size

namespace Regex

/-- Whether every match of a pattern reads something. -/
def isConsuming : Regex → Bool
  | empty => false
  | look _ => false
  | set s => !s.isEmpty
  | seq a b => a.isConsuming || b.isConsuming
  | alt a b => a.isConsuming && b.isConsuming
  | rep least _ a => least != 0 && a.isConsuming
  | capture a => a.isConsuming

/-- The bytes of a branch of a choice. A choice in a choice is part of the outer one. -/
def branch (r : Regex) (s : Size) : Nat :=
  match r with
  | alt _ _ => s.bytes
  | _ => s.followed + branchBytes

/-- The size of the automaton of a pattern. `inner` tells that the pattern is a branch of a choice,
whose states are counted once. -/
def size (d : Direction) (inner : Bool) : Regex → Size
  | empty => ⟨stateBytes, false⟩
  | look _ => ⟨stateBytes, false⟩
  | set s => ⟨s.bytes d, false⟩
  | seq a b =>
    match d with
    | .forwards => (a.size d false).andThen (b.size d false)
    | .backwards => (b.size d false).andThen (a.size d false)
  | alt a b =>
    ⟨a.branch (a.size d true) + b.branch (b.size d true) + if inner then 0 else 2 * stateBytes,
      false⟩
  | rep least most a =>
    let s := a.size d false
    match least, most with
    | 0, some 1 => s.optional
    | least, some most => s.counted least most
    | least, none => s.unbounded least a.isConsuming
  | capture a =>
    match d with
    | .forwards => ⟨(a.size d false).followed + 2 * stateBytes, false⟩
    | .backwards => a.size d false

/-- The bytes of a whole automaton, which begins with a loop over the text in front of a match and
ends with the state of success. -/
def automatonBytes (d : Direction) (r : Regex) : Nat :=
  let loop : Size := ⟨2 * stateBytes + sparseBytes 1 + 2 * branchBytes, true⟩
  let whole := match d with
    | .forwards => r.capture
    | .backwards => r
  (loop.andThen ((whole.size d false).andThen ⟨stateBytes, false⟩)).bytes

/-- The bytes that a pattern takes in the direction that needs more. -/
def bytes (r : Regex) : Nat := max (r.automatonBytes .forwards) (r.automatonBytes .backwards)

end Regex

end FlowEngine.Pattern
