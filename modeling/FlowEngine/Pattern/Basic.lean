import FlowEngine.Pattern.CharSet
import Std.Data.HashSet

/-!
# Patterns and what they match

A pattern is a regular expression with assertions. Matching follows all ways to match at once: a
state is what is still to be matched, and reading a character replaces each state by its partial
derivatives.

* `Regex.nullable` — whether a pattern matches the empty text between two characters.
* `Regex.derivatives` — what is left to match after a character.
* `Regex.isMatch` — whether a pattern matches anywhere in a text.
-/

namespace FlowEngine.Pattern

/-! ## Assertions -/

/-- Assertions about a place in a text. A line ends before a line feed, or before a carriage return
too. -/
inductive Assertion where
  | textStart
  | textEnd
  | lineStart
  | lineEnd
  | returnLineStart
  | returnLineEnd
  | boundary (w : CharSet)
  | notBoundary (w : CharSet)
  | wordStart (w : CharSet)
  | wordEnd (w : CharSet)
  | wordStartHalf (w : CharSet)
  | wordEndHalf (w : CharSet)
  deriving DecidableEq, Hashable, Inhabited

/-- A place in a text: the character before it and the one after it. -/
structure Place where
  before : Option Char
  after : Option Char

/-- Whether a neighbour belongs to a set. -/
def neighbour (set : CharSet) : Option Char → Bool
  | some c => set.contains c
  | none => false

/-- Whether an assertion holds at a place. A carriage return and a line feed end a line together,
and there is no line between them. -/
def Assertion.holds (p : Place) : Assertion → Bool
  | .textStart => p.before.isNone
  | .textEnd => p.after.isNone
  | .lineStart => p.before.isNone || p.before == some '\n'
  | .lineEnd => p.after.isNone || p.after == some '\n'
  | .returnLineStart =>
    p.before.isNone || p.before == some '\n' || (p.before == some '\r' && p.after != some '\n')
  | .returnLineEnd =>
    p.after.isNone || p.after == some '\r' || (p.after == some '\n' && p.before != some '\r')
  | .boundary w => neighbour w p.before != neighbour w p.after
  | .notBoundary w => neighbour w p.before == neighbour w p.after
  | .wordStart w => !neighbour w p.before && neighbour w p.after
  | .wordEnd w => neighbour w p.before && !neighbour w p.after
  | .wordStartHalf w => !neighbour w p.before
  | .wordEndHalf w => !neighbour w p.after

/-! ## Expressions -/

/-- Regular expressions with assertions. A repetition without an upper bound has `none`. A captured
part matches what it would match alone. -/
inductive Regex where
  | empty
  | set (set : CharSet)
  | look (assertion : Assertion)
  | seq (a b : Regex)
  | alt (a b : Regex)
  | rep (least : Nat) (most : Option Nat) (a : Regex)
  | capture (a : Regex)
  deriving DecidableEq, Hashable, Inhabited

namespace Regex

/-- A sequence; an empty part is left out. -/
def andThen (a b : Regex) : Regex :=
  match a, b with
  | empty, b => b
  | a, empty => a
  | a, b => seq a b

/-! ## Matching -/

/-- Whether the empty text at a place matches. -/
def nullable (p : Place) : Regex → Bool
  | empty => true
  | set _ => false
  | look a => a.holds p
  | seq a b => a.nullable p && b.nullable p
  | alt a b => a.nullable p || b.nullable p
  | rep least _ a => least == 0 || a.nullable p
  | capture a => a.nullable p

/-- What is left of a repetition after one round of it. If a round may be empty here, the rounds
that are still required can be made up by empty ones. -/
def nextRound (p : Place) (least : Nat) (most : Option Nat) (a : Regex) : Regex :=
  rep (if a.nullable p then 0 else least - 1) (most.map (· - 1)) a

/-- What may be left to match after the character `c` at a place. -/
def derivatives (p : Place) (c : Char) : Regex → List Regex
  | empty => []
  | look _ => []
  | set s => if s.contains c then [empty] else []
  | seq a b =>
    (a.derivatives p c).map (·.andThen b) ++ (if a.nullable p then b.derivatives p c else [])
  | alt a b => a.derivatives p c ++ b.derivatives p c
  | rep least most a =>
    if most = some 0 then []
    else (a.derivatives p c).map (·.andThen (nextRound p least most a))
  | capture a => a.derivatives p c

/-- The states without repetitions, in no particular order. -/
def distinct (states : List Regex) : List Regex := (Std.HashSet.ofList states).toList

/-- Whether one of the states, or the pattern started here or later, matches up to some place of the
rest of the text. -/
def search (r : Regex) (states : List Regex) (before : Option Char) : List Char → Bool
  | [] => (r :: states).any (·.nullable ⟨before, none⟩)
  | c :: rest =>
    let p : Place := ⟨before, some c⟩
    let states := r :: states
    states.any (·.nullable p) ||
      search r (distinct (states.flatMap (·.derivatives p c))) (some c) rest

/-- Whether the pattern matches anywhere in a text. -/
def isMatch (r : Regex) (text : String) : Bool := search r [] none text.toList

end Regex

end FlowEngine.Pattern
