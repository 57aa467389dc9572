import FlowEngine.Pattern.Basic
import FlowEngine.Pattern.Property
import FlowEngine.Pattern.Tree

/-!
# The meaning of written patterns

What a written pattern matches under the flags that hold at each of its parts. A pattern that is
written well may still have no meaning: a property may be unknown, and where classes know ASCII
only, nothing may match a part of a character.

* `SetTree.members?` — the characters of a class.
* `Tree.meaning?` — the regular expression of a pattern.
-/

namespace FlowEngine.Pattern

/-! ## Flags -/

/-- The flags in force, as far as they change which texts match. -/
structure Flags where
  caseless : Bool
  multiline : Bool := false
  dotAll : Bool := false
  crlf : Bool := false
  unicode : Bool := true
  deriving DecidableEq, Inhabited

namespace Flags

/-- The flags after one of them is set or cleared. -/
def change (f : Flags) (c : FlagChange) : Flags :=
  match c.flag with
  | .caseless => { f with caseless := c.on }
  | .multiline => { f with multiline := c.on }
  | .dotAll => { f with dotAll := c.on }
  | .crlf => { f with crlf := c.on }
  | .unicode => { f with unicode := c.on }
  | .swapGreed | .spaced => f

/-- The flags after some changes. -/
def changes (f : Flags) (cs : List FlagChange) : Flags := cs.foldl change f

/-- A set with the characters that differ by case only, if case does not matter. -/
def fold (f : Flags) (s : CharSet) : CharSet :=
  if f.caseless then (if f.unicode then s.caseless else s.asciiCaseless) else s

/-- A set or its complement. Where classes know ASCII only, they hold ASCII characters only. -/
def polar? (f : Flags) (negated : Bool) (s : CharSet) : Option CharSet :=
  let s := if negated then s.compl else s
  if f.unicode || s.isAscii then some s else none

/-- The characters of a class with a letter of its own. -/
def shorthand (f : Flags) : Shorthand → CharSet
  | .digit => if f.unicode then .digit else .asciiDigit
  | .blank => if f.unicode then .blank else .asciiBlank
  | .word => if f.unicode then .word else .asciiWord

/-- The assertion of an anchor. -/
def assertion (f : Flags) : Anchor → Assertion
  | .lineStart =>
    if !f.multiline then .textStart else if f.crlf then .returnLineStart else .lineStart
  | .lineEnd => if !f.multiline then .textEnd else if f.crlf then .returnLineEnd else .lineEnd
  | .textStart => .textStart
  | .textEnd => .textEnd
  | .boundary => .boundary (f.shorthand .word)
  | .notBoundary => .notBoundary (f.shorthand .word)
  | .wordStart => .wordStart (f.shorthand .word)
  | .wordEnd => .wordEnd (f.shorthand .word)
  | .wordStartHalf => .wordStartHalf (f.shorthand .word)
  | .wordEndHalf => .wordEndHalf (f.shorthand .word)

/-- The characters that the dot stands for. -/
def dot (f : Flags) : CharSet :=
  if f.dotAll then .any
  else .compl (.unions (if f.crlf then [.single '\r', .single '\n'] else [.single '\n']))

/-- The characters that a literal stands for. Without Unicode, a byte beyond ASCII is only a part of
a character, and letters beyond ASCII have no case. -/
def literal? (f : Flags) (l : Literal) : Option CharSet :=
  let s := CharSet.single l.char
  if f.unicode || s.isAscii then some (f.fold s) else if l.byte then none else some s

end Flags

/-! ## Classes -/

/-- The characters of a property. -/
def PropertyName.members? : PropertyName → Option CharSet
  | .plain name => CharSet.ofProperty? name
  | .valued name value => CharSet.ofValue? name value

/-- The result of an operation. -/
def SetOp.apply : SetOp → CharSet → CharSet → CharSet
  | .inter, a, b => .inter a b
  | .diff, a, b => .diff a b
  | .symmDiff, a, b => .symmDiff a b

namespace SetTree

mutual

/-- The characters of a class. Case is disregarded before a class is negated and before an
operation, and the classes with a letter of their own hold both cases anyway. -/
def members? (f : Flags) : SetTree → Option CharSet
  | nothing => some .nothing
  | literal l => f.polar? false (.single l.char)
  | range a b => f.polar? false (.interval a.char b.char)
  | posix negated s => f.polar? negated (f.fold s)
  | shorthand negated s => f.polar? negated (f.shorthand s)
  | property negated name =>
    if f.unicode then name.members?.bind fun s => f.polar? negated (f.fold s) else none
  | bracketed negated body => do f.polar? negated (f.fold (← body.members? f))
  | union items => do some (.unions (← membersOfAll? f items))
  | operation op a b => do
    let a ← a.members? f
    let b ← b.members? f
    some (op.apply (f.fold a) (f.fold b))

/-- The characters of each class of a list. -/
def membersOfAll? (f : Flags) : List SetTree → Option (List CharSet)
  | [] => some []
  | s :: rest => do
    let s ← s.members? f
    let rest ← membersOfAll? f rest
    some (s :: rest)

end

end SetTree

/-! ## Patterns -/

namespace Regex

/-- Whether a pattern matches no text but the empty one. -/
def isZeroWidth : Regex → Bool
  | empty => true
  | look _ => true
  | set _ => false
  | seq a b => a.isZeroWidth && b.isZeroWidth
  | alt a b => a.isZeroWidth && b.isZeroWidth
  | rep _ _ a => a.isZeroWidth
  | capture a => a.isZeroWidth

/-- A repetition. Rounds of what matches the empty text only are all alike, so that one is enough;
no round at all and a single one need no repetition. -/
def repeated (least : Nat) (most : Option Nat) (a : Regex) : Regex :=
  let (least, most) :=
    if a.isZeroWidth then (min least 1, some (min (most.getD 1) 1)) else (least, most)
  if most = some 0 then empty else if least = 1 ∧ most = some 1 then a else rep least most a

/-- A choice; characters to choose from are one set. -/
def choice : List Regex → Regex
  | [] => empty
  | [r] => r
  | r :: rest =>
    match r, choice rest with
    | set a, set b => set (.union a b)
    | a, b => alt a b

end Regex

namespace Tree

mutual

/-- The regular expression of a pattern, and the flags that hold after it. -/
def meaning? (f : Flags) : Tree → Option (Regex × Flags)
  | empty => some (.empty, f)
  | flags changes => some (.empty, f.changes changes)
  | literal l => do some (.set (← f.literal? l), f)
  | dot => if f.unicode then some (.set f.dot, f) else none
  | anchor a => some (.look (f.assertion a), f)
  | set s => do some (.set (← s.members? f), f)
  | repeated body least most => do
    let (r, _) ← body.meaning? f
    some (.repeated least most r, f)
  | capture body => do
    let (r, _) ← body.meaning? f
    some (.capture r, f)
  | flagged changes body => do
    let (r, _) ← body.meaning? (f.changes changes)
    some (r, f)
  | sequence items => do
    let (rs, f) ← meanings? f items
    some (rs.foldr Regex.andThen .empty, f)
  | choice branches => do
    let (rs, f) ← meanings? f branches
    some (.choice rs, f)

/-- The regular expressions of patterns under the flags that each leaves to the next. -/
def meanings? (f : Flags) : List Tree → Option (List Regex × Flags)
  | [] => some ([], f)
  | t :: rest => do
    let (r, f) ← t.meaning? f
    let (rs, f) ← meanings? f rest
    some (r :: rs, f)

end

end Tree

end FlowEngine.Pattern
