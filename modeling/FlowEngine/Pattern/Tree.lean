import FlowEngine.Pattern.CharSet

/-!
# Written patterns

What a pattern says before its flags are taken into account: a tree whose leaves are characters,
classes and anchors.

* `Tree` — a pattern as it is written.
* `SetTree` — a class of characters as it is written.
* `Tree.depth` — how deep the parts of a pattern are nested.
-/

namespace FlowEngine.Pattern

/-! ## Leaves -/

/-- What a pattern may ask of a place in a text. -/
inductive Anchor where
  | lineStart
  | lineEnd
  | textStart
  | textEnd
  | boundary
  | notBoundary
  | wordStart
  | wordEnd
  | wordStartHalf
  | wordEndHalf
  deriving DecidableEq, Inhabited

/-- A character. If it is written as a byte, with exactly two hexadecimal digits, it stands for that
byte where the pattern matches bytes. -/
structure Literal where
  char : Char
  byte : Bool
  deriving DecidableEq, Inhabited

/-- The classes that are named by one letter after a backslash. -/
inductive Shorthand where
  | digit
  | blank
  | word
  deriving DecidableEq, Inhabited

/-- A property of characters by its name, or a property that has a value. -/
inductive PropertyName where
  | plain (name : List Char)
  | valued (name value : List Char)
  deriving DecidableEq, Inhabited

/-- The operations between classes. -/
inductive SetOp where
  | inter
  | diff
  | symmDiff
  deriving DecidableEq, Inhabited

/-- The switches that change what a pattern means: letters match without regard to case, anchors
match at lines, the dot matches a line feed, repetitions prefer few rounds, classes know all
characters, lines end with a carriage return too, blanks in the pattern do not count. -/
inductive Flag where
  | caseless
  | multiline
  | dotAll
  | swapGreed
  | unicode
  | crlf
  | spaced
  deriving DecidableEq, Inhabited

/-- A flag that is set or cleared. -/
structure FlagChange where
  flag : Flag
  on : Bool
  deriving DecidableEq, Inhabited

/-! ## Trees -/

/-- A class of characters as it is written. -/
inductive SetTree where
  | nothing
  | literal (l : Literal)
  | range (first last : Literal)
  | posix (negated : Bool) (members : CharSet)
  | shorthand (negated : Bool) (class_ : Shorthand)
  | property (negated : Bool) (name : PropertyName)
  | bracketed (negated : Bool) (body : SetTree)
  | union (items : List SetTree)
  | operation (op : SetOp) (a b : SetTree)
  deriving Inhabited

/-- A pattern as it is written. A repetition without an upper bound has `none`; flags that are not
those of a group hold up to the end of the group around them. -/
inductive Tree where
  | empty
  | flags (changes : List FlagChange)
  | literal (l : Literal)
  | dot
  | anchor (a : Anchor)
  | set (s : SetTree)
  | repeated (body : Tree) (least : Nat) (most : Option Nat)
  | capture (body : Tree)
  | flagged (changes : List FlagChange) (body : Tree)
  | sequence (items : List Tree)
  | choice (branches : List Tree)
  deriving Inhabited

/-- The classes of a list as one. -/
def SetTree.ofItems : List SetTree → SetTree
  | [] => .nothing
  | [s] => s
  | items => .union items

/-- Patterns that follow each other. -/
def Tree.ofItems : List Tree → Tree
  | [] => .empty
  | [t] => t
  | items => .sequence items

/-- Patterns to choose from. -/
def Tree.ofBranches : List Tree → Tree
  | [] => .empty
  | [t] => t
  | branches => .choice branches

/-! ## Depth -/

namespace SetTree

mutual

/-- How deep a class is nested. -/
def depth : SetTree → Nat
  | bracketed _ body => body.depth + 1
  | union items => depthAll items + 1
  | operation _ a b => max a.depth b.depth + 1
  | _ => 0

/-- How deep the deepest class of a list is nested. -/
def depthAll : List SetTree → Nat
  | [] => 0
  | s :: rest => max s.depth (depthAll rest)

end

end SetTree

namespace Tree

mutual

/-- How deep a pattern is nested: brackets, repetitions, groups, sequences and choices count. -/
def depth : Tree → Nat
  | set s => s.depth
  | repeated body _ _ => body.depth + 1
  | capture body => body.depth + 1
  | flagged _ body => body.depth + 1
  | sequence items => depthAll items + 1
  | choice branches => depthAll branches + 1
  | _ => 0

/-- How deep the deepest pattern of a list is nested. -/
def depthAll : List Tree → Nat
  | [] => 0
  | t :: rest => max t.depth (depthAll rest)

end

end Tree

end FlowEngine.Pattern
