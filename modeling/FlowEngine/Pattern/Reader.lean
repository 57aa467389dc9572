import FlowEngine.Json.Reader
import FlowEngine.Pattern.Property
import FlowEngine.Pattern.Tree

/-!
# Reading patterns

The written form of patterns: literals, classes in brackets with set operations, groups, flags,
repetitions, assertions and named properties. There is neither look-around nor back reference. Where
blanks do not count, comments do not either: a comment goes from a number sign to the end of its
line.

* `Tree.read?` — the tree of a text, if it is a pattern.
-/

namespace FlowEngine.Pattern

open FlowEngine.Json (hexValue?)

/-! ## Blanks -/

/-- Drops blanks and comments if they do not count. -/
def skipSpaced (spaced : Bool) (cs : List Char) : List Char :=
  if spaced then go cs.length cs else cs
where
  /-- A run of blanks and a comment a step; the first argument bounds their number. -/
  go : Nat → List Char → List Char
    | 0, cs => cs
    | fuel + 1, cs =>
      match cs.dropWhile Text.isBlank with
      | '#' :: rest => go fuel (rest.dropWhile (· != '\n'))
      | cs => cs

/-- The character that a hyphen of a class is followed by. Where blanks do not count, they are
passed over together with one number sign, unless nothing else follows. -/
def afterHyphen? (spaced : Bool) (cs : List Char) : Option Char :=
  if spaced then
    let found := match cs.dropWhile Text.isBlank with
      | '#' :: rest => rest.dropWhile Text.isBlank
      | rest => rest
    found.head?.or cs.head?
  else cs.head?

/-! ## Escapes -/

/-- What an escape stands for. -/
inductive Escape where
  | literal (l : Literal)
  | set (s : SetTree)
  | anchor (a : Anchor)

/-- The character with a code in hexadecimal. -/
def charOfHex? (digits : List Char) : Option Char := do
  if digits.isEmpty then none
  else
    let n ← digits.foldlM (fun n c => (hexValue? c).map (16 * n + ·)) 0
    if n < 0x110000 ∧ ¬(0xD800 ≤ n ∧ n < 0xE000) then some (Char.ofNat n) else none

/-- As many digits as are asked for, with blanks between them where they do not count. -/
def fixedDigits? (spaced : Bool) : Nat → List Char → Option (List Char × List Char)
  | 0, cs => some ([], cs)
  | _ + 1, [] => none
  | n + 1, c :: rest =>
    (fixedDigits? spaced n (skipSpaced spaced rest)).map fun (ds, rest) => (c :: ds, rest)

/-- The text up to a closing brace, without the blanks that do not count, and what follows the
brace; the first argument bounds the number of characters. -/
def braced? (spaced : Bool) : Nat → List Char → Option (List Char × List Char)
  | 0, _ => none
  | fuel + 1, cs =>
    match skipSpaced spaced cs with
    | [] => none
    | '\x7d' :: rest => some ([], rest)
    | c :: rest => (braced? spaced fuel rest).map fun (text, rest) => (c :: text, rest)

/-- A character by its code in hexadecimal: in braces, or with a fixed number of digits. -/
def hexEscape? (spaced : Bool) (width : Nat) (cs : List Char) : Option (Literal × List Char) :=
  match skipSpaced spaced cs with
  | '\x7b' :: cs => do
    let (ds, rest) ← braced? spaced (cs.length + 1) cs
    let c ← charOfHex? ds
    some (⟨c, false⟩, rest)
  | cs => do
    let (ds, rest) ← fixedDigits? spaced width cs
    let c ← charOfHex? ds
    some (⟨c, width == 2⟩, rest)

/-- The parts of a text around its first separator. -/
def cutAt? (separator : List Char) : List Char → Option (List Char × List Char)
  | [] => none
  | c :: rest =>
    if separator.isPrefixOf (c :: rest) then some ([], (c :: rest).drop separator.length)
    else (cutAt? separator rest).map fun (a, b) => (c :: a, b)

/-- A property in braces: its name, or a name and a value with a sign between them. The sign for
another value reads like the others. -/
def PropertyName.ofText (text : List Char) : PropertyName :=
  match ((cutAt? ['!', '='] text).or (cutAt? [':'] text)).or (cutAt? ['='] text) with
  | some (name, value) => .valued name value
  | none => .plain text

/-- A property after its letter: one letter, or a name in braces. -/
def propertyEscape? (spaced : Bool) (cs : List Char) : Option (PropertyName × List Char) :=
  match skipSpaced spaced cs with
  | '\x7b' :: cs =>
    (braced? spaced (cs.length + 1) cs).map fun (text, rest) => (.ofText text, rest)
  | '\\' :: _ => none
  | c :: rest => some (.plain [c], rest)
  | [] => none

/-- The word boundaries that have a name. -/
def Anchor.named? (name : List Char) : Option Anchor :=
  match String.ofList name with
  | "start" => some .wordStart
  | "end" => some .wordEnd
  | "start-half" => some .wordStartHalf
  | "end-half" => some .wordEndHalf
  | _ => none

/-- Letters and hyphens, without the blanks that do not count; the first argument bounds their
number. -/
def boundaryName (spaced : Bool) : Nat → List Char → List Char × List Char
  | 0, cs => ([], cs)
  | fuel + 1, cs =>
    match cs with
    | c :: rest =>
      if c.isAlpha || c == '-' then
        let (name, rest) := boundaryName spaced fuel (skipSpaced spaced rest)
        (c :: name, rest)
      else ([], cs)
    | [] => ([], cs)

/-- A word boundary after its letter. A brace with something else than a name belongs to a counted
repetition. -/
def boundary? (spaced : Bool) (cs : List Char) : Option (Anchor × List Char) :=
  match cs with
  | '\x7b' :: inner =>
    match boundaryName spaced inner.length (skipSpaced spaced inner) with
    | (_, []) => none
    | ([], _) => some (.boundary, cs)
    | (name, '\x7d' :: rest) => (Anchor.named? name).map (·, rest)
    | _ => none
  | cs => some (.boundary, cs)

/-- An escape after its backslash. Signs stand for themselves, except angles. -/
def escape? (spaced : Bool) : List Char → Option (Escape × List Char)
  | [] => none
  | c :: rest =>
    let literal (c : Char) : Option (Escape × List Char) := some (.literal ⟨c, false⟩, rest)
    let hex (width : Nat) : Option (Escape × List Char) :=
      (hexEscape? spaced width rest).map fun (l, rest) => (.literal l, rest)
    let property (negated : Bool) : Option (Escape × List Char) :=
      (propertyEscape? spaced rest).map fun (name, rest) => (.set (.property negated name), rest)
    let shorthand (negated : Bool) (s : Shorthand) : Option (Escape × List Char) :=
      some (.set (.shorthand negated s), rest)
    match c with
    | 'd' => shorthand false .digit
    | 'D' => shorthand true .digit
    | 's' => shorthand false .blank
    | 'S' => shorthand true .blank
    | 'w' => shorthand false .word
    | 'W' => shorthand true .word
    | 'p' => property false
    | 'P' => property true
    | 'x' => hex 2
    | 'u' => hex 4
    | 'U' => hex 8
    | 'a' => literal (Char.ofNat 7)
    | 'f' => literal (Char.ofNat 12)
    | 't' => literal '\t'
    | 'n' => literal '\n'
    | 'r' => literal '\r'
    | 'v' => literal (Char.ofNat 11)
    | 'A' => some (.anchor .textStart, rest)
    | 'z' => some (.anchor .textEnd, rest)
    | '<' => some (.anchor .wordStart, rest)
    | '>' => some (.anchor .wordEnd, rest)
    | 'B' => some (.anchor .notBoundary, rest)
    | 'b' => (boundary? spaced rest).map fun (a, rest) => (.anchor a, rest)
    | c => if c.toNat < 128 ∧ !c.isAlphanum then literal c else none

/-! ## Classes in brackets -/

/-- A class in brackets as far as it is read: what stands to the left of the last operation, and the
members since then, the latest first. -/
structure SetState where
  left : Option (SetTree × SetOp)
  members : List SetTree

namespace SetState

/-- The class read so far. -/
def value (s : SetState) : SetTree :=
  let right := SetTree.ofItems s.members.reverse
  match s.left with
  | none => right
  | some (a, op) => .operation op a right

/-- Adds a member. -/
def push (s : SetState) (member : SetTree) : SetState :=
  { s with members := member :: s.members }

/-- Begins the right side of an operation. -/
def operate (s : SetState) (op : SetOp) : SetState := ⟨some (s.value, op), []⟩

end SetState

/-- One member, or one end of an interval: a character or a set. -/
def setItem? (spaced : Bool) : List Char → Option (SetTree × List Char)
  | [] => none
  | '\\' :: cs => do
    match ← escape? spaced cs with
    | (.anchor _, _) => none
    | (.literal l, rest) => some (.literal l, rest)
    | (.set s, rest) => some (s, rest)
  | c :: rest => some (.literal ⟨c, false⟩, rest)

/-- A named class between colons, after its opening bracket. -/
def posixItem? (cs : List Char) : Option (SetTree × List Char) :=
  match cs with
  | ':' :: cs =>
    let (negated, cs) := match cs with
      | '^' :: cs => (true, cs)
      | cs => (false, cs)
    match cs.dropWhile (· != ':') with
    | ':' :: ']' :: rest =>
      (CharSet.ofPosix? (String.ofList (cs.takeWhile (· != ':')))).map fun s =>
        (.posix negated s, rest)
    | _ => none
  | _ => none

/-- A member of a class: a single item or an interval of characters. -/
def setRange? (spaced : Bool) (cs : List Char) : Option (SetTree × List Char) := do
  let (item, cs) ← setItem? spaced cs
  match skipSpaced spaced cs with
  | '-' :: rest =>
    let next := afterHyphen? spaced rest
    if next = some ']' ∨ next = some '-' then some (item, '-' :: rest)
    else
      match item, ← setItem? spaced (skipSpaced spaced rest) with
      | .literal a, (.literal b, rest) =>
        if a.char ≤ b.char then some (.range a b, rest) else none
      | _, _ => none
  | cs => some (item, cs)

/-- The hyphens at the start of a class; the first argument bounds their number. -/
def leadingHyphens (spaced : Bool) : Nat → List Char → List SetTree × List Char
  | 0, cs => ([], cs)
  | fuel + 1, cs =>
    match cs with
    | '-' :: rest =>
      let (members, rest) := leadingHyphens spaced fuel (skipSpaced spaced rest)
      (.literal ⟨'-', false⟩ :: members, rest)
    | cs => ([], cs)

/-- The start of a class after its opening bracket: whether the class is negated, and its first
members if they are hyphens or a closing bracket. -/
def setStart (spaced : Bool) (cs : List Char) : (Bool × SetState) × List Char :=
  let cs := skipSpaced spaced cs
  let (negated, cs) := match cs with
    | '^' :: rest => (true, skipSpaced spaced rest)
    | cs => (false, cs)
  match leadingHyphens spaced cs.length cs with
  | ([], ']' :: rest) => ((negated, ⟨none, [.literal ⟨']', false⟩]⟩), rest)
  | (members, rest) => ((negated, ⟨none, members⟩), rest)

/-- A class after its start, up to the closing bracket; the first argument bounds the number of
members. -/
def bracket? (spaced : Bool) : Nat → Bool → SetState → List Char → Option (SetTree × List Char)
  | 0, _, _, _ => none
  | fuel + 1, negated, st, cs =>
    match skipSpaced spaced cs with
    | [] => none
    | ']' :: rest => some (.bracketed negated st.value, rest)
    | '[' :: rest =>
      match posixItem? rest with
      | some (s, rest) => bracket? spaced fuel negated (st.push s) rest
      | none => do
        let ((inner, start), rest) := setStart spaced rest
        let (s, rest) ← bracket? spaced fuel inner start rest
        bracket? spaced fuel negated (st.push s) rest
    | '&' :: '&' :: rest => bracket? spaced fuel negated (st.operate .inter) rest
    | '-' :: '-' :: rest => bracket? spaced fuel negated (st.operate .diff) rest
    | '~' :: '~' :: rest => bracket? spaced fuel negated (st.operate .symmDiff) rest
    | cs => do
      let (s, rest) ← setRange? spaced cs
      bracket? spaced fuel negated (st.push s) rest

/-! ## Repetitions -/

/-- Decimal digits, with blanks after each where they do not count; the first argument bounds their
number. -/
def digits (spaced : Bool) : Nat → List Char → List Char × List Char
  | 0, cs => ([], cs)
  | fuel + 1, cs =>
    match cs with
    | c :: rest =>
      if c.isDigit then
        let (ds, rest) := digits spaced fuel (skipSpaced spaced rest)
        (c :: ds, rest)
      else ([], cs)
    | [] => ([], cs)

/-- A decimal number of 32 bits with blanks around it, if there is one, and what follows. -/
def count? (spaced : Bool) (cs : List Char) : Option Nat × List Char :=
  let (ds, rest) := digits spaced cs.length (Text.trimStart cs)
  let n := ds.foldl (fun n c => 10 * n + (c.toNat - 48)) 0
  (if ds.isEmpty ∨ 0xFFFFFFFF < n then none else some n, skipBlanks rest.length rest)
where
  /-- Drops blanks, and comments after them if those do not count; the first argument bounds their
  number. -/
  skipBlanks : Nat → List Char → List Char
    | 0, cs => cs
    | fuel + 1, cs =>
      match cs with
      | c :: rest => if Text.isBlank c then skipBlanks fuel (skipSpaced spaced rest) else cs
      | [] => []

/-- The bounds of a counted repetition, after its opening brace. -/
def bounds? (spaced : Bool) (cs : List Char) : Option ((Nat × Option Nat) × List Char) :=
  match count? spaced (skipSpaced spaced cs) with
  | (some n, '\x7d' :: rest) => some ((n, some n), rest)
  | (some n, ',' :: rest) =>
    match skipSpaced spaced rest with
    | '\x7d' :: rest => some ((n, none), rest)
    | rest =>
      match count? spaced rest with
      | (some m, '\x7d' :: rest) => if n ≤ m then some ((n, some m), rest) else none
      | _ => none
  | _ => none

/-- Drops the sign that makes a repetition prefer few rounds. -/
def skipLazy : List Char → List Char
  | '?' :: rest => rest
  | cs => cs

/-! ## Flags and groups -/

/-- The flag of a letter. -/
def Flag.ofLetter? : Char → Option Flag
  | 'i' => some .caseless
  | 'm' => some .multiline
  | 's' => some .dotAll
  | 'U' => some .swapGreed
  | 'u' => some .unicode
  | 'R' => some .crlf
  | 'x' => some .spaced
  | _ => none

/-- A list of flags; those after a hyphen are cleared. No flag is repeated, and one follows the
hyphen. -/
def readFlags? (cs : List Char) : Option (List FlagChange) := do
  let on ← (cs.takeWhile (· != '-')).mapM Flag.ofLetter?
  let rest := cs.dropWhile (· != '-')
  let off ← (rest.drop 1).mapM Flag.ofLetter?
  if rest.length = 1 ∨ ¬(on ++ off).Nodup then none
  else some (on.map (⟨·, true⟩) ++ off.map (⟨·, false⟩))

/-- Whether blanks count after some changes of flags. -/
def spacedAfter (spaced : Bool) (changes : List FlagChange) : Bool :=
  match changes.find? (·.flag = .spaced) with
  | some change => change.on
  | none => spaced

/-- Marks that count as letters in the name of a group, beside those that patterns know as such. -/
def latestAlphabetic : CharSet :=
  .ofIntervals [(0x10EFA, 0x10EFB), (0x11B60, 0x11B67), (0x1E6E3, 0x1E6E3), (0x1E6E6, 0x1E6E6),
    (0x1E6EE, 0x1E6EF), (0x1E6F5, 0x1E6F5)]

/-- Letters, and what is used like letters. -/
def isAlphabetic (c : Char) : Bool :=
  if c.toNat < 128 then c.isAlpha
  else
    let g := Text.GeneralCategory.of c
    g.major == 'L' || g == .Nl || (CharSet.tabled "otheralphabetic").contains c ||
      latestAlphabetic.contains c

/-- The names of groups begin with a letter or an underscore. -/
def isNameStart (c : Char) : Bool := c == '_' || isAlphabetic c

/-- The names of groups go on with letters, numbers and some signs. -/
def isNamePart (c : Char) : Bool :=
  c == '_' || c == '.' || c == '[' || c == ']' || isAlphabetic c ||
    (Text.GeneralCategory.of c).major == 'N'

/-- Whether a text names a group. -/
def isGroupName : List Char → Bool
  | [] => false
  | c :: rest => isNameStart c && rest.all isNamePart

/-- How a group opens: it captures and may have a name, it changes flags inside, or it is no group
and changes them for what follows. -/
inductive Opening where
  | capture (name : Option (List Char))
  | flagged (changes : List FlagChange)
  | flags (changes : List FlagChange)

/-- The name of a group, up to a closing angle. -/
def groupName? (cs : List Char) : Option (Opening × List Char) :=
  let name := cs.takeWhile (· != '>')
  match cs.dropWhile (· != '>') with
  | _ :: rest => if isGroupName name then some (.capture (some name), rest) else none
  | [] => none

/-- The opening of a group, after its parenthesis. -/
def opening? (spaced : Bool) (cs : List Char) : Option (Opening × List Char) :=
  match skipSpaced spaced cs with
  | '?' :: '=' :: _ | '?' :: '!' :: _ | '?' :: '<' :: '=' :: _ | '?' :: '<' :: '!' :: _ => none
  | '?' :: 'P' :: '<' :: cs => groupName? cs
  | '?' :: '<' :: cs => groupName? cs
  | '?' :: cs => do
    let isEnd (c : Char) : Bool := c == ':' || c == ')'
    let changes ← readFlags? (cs.takeWhile (!isEnd ·))
    match cs.dropWhile (!isEnd ·) with
    | ':' :: rest => some (.flagged changes, rest)
    | ')' :: rest => if changes.isEmpty then none else some (.flags changes, rest)
    | _ => none
  | cs => some (.capture none, cs)

/-! ## Patterns -/

/-- A group as far as it is read: its finished branches and the items of the last one, the latest
first, and the names of all groups so far. -/
structure GroupState where
  branches : List Tree
  items : List Tree
  names : List (List Char)

namespace GroupState

/-- A group at its beginning. -/
def start (names : List (List Char)) : GroupState := ⟨[], [], names⟩

/-- The last branch so far. -/
def branch (s : GroupState) : Tree := .ofItems s.items.reverse

/-- The group read so far. -/
def value (s : GroupState) : Tree := .ofBranches (s.branch :: s.branches).reverse

/-- Adds an item. -/
def push (s : GroupState) (t : Tree) : GroupState := { s with items := t :: s.items }

/-- Begins another branch. -/
def divide (s : GroupState) : GroupState := ⟨s.branch :: s.branches, [], s.names⟩

/-- Repeats the last item. There must be one, and flags cannot be repeated. -/
def repeat? (s : GroupState) (least : Nat) (most : Option Nat) : Option GroupState :=
  match s.items with
  | [] | .flags _ :: _ => none
  | t :: items => some { s with items := .repeated t least most :: items }

end GroupState

/-- The rest of a group, up to the end of the text or to its closing parenthesis; the first argument
bounds the number of items. -/
def group? : Nat → Bool → GroupState → List Char → Option (GroupState × List Char)
  | 0, _, _, _ => none
  | fuel + 1, spaced, st, cs =>
    match skipSpaced spaced cs with
    | [] => some (st, [])
    | ')' :: rest => some (st, ')' :: rest)
    | '|' :: rest => group? fuel spaced st.divide rest
    | '*' :: rest => do group? fuel spaced (← st.repeat? 0 none) (skipLazy rest)
    | '+' :: rest => do group? fuel spaced (← st.repeat? 1 none) (skipLazy rest)
    | '?' :: rest => do group? fuel spaced (← st.repeat? 0 (some 1)) (skipLazy rest)
    | '\x7b' :: rest => do
      let ((least, most), rest) ← bounds? spaced rest
      group? fuel spaced (← st.repeat? least most) (skipLazy (skipSpaced spaced rest))
    | '(' :: rest => do
      match ← opening? spaced rest with
      | (.flags changes, rest) =>
        group? fuel (spacedAfter spaced changes) (st.push (.flags changes)) rest
      | (.flagged changes, rest) =>
        match ← group? fuel (spacedAfter spaced changes) (.start st.names) rest with
        | (inner, ')' :: rest) =>
          let pushed := st.push (.flagged changes inner.value)
          group? fuel spaced { pushed with names := inner.names } rest
        | _ => none
      | (.capture name, rest) =>
        let names := name.toList ++ st.names
        if ¬names.Nodup then none
        else
          match ← group? fuel spaced (.start names) rest with
          | (inner, ')' :: rest) =>
            group? fuel spaced { st.push (.capture inner.value) with names := inner.names } rest
          | _ => none
    | '[' :: rest => do
      let ((negated, start), rest) := setStart spaced rest
      let (s, rest) ← bracket? spaced (rest.length + 1) negated start rest
      group? fuel spaced (st.push (.set s)) rest
    | '.' :: rest => group? fuel spaced (st.push .dot) rest
    | '^' :: rest => group? fuel spaced (st.push (.anchor .lineStart)) rest
    | '$' :: rest => group? fuel spaced (st.push (.anchor .lineEnd)) rest
    | '\\' :: rest => do
      match ← escape? spaced rest with
      | (.literal l, rest) => group? fuel spaced (st.push (.literal l)) rest
      | (.set s, rest) => group? fuel spaced (st.push (.set s)) rest
      | (.anchor a, rest) => group? fuel spaced (st.push (.anchor a)) rest
    | c :: rest => group? fuel spaced (st.push (.literal ⟨c, false⟩)) rest

/-- The tree of a text, if it is a pattern. -/
def Tree.read? (text : String) : Option Tree := do
  let cs := text.toList
  match ← group? (cs.length + 1) false (.start []) cs with
  | (st, []) => some st.value
  | _ => none

end FlowEngine.Pattern
