import FlowEngine.Text.Category

/-!
# Searching texts

* `occursIn` — whether a text occurs in another one.
* `split` — the pieces of a text between the occurrences of a separator.
* `replace` — another text in place of every occurrence.
* `words` — the pieces between blanks.
-/

namespace FlowEngine.Text

/-- Whether a list of characters occurs in another one without gaps. -/
def occursIn (part : List Char) : List Char → Bool
  | [] => part.isEmpty
  | c :: rest => part.isPrefixOf (c :: rest) || occursIn part rest

/-- Whether a text occurs in another one. -/
def occursInText (part text : String) : Bool := occursIn part.toList text.toList

/-- What stands before the first occurrence of a separator, and what follows it. -/
def cut? (separator : List Char) : List Char → Option (List Char × List Char)
  | [] => if separator.isEmpty then some ([], []) else none
  | c :: rest =>
    if separator.isPrefixOf (c :: rest) then some ([], (c :: rest).drop separator.length)
    else (cut? separator rest).map fun (before, after) => (c :: before, after)

/-- The pieces between the first occurrences of a separator that is not empty, at most so many; the
last piece is all that is left. -/
def cutAtMost (separator : List Char) : Nat → List Char → List (List Char)
  | 0, cs => [cs]
  | cuts + 1, cs =>
    match cut? separator cs with
    | none => [cs]
    | some (before, after) => before :: cutAtMost separator cuts after

/-- The pieces between the occurrences of a separator. An empty separator occurs before and after
every character. -/
def split (separator cs : List Char) : List (List Char) :=
  if separator.isEmpty then [] :: (cs.map fun c => [c]) ++ [[]]
  else cutAtMost separator cs.length cs

/-- The pieces between the first occurrences of a separator, at most so many; the last piece is all
that is left. -/
def splitAtMost (separator : List Char) (cuts : Nat) (cs : List Char) : List (List Char) :=
  if separator.isEmpty then
    let pieces := split separator cs
    if pieces.length ≤ cuts then pieces
    else pieces.take cuts ++ [(pieces.drop cuts).flatten]
  else cutAtMost separator cuts cs

/-- Another text in place of every occurrence of a text. -/
def replace (old new cs : List Char) : List Char := new.intercalate (split old cs)

/-- The pieces between blanks. -/
def words (cs : List Char) : List (List Char) :=
  ((cs.splitBy fun a b => isBlank a == isBlank b)).filter fun word => !word.any isBlank

/-- The pieces between blanks, at most so many, and then what is left after the blanks that follow
them. Blanks that nothing follows are left themselves. -/
def wordsAtMost : Nat → List Char → List (List Char)
  | 0, cs => remainder cs
  | cuts + 1, cs =>
    match cs.dropWhile isBlank with
    | [] => remainder cs
    | c :: rest =>
      let word := (c :: rest).takeWhile (!isBlank ·)
      word :: wordsAtMost cuts ((c :: rest).drop word.length)
where
  /-- What is left, if anything is. -/
  remainder (cs : List Char) : List (List Char) :=
    match cs, cs.dropWhile isBlank with
    | [], _ => []
    | cs, [] => [cs]
    | _, rest => [rest]

end FlowEngine.Text
