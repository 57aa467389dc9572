import FlowEngine.Text.Category
import FlowEngine.Text.CaseTable

/-!
# Upper and lower case

The full case mappings of texts.

* `lower` — lower case; a capital sigma at the end of a word becomes a final sigma.
* `upper` — upper case; some characters become several.
* `eqIgnoringAsciiCase` — texts that differ by case only.
-/

namespace FlowEngine.Text

/-! ## Lower case -/

/-- The lower case of a character by itself. A dotted capital I keeps its dot as a mark. -/
def lowerChar (c : Char) : List Char :=
  if c.toNat < 128 then [c.toLower]
  else if c.toNat = 0x130 then ['i', Char.ofNat 0x307]
  else [Char.ofNat (mapBy lowerSpans c.toNat)]

/-- Whether the first character that is not ignorable has a case. -/
def startsCased (cs : List Char) : Bool :=
  match cs.dropWhile isCaseIgnorable with
  | c :: _ => isCased c
  | [] => false

/-- Capital sigma. -/
def capitalSigma : Char := Char.ofNat 0x3A3

/-- Lower case of the rest of a text, given what precedes it in reverse. A sigma is final if a cased
character precedes it and none follows. -/
def lowerAfter (before : List Char) : List Char → List Char
  | [] => []
  | c :: rest =>
    let image :=
      if c = capitalSigma then
        [Char.ofNat (if startsCased before && !startsCased rest then 0x3C2 else 0x3C3)]
      else lowerChar c
    image ++ lowerAfter (c :: before) rest

/-- The lower case of a text. -/
def lower (cs : List Char) : List Char := lowerAfter [] cs

/-- The lower case of a text. -/
def lowerText (s : String) : String := String.ofList (lower s.toList)

/-! ## Upper case -/

/-- The upper case of a character. -/
def upperChar (c : Char) : List Char :=
  if c.toNat < 128 then [c.toUpper]
  else
    match upperExpansions.lookup c.toNat with
    | some cs => cs.map Char.ofNat
    | none => [Char.ofNat (mapBy upperSpans c.toNat)]

/-- The upper case of a text. -/
def upper (cs : List Char) : List Char := cs.flatMap upperChar

/-! ## Comparing -/

/-- Equality of letters up to the case of the letters `A` to `Z`. -/
def eqIgnoringAsciiCase (s t : String) : Bool :=
  s.toList.map Char.toLower == t.toList.map Char.toLower

end FlowEngine.Text
