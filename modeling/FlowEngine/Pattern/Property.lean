import FlowEngine.Pattern.AgeTable
import FlowEngine.Pattern.BreakTable
import FlowEngine.Pattern.CharSet
import FlowEngine.Pattern.PropertyTable
import FlowEngine.Pattern.ScriptTable
import FlowEngine.Text.Category

/-!
# Sets with a name

The sets of characters that a pattern can name: the classes of words, digits and blanks, those
between colons, and the properties of characters. Patterns know the characters of one version less
than texts do.

* `CharSet.word`, `digit`, `blank` — the classes with a letter of their own.
* `CharSet.ofPosix?` — the classes between colons.
* `CharSet.ofProperty?`, `CharSet.ofValue?` — the members of a property, and the characters for
  which a property has some value.
-/

namespace FlowEngine.Pattern.CharSet

open FlowEngine.Text

/-! ## General categories -/

/-- The characters that have a category and are not known to patterns yet. -/
def latest : CharSet := ofIntervals [(0x88F, 0x88F), (0xC5C, 0xC5C), (0xCDC, 0xCDC),
  (0x1ACF, 0x1ADD), (0x1AE0, 0x1AEB), (0x20C1, 0x20C1), (0x2B96, 0x2B96), (0xA7CE, 0xA7CF),
  (0xA7D2, 0xA7D2), (0xA7D4, 0xA7D4), (0xA7F1, 0xA7F1), (0xFBC3, 0xFBD2), (0xFD90, 0xFD91),
  (0xFDC8, 0xFDCE), (0x10940, 0x10959), (0x10EC5, 0x10EC7), (0x10ED0, 0x10ED8),
  (0x10EFA, 0x10EFB), (0x11B60, 0x11B67), (0x11DB0, 0x11DDB), (0x11DE0, 0x11DE9),
  (0x16EA0, 0x16EB8), (0x16EBB, 0x16ED3), (0x16FF2, 0x16FF6), (0x187F8, 0x187FF),
  (0x18D09, 0x18D1E), (0x18D80, 0x18DF2), (0x1CCFA, 0x1CCFC), (0x1CEBA, 0x1CED0),
  (0x1CEE0, 0x1CEF0), (0x1E6C0, 0x1E6DE), (0x1E6E0, 0x1E6F5), (0x1E6FE, 0x1E6FF),
  (0x1F6D8, 0x1F6D8), (0x1F777, 0x1F77A), (0x1F8D0, 0x1F8D8), (0x1FA54, 0x1FA57),
  (0x1FA8A, 0x1FA8A), (0x1FA8E, 0x1FA8E), (0x1FAC8, 0x1FAC8), (0x1FACD, 0x1FACD),
  (0x1FAEA, 0x1FAEA), (0x1FAEF, 0x1FAEF), (0x1FBFA, 0x1FBFA), (0x2B73A, 0x2B73F),
  (0x2CEA2, 0x2CEAD), (0x323B0, 0x33479)]

/-- The sign for a voiced stop in the throat, which patterns take for a small letter. -/
def voicedStop : CharSet := single (Char.ofNat 0x295)

/-- The characters of a category. -/
def ofCategory (g : GeneralCategory) : CharSet :=
  let members := ofIntervals g.intervals
  match g with
  | .Cn => union members latest
  | .Ll => diff (union members voicedStop) latest
  | .Lo => diff (diff members voicedStop) latest
  | _ => diff members latest

/-- The characters of some categories. -/
def ofCategories (gs : List GeneralCategory) : CharSet := unions (gs.map ofCategory)

/-- All letters. -/
def letters : List GeneralCategory := [.Lu, .Ll, .Lt, .Lm, .Lo]

/-- All marks. -/
def marks : List GeneralCategory := [.Mn, .Mc, .Me]

/-- The categories and groups of categories under their names. -/
def categoryNames : List (String × List GeneralCategory) := [
  ("c other", [.Cc, .Cf, .Co, .Cn]), ("casedletter lc", [.Lu, .Ll, .Lt]),
  ("cc cntrl control", [.Cc]), ("cf format", [.Cf]), ("closepunctuation pe", [.Pe]),
  ("cn unassigned", [.Cn]), ("co privateuse", [.Co]), ("combiningmark m mark", marks),
  ("connectorpunctuation pc", [.Pc]), ("currencysymbol sc", [.Sc]), ("dashpunctuation pd", [.Pd]),
  ("decimalnumber digit nd", [.Nd]), ("enclosingmark me", [.Me]), ("finalpunctuation pf", [.Pf]),
  ("initialpunctuation pi", [.Pi]), ("l letter", letters), ("letternumber nl", [.Nl]),
  ("lineseparator zl", [.Zl]), ("ll lowercaseletter", [.Ll]), ("lm modifierletter", [.Lm]),
  ("lo otherletter", [.Lo]), ("lt titlecaseletter", [.Lt]), ("lu uppercaseletter", [.Lu]),
  ("mathsymbol sm", [.Sm]), ("mc spacingmark", [.Mc]), ("mn nonspacingmark", [.Mn]),
  ("modifiersymbol sk", [.Sk]), ("n number", [.Nd, .Nl, .No]), ("no othernumber", [.No]),
  ("openpunctuation ps", [.Ps]), ("otherpunctuation po", [.Po]), ("othersymbol so", [.So]),
  ("p punct punctuation", [.Pc, .Pd, .Ps, .Pe, .Pi, .Pf, .Po]), ("paragraphseparator zp", [.Zp]),
  ("s symbol", [.Sm, .Sc, .Sk, .So]), ("separator z", [.Zs, .Zl, .Zp]),
  ("spaceseparator zs", [.Zs])]

/-- The ASCII characters. -/
def ascii : CharSet := ofIntervals [(0, 127)]

/-- The characters of a category by its name. -/
def ofCategoryName? (name : String) : Option CharSet :=
  match name with
  | "any" => some any
  | "assigned" => some (compl (ofCategory .Cn))
  | "ascii" => some ascii
  | name =>
    (categoryNames.find? fun e => (e.1.splitOn " ").contains name).map fun e => ofCategories e.2

/-! ## Properties that follow from others -/

/-- The members of a binary property that has a table. -/
def tabled (name : String) : CharSet := (named? propertyTable name).getD nothing

/-- Letters and what is used like letters. -/
def alphabetic : CharSet :=
  unions [ofCategories letters, ofCategory .Nl, tabled "otheralphabetic"]

/-- Small letters and what is used like them. -/
def lowercase : CharSet := union (ofCategory .Ll) (tabled "otherlowercase")

/-- Capital letters and what is used like them. -/
def uppercase : CharSet := union (ofCategory .Lu) (tabled "otheruppercase")

/-- Characters that extend the cluster before them. -/
def extending : CharSet := unions [ofCategory .Me, ofCategory .Mn, tabled "othergraphemeextend"]

/-- What belongs to the patterns of a language rather than to its names. -/
def patternSigns : CharSet := union (tabled "patternsyntax") (tabled "patternwhitespace")

/-- What a name can begin with. -/
def nameStart : CharSet :=
  diff (unions [ofCategories letters, ofCategory .Nl, tabled "otheridstart"]) patternSigns

/-- What can stand in a name. -/
def nameContinue : CharSet :=
  diff (unions [nameStart, ofCategories [.Mn, .Mc, .Nd, .Pc], tabled "otheridcontinue"])
    patternSigns

/-- Characters whose compatibility forms can stand in a name, but not within every name. -/
def unstable : CharSet := ofIntervals [(0x37A, 0x37A), (0x309B, 0x309C), (0xFC5E, 0xFC63),
  (0xFDFA, 0xFDFB), (0xFE70, 0xFE70), (0xFE72, 0xFE72), (0xFE74, 0xFE74), (0xFE76, 0xFE76),
  (0xFE78, 0xFE78), (0xFE7A, 0xFE7A), (0xFE7C, 0xFE7C), (0xFE7E, 0xFE7E)]

/-- Characters whose compatibility forms do not begin a name. -/
def unstableStart : CharSet := ofIntervals [(0xE33, 0xE33), (0xEB3, 0xEB3), (0xFF9E, 0xFF9F)]

/-- What is ignored where it cannot be shown. -/
def ignorable : CharSet :=
  diff
    (unions [tabled "otherdefaultignorablecodepoint", ofCategory .Cf, tabled "variationselector"])
    (unions [tabled "whitespace", tabled "prependedconcatenationmark",
      ofIntervals [(0xFFF9, 0xFFFB), (0x13430, 0x13440)]])

/-- The members of a binary property by its name. -/
def ofBinary? (name : String) : Option CharSet :=
  match name with
  | "alpha" | "alphabetic" => some alphabetic
  | "lower" | "lowercase" => some lowercase
  | "upper" | "uppercase" => some uppercase
  | "cased" => some (unions [lowercase, uppercase, ofCategory .Lt])
  | "ci" | "caseignorable" =>
    some (unions (ofCategories [.Mn, .Me, .Cf, .Lm, .Sk] ::
      ["midletter", "midnumlet", "singlequote"].map fun c => (named? wordTable c).getD nothing))
  | "math" => some (union (ofCategory .Sm) (tabled "othermath"))
  | "grext" | "graphemeextend" => some extending
  | "grbase" | "graphemebase" =>
    some (compl (union (ofCategories [.Cc, .Cf, .Co, .Cn, .Zl, .Zp]) extending))
  | "ids" | "idstart" => some nameStart
  | "idc" | "idcontinue" => some nameContinue
  | "xids" | "xidstart" => some (diff nameStart (union unstable unstableStart))
  | "xidc" | "xidcontinue" => some (diff nameContinue unstable)
  | "di" | "defaultignorablecodepoint" => some ignorable
  | name => named? propertyTable name

/-! ## Properties -/

/-- The name of a property or a value without a prefix `is`, without case and without blanks,
underscores and hyphens. A single `c` after the prefix does not count as a name of its own. -/
def nameKey (name : List Char) : String :=
  let (prefixed, rest) : Bool × List Char := match name with
    | 'i' :: 's' :: rest | 'I' :: 's' :: rest | 'i' :: 'S' :: rest | 'I' :: 'S' :: rest =>
      (true, rest)
    | rest => (false, rest)
  let key := (rest.filter fun c =>
    c != ' ' && c != '_' && c != '-' && decide (c.toNat < 128)).map Char.toLower
  String.ofList (if prefixed ∧ key = ['c'] then ['i', 's', 'c'] else key)

/-- The members of a property: a binary one, a general category or a script. -/
def ofProperty? (name : List Char) : Option CharSet :=
  let key := nameKey name
  ((ofBinary? key).or (ofCategoryName? key)).or (named? scriptTable key)

/-- The characters that a version and all versions before it have added. -/
def ofAge? (key : String) : Option CharSet :=
  let entries := ageTable.takeWhile fun e => !(e.1.splitOn " ").contains key
  match ageTable.drop entries.length with
  | [] => none
  | last :: _ => some (unions ((entries ++ [last]).map fun e => ofText e.2))

/-- The characters for which a property has a value. -/
def ofValue? (property value : List Char) : Option CharSet :=
  let key := nameKey value
  match nameKey property with
  | "gc" | "generalcategory" => ofCategoryName? key
  | "sc" | "script" => named? scriptTable key
  | "scx" | "scriptextensions" => named? scriptExtensionTable key
  | "age" => ofAge? key
  | "gcb" | "graphemeclusterbreak" => named? clusterTable key
  | "wb" | "wordbreak" => named? wordTable key
  | "sb" | "sentencebreak" => named? sentenceTable key
  | _ => none

/-! ## Classes -/

/-- Decimal digits. -/
def digit : CharSet := ofCategory .Nd

/-- White space. -/
def blank : CharSet := tabled "whitespace"

/-- Letters, marks, digits, connecting punctuation and joiners. -/
def word : CharSet :=
  unions [alphabetic, ofCategories marks, digit, ofCategory .Pc, tabled "joincontrol"]

/-- The ASCII members of a word class. -/
def asciiWord : CharSet := ofIntervals [(48, 57), (65, 90), (95, 95), (97, 122)]

/-- The ASCII digits. -/
def asciiDigit : CharSet := ofIntervals [(48, 57)]

/-- The ASCII blanks. -/
def asciiBlank : CharSet := ofIntervals [(9, 13), (32, 32)]

/-- The sets that are named between colons inside brackets; they hold ASCII characters only. -/
def ofPosix? (name : String) : Option CharSet :=
  match name with
  | "alnum" => some (ofIntervals [(48, 57), (65, 90), (97, 122)])
  | "alpha" => some (ofIntervals [(65, 90), (97, 122)])
  | "ascii" => some ascii
  | "blank" => some (ofIntervals [(9, 9), (32, 32)])
  | "cntrl" => some (ofIntervals [(0, 31), (127, 127)])
  | "digit" => some asciiDigit
  | "graph" => some (ofIntervals [(33, 126)])
  | "lower" => some (ofIntervals [(97, 122)])
  | "print" => some (ofIntervals [(32, 126)])
  | "punct" => some (ofIntervals [(33, 47), (58, 64), (91, 96), (123, 126)])
  | "space" => some asciiBlank
  | "upper" => some (ofIntervals [(65, 90)])
  | "word" => some asciiWord
  | "xdigit" => some (ofIntervals [(48, 57), (65, 70), (97, 102)])
  | _ => none

end FlowEngine.Pattern.CharSet
