import FlowEngine.Expr.Term

/-!
# Reading expressions

A recursive descent over the tokens of an expression, one function a level of precedence. From loose
to tight: `if … else`, `or`, `and`, `not`, comparisons, `+ -`, `~`, `* / // %`, `**`, the sign `-`,
what is looked up in an operand, filters and tests.

Nested expressions count as levels; `maxLevels` bounds them.

* `Term.read` — the term of a text.
-/

namespace FlowEngine.Expr

/-- The tokens that are left. -/
abbrev Rest := List Lexeme

/-- A reader of something at the front of tokens. -/
abbrev Front (α : Type) := Rest → Except Located (α × Rest)

/-- How deep expressions may be nested. -/
def maxLevels : Nat := 150

/-- The tokens do not go on as they should. -/
def unexpected (ts : Rest) : Located :=
  match ts with
  | ⟨.bad fault, line⟩ :: _ => ⟨fault, line⟩
  | _ => ⟨.malformed, 0⟩

/-- Skips a token that may be there. -/
def skip? (t : Token) : Rest → Option Rest
  | l :: ts => if l.token = t then some ts else none
  | [] => none

/-- Skips a token that must be there. -/
def expect (t : Token) (ts : Rest) : Except Located Rest :=
  match skip? t ts with
  | some ts => .ok ts
  | none => .error (unexpected ts)

/-- A name that must be there. -/
def expectName : Front String
  | ⟨.name n, _⟩ :: ts => .ok (n, ts)
  | ts => .error (unexpected ts)

/-- Goes on with a name after every point. -/
def nameFrom : (fuel : Nat) → String → Front String
  | 0, n, ts => .ok (n, ts)
  | fuel + 1, n, ts =>
    match skip? (.sign .dot) ts with
    | none => .ok (n, ts)
    | some ts => do
      let (part, ts) ← expectName ts
      nameFrom fuel (n ++ "." ++ part) ts

/-- The name of a filter or a test, which may have points in it. -/
def dottedName : Front String := fun ts => do
  let (n, ts) ← expectName ts
  nameFrom ts.length n ts

/-- The line of the first token. -/
def lineOf : Rest → Nat
  | t :: _ => t.line
  | [] => 0

/-! ## Operators -/

/-- Goes on with operators and operands, grouping to the left. -/
def chainFrom (line : Nat) (operator? : Token → Option (Nat → Term → Term → Term))
    (operand : Front Term) :
    (fuel : Nat) → Term → Front Term
  | 0, e, ts => .ok (e, ts)
  | fuel + 1, e, ts =>
    match ts with
    | [] => .ok (e, [])
    | t :: rest =>
      match operator? t.token with
      | none => .ok (e, t :: rest)
      | some join => do
        let (r, ts) ← operand rest
        chainFrom line operator? operand fuel (join line e r) ts

/-- Operands with operators between them, grouping to the left. -/
def chain (operator? : Token → Option (Nat → Term → Term → Term)) (operand : Front Term) :
    Front Term := fun ts => do
  let line := lineOf ts
  let (e, ts) ← operand ts
  chainFrom line operator? operand ts.length e ts

/-- `or`. -/
def disjOperator? : Token → Option (Nat → Term → Term → Term)
  | .name "or" => some .disj
  | _ => none

/-- `and`. -/
def conjOperator? : Token → Option (Nat → Term → Term → Term)
  | .name "and" => some .conj
  | _ => none

/-- `+` and `-`. -/
def sumOperator? : Token → Option (Nat → Term → Term → Term)
  | .sign .plus => some (.binary · .add)
  | .sign .minus => some (.binary · .sub)
  | _ => none

/-- `~`. -/
def concatOperator? : Token → Option (Nat → Term → Term → Term)
  | .sign .tilde => some (.binary · .concat)
  | _ => none

/-- `*`, `/`, `//` and `%`. -/
def productOperator? : Token → Option (Nat → Term → Term → Term)
  | .sign .times => some (.binary · .mul)
  | .sign .over => some (.binary · .div)
  | .sign .overFloor => some (.binary · .floorDiv)
  | .sign .percent => some (.binary · .mod)
  | _ => none

/-- `**`. -/
def powerOperator? : Token → Option (Nat → Term → Term → Term)
  | .sign .power => some (.binary · .pow)
  | _ => none

/-- A comparison at the front of the tokens. -/
def comparison? : Rest → Except Located (Option (CompareOp × Rest))
  | ⟨.sign .equal, _⟩ :: ts => .ok (some (.eq, ts))
  | ⟨.sign .notEqual, _⟩ :: ts => .ok (some (.ne, ts))
  | ⟨.sign .less, _⟩ :: ts => .ok (some (.lt, ts))
  | ⟨.sign .lessEqual, _⟩ :: ts => .ok (some (.le, ts))
  | ⟨.sign .greater, _⟩ :: ts => .ok (some (.gt, ts))
  | ⟨.sign .greaterEqual, _⟩ :: ts => .ok (some (.ge, ts))
  | ⟨.name "in", _⟩ :: ts => .ok (some (.isIn, ts))
  | ⟨.name "not", _⟩ :: ts => do
    let ts ← expect (.name "in") ts
    .ok (some (.notIn, ts))
  | _ => .ok none

/-- Goes on with comparisons. -/
def comparedFrom (operand : Front Term) : (fuel : Nat) → Front (List (CompareOp × Term))
  | 0, ts => .ok ([], ts)
  | fuel + 1, ts => do
    match ← comparison? ts with
    | none => .ok ([], ts)
    | some (op, ts) =>
      let (e, ts) ← operand ts
      let (rest, ts) ← comparedFrom operand fuel ts
      .ok ((op, e) :: rest, ts)

/-- Operands with comparisons between them. -/
def compared (operand : Front Term) : Front Term := fun ts => do
  let line := lineOf ts
  let (e, ts) ← operand ts
  let (rest, ts) ← comparedFrom operand ts.length ts
  .ok (if rest.isEmpty then e else .compare line e rest, ts)

/-- An operand after any number of `not`. -/
def inverted (operand : Front Term) : Front Term
  | [] => operand []
  | t :: ts =>
    if t.token = Token.name "not" then do
      let (e, ts) ← inverted operand ts
      .ok (.invert t.line e, ts)
    else operand (t :: ts)

/-- An operand after any number of minus signs. -/
def signed (operand : Front Term) : Front Term
  | [] => operand []
  | t :: ts =>
    if t.token = .sign .minus then do
      let (e, ts) ← signed operand ts
      .ok (.negate t.line e, ts)
    else operand (t :: ts)

/-! ## Lists, maps and arguments -/

/-- Items up to a closing sign, with commas between them and perhaps after the last one. `first`
says that no item has been read yet. -/
def itemsUntil {α : Type} (closing : Sign) (item : Front α) :
    (fuel : Nat) → (first : Bool) → Front (List α)
  | 0, _, ts => .error (unexpected ts)
  | fuel + 1, first, ts =>
    match skip? (.sign closing) ts with
    | some ts => .ok ([], ts)
    | none => do
      let ts ← if first then .ok ts else expect (.sign .comma) ts
      match skip? (.sign closing) ts with
      | some ts => .ok ([], ts)
      | none =>
        let (x, ts) ← item ts
        let (rest, ts) ← itemsUntil closing item fuel false ts
        .ok (x :: rest, ts)

/-- A key, a colon and a value. -/
def entry (term : Front Term) : Front (Term × Term) := fun ts => do
  let (k, ts) ← term ts
  let ts ← expect (.sign .colon) ts
  let (v, ts) ← term ts
  .ok ((k, v), ts)

/-- How many arguments a call can have. -/
def maxArguments : Nat := 2000

/-- An argument. Stars before it pass its items or its entries, and a name and a sign of assignment
pass it by keyword. -/
def argument (term : Front Term) : Front (Passing × Term) := fun ts =>
  match skip? (.sign .power) ts, skip? (.sign .times) ts with
  | some ts, _ => do
    let (e, ts) ← term ts
    .ok ((.spreadKeywords, e), ts)
  | none, some ts => do
    let (e, ts) ← term ts
    .ok ((.spread, e), ts)
  | none, none => do
    let (e, ts) ← term ts
    match e, skip? (.sign .assign) ts with
    | .name _ id, some ts =>
      let (v, ts) ← term ts
      .ok ((.keyword id, v), ts)
    | e, _ => .ok ((.position, e), ts)

/-- Arguments up to the closing parenthesis, after `read` others. Once one has been passed by
keyword, none can be passed by position. -/
def argumentsFrom (term : Front Term) :
    (fuel read : Nat) → (keywords : Bool) → Front (List (Passing × Term))
  | 0, _, _, ts => .error (unexpected ts)
  | fuel + 1, read, keywords, ts =>
    match skip? (.sign .closeParen) ts with
    | some ts => .ok ([], ts)
    | none => do
      let ts ← if read = 0 then .ok ts else expect (.sign .comma) ts
      match skip? (.sign .closeParen) ts with
      | some ts => .ok ([], ts)
      | none =>
        let (arg, ts) ← argument term ts
        if keywords ∧ arg.1 = .position ∨ maxArguments ≤ read then .error ⟨.malformed, 0⟩
        else
          let (rest, ts) ←
            argumentsFrom term fuel (read + 1) (keywords || arg.1.isKeyword) ts
          .ok (arg :: rest, ts)

/-- Arguments between parentheses, after the opening one. -/
def arguments (term : Front Term) : Front (List (Passing × Term)) := fun ts =>
  argumentsFrom term (ts.length + 1) 0 false ts

/-! ## Operands -/

/-- What stands between parentheses: a term, or a list with commas. -/
def grouped (line : Nat) (term : Front Term) : Front Term := fun ts =>
  match skip? (.sign .closeParen) ts with
  | some ts => .ok (.list line [], ts)
  | none => do
    let (e, ts) ← term ts
    match skip? (.sign .closeParen) ts with
    | some ts => .ok (e, ts)
    | none =>
      let (rest, ts) ← itemsUntil .closeParen term (ts.length + 1) false ts
      .ok (.list line (e :: rest), ts)

/-- The literal that a name stands for. -/
def constant? : String → Option Value
  | "true" | "True" => some (.bool true)
  | "false" | "False" => some (.bool false)
  | "none" | "None" => some .none
  | _ => none

/-- The texts at the front of tokens, joined. -/
def texts : Rest → String × Rest
  | ⟨.text s, _⟩ :: ts =>
    let (rest, ts) := texts ts
    (s ++ rest, ts)
  | ts => ("", ts)

/-- A literal, a name, a list, a map, or a term in parentheses. Texts that follow one another are
one text. -/
def primary (term : Front Term) : Front Term
  | ⟨.name n, line⟩ :: ts =>
    match constant? n with
    | some v => .ok (.literal line v, ts)
    | none => .ok (.name line n, ts)
  | ⟨.text s, line⟩ :: ts =>
    let (rest, ts) := texts ts
    .ok (.literal line (.str (s ++ rest)), ts)
  | ⟨.int n, line⟩ :: ts => .ok (.literal line (.int (.ofLiteral n) n), ts)
  | ⟨.float x, line⟩ :: ts => .ok (.literal line (.float x), ts)
  | ⟨.sign .openParen, line⟩ :: ts => grouped line term ts
  | ⟨.sign .openBracket, line⟩ :: ts => do
    let (items, ts) ← itemsUntil .closeBracket term (ts.length + 1) true ts
    .ok (.list line items, ts)
  | ⟨.sign .openBrace, line⟩ :: ts => do
    let (entries, ts) ← itemsUntil .closeBrace (entry term) (ts.length + 1) true ts
    .ok (.map line entries, ts)
  | ts => .error (unexpected ts)

/-- A term, unless one of the given signs stands in its place. -/
def unlessSign (signs : List Sign) (term : Front Term) : Front (Option Term) := fun ts =>
  if signs.any fun s => (skip? (.sign s) ts).isSome then .ok (none, ts)
  else do
    let (e, ts) ← term ts
    .ok (some e, ts)

/-- What stands in brackets after an operand: a key, or the bounds of a slice. -/
def subscript (object : Term) (term : Front Term) : Front Term := fun ts => do
  let (start, ts) ← unlessSign [.colon] term ts
  match skip? (.sign .colon) ts with
  | none =>
    let ts ← expect (.sign .closeBracket) ts
    match start with
    | some key => .ok (.item object key, ts)
    | none => .error ⟨.malformed, 0⟩
  | some ts =>
    let (stop, ts) ← unlessSign [.closeBracket, .colon] term ts
    let (step, ts) ← match skip? (.sign .colon) ts with
      | some ts => unlessSign [.closeBracket] term ts
      | none => .ok (none, ts)
    let ts ← expect (.sign .closeBracket) ts
    .ok (.slice object start stop step, ts)

/-- A call of an operand that begins on a line. -/
def Term.called (line : Nat) (callee : Term) (args : List (Passing × Term)) : Term :=
  match callee with
  | .name _ id => .call line id args
  | .field object id => .callField object id args
  | callee => .callValue callee args

/-- Goes on with fields, keys and calls. An index after a point is an integer of 64 bits. -/
def postfixFrom (start : Nat) (term : Front Term) : (fuel : Nat) → Term → Front Term
  | 0, e, ts => .ok (e, ts)
  | fuel + 1, e, ts =>
    match ts with
    | ⟨.sign .dot, _⟩ :: ⟨.name n, _⟩ :: ts => postfixFrom start term fuel (.field e n) ts
    | ⟨.sign .dot, _⟩ :: ⟨.int n, line⟩ :: ts =>
      if Width.unsigned64.fits n then
        postfixFrom start term fuel (.item e (.literal line (.int .unsigned64 n))) ts
      else .error ⟨.malformed, 0⟩
    | ⟨.sign .dot, _⟩ :: ts => .error (unexpected ts)
    | ⟨.sign .openBracket, _⟩ :: ts => do
      let (e, ts) ← subscript e term ts
      postfixFrom start term fuel e ts
    | ⟨.sign .openParen, _⟩ :: ts => do
      let (args, ts) ← arguments term ts
      postfixFrom start term fuel (e.called start args) ts
    | ts => .ok (e, ts)

/-- An operand with fields, keys and calls; a minus sign binds tighter than these. -/
def plain (term atom : Front Term) : Front Term := fun ts => do
  let start := lineOf ts
  let (e, ts) ← signed atom ts
  postfixFrom start term ts.length e ts

/-- Whether the only argument of a test may begin with a token. -/
def startsArgument : Token → Bool
  | .name n => n != "and" && n != "or" && n != "else" && n != "is"
  | .text _ | .int _ | .float _ => true
  | .sign s => s == .plus || s == .minus || s == .openBracket || s == .openBrace
  | .bad _ => false

/-- The arguments of a test: in parentheses, or a single one without. -/
def testArguments (term atom : Front Term) : Front (List (Passing × Term))
  | ⟨.sign .openParen, _⟩ :: ts => arguments term ts
  | t :: ts =>
    if startsArgument t.token then do
      let (e, ts) ← plain term atom (t :: ts)
      .ok ([(.position, e)], ts)
    else .ok ([], t :: ts)
  | [] => .ok ([], [])

/-- Goes on with filters and tests. -/
def filteredFrom (start : Nat) (term atom : Front Term) : (fuel : Nat) → Term → Front Term
  | 0, e, ts => .ok (e, ts)
  | fuel + 1, e, ts =>
    match ts with
    | ⟨.sign .bar, _⟩ :: ts => do
      let (name, ts) ← dottedName ts
      let (args, ts) ← match skip? (.sign .openParen) ts with
        | some ts => arguments term ts
        | none => .ok ([], ts)
      filteredFrom start term atom fuel (.filter e name args) ts
    | ⟨.name "is", _⟩ :: ts => do
      let (negated, ts) := match skip? (.name "not") ts with
        | some ts => (true, ts)
        | none => (false, ts)
      let (name, ts) ← dottedName ts
      let (args, ts) ← testArguments term atom ts
      let tested := Term.test e name args
      filteredFrom start term atom fuel (if negated then .invert start tested else tested) ts
    | ts => .ok (e, ts)

/-- An operand with filters and tests. -/
def operand (term atom : Front Term) : Front Term := fun ts => do
  let start := lineOf ts
  let (e, ts) ← plain term atom ts
  filteredFrom start term atom ts.length e ts

/-! ## Terms -/

/-- A term without `if`, from the readers of nested terms. -/
def looseTerm (operand : Front Term) : Front Term :=
  chain disjOperator? <| chain conjOperator? <| inverted <| compared <| chain sumOperator? <|
    chain concatOperator? <| chain productOperator? <| chain powerOperator? operand

/-- Goes on with conditions. What follows `else` may have conditions of its own. -/
def conditionalFrom (loose : Front Term) : (fuel : Nat) → Term → Front Term
  | 0, e, ts => .ok (e, ts)
  | fuel + 1, e, ts =>
    match skip? (.name "if") ts with
    | none => .ok (e, ts)
    | some ts => do
      let (test, ts) ← loose ts
      match skip? (.name "else") ts with
      | none => conditionalFrom loose fuel (.conditional test e none) ts
      | some ts =>
        let (otherwise, ts) ← loose ts
        let (otherwise, ts) ← conditionalFrom loose fuel otherwise ts
        conditionalFrom loose fuel (.conditional test e (some otherwise)) ts

/-- Too many levels. -/
def tooDeep : Front Term := fun _ => .error ⟨.malformed, 0⟩

/-- A term without `if`, where so many levels are left for nested terms. A term takes one level, and
an operand in parentheses or brackets one more. -/
def loose : (levels : Nat) → Front Term
  | 0, ts => looseTerm (operand tooDeep tooDeep) ts
  | 1, ts => looseTerm (operand (full (loose 0)) (primary tooDeep)) ts
  | levels + 2, ts =>
    looseTerm (operand (full (loose (levels + 1))) (primary (full (loose levels)))) ts
where
  /-- A term with conditions. -/
  full (loose : Front Term) : Front Term := fun ts => do
    let (e, ts) ← loose ts
    conditionalFrom loose (ts.length + 1) e ts

/-- A term. -/
def term (levels : Nat) : Front Term := loose.full (loose levels)

/-- The term of a text. -/
def Term.read (text : String) : Except Located Term := do
  let (e, ts) ← term (maxLevels - 1) (lex text)
  match ts with
  | [] => .ok e
  | ts => .error (unexpected ts)

end FlowEngine.Expr
