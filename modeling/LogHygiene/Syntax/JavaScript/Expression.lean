import LogHygiene.Syntax.JavaScript.Markup

/-!
# JavaScript: expressions

Operands and operators lie side by side in one node, for no question asked of a tree depends on which
operator binds tighter. Calls, members, names, strings, patterns, and the wrappers that leave a value
what it is (brackets, `await`, a type behind `as`) are kept exact.

**Functions look like brackets, and patterns like values.** What stands in brackets is read as a value
first. Only when an arrow or an equals sign behind it says otherwise, or when it is no value, is it read
again as parameters or as a pattern.

**An operand may be assigned to.** `a || b = c` assigns to `b`, for nothing else could be meant; so the
equals sign is looked for behind every operand and not behind whole expressions.
-/

set_option autoImplicit false

namespace LogHygiene.Syntax.JavaScript

/-! ## Functions -/

/-- Words that are no names at the start of a statement. -/
def statementWords (d : Dialect) : List String :=
  operandWords ++ openingWords ++
    ["var", "const", "if", "switch", "for", "while", "do", "try", "with", "break", "continue",
     "return", "throw", "debugger"] ++
    (if d.types then ["abstract", "interface", "enum"] else [])

/-- Whether braces that could hold statements could also be an object. Where a statement could start,
the first word is read as one of those that only statements know, and a name that stands alone is an
expression. -/
def couldBeObject (d : Dialect) : Rule Bool := do
  let back ← Rule.reading
  sign "\x7b"
  let w ← nextWord
  let s ← secondWord
  Rule.goTo back
  pure (w == "" || !((statementWords d).contains w || [',', '\x7d', '='].contains s.peek))

/-- The body of an arrow function. -/
def arrowBody (d : Dialect) (inner : Inner) : Rule Node := do
  if !(← atSign "\x7b") then inner .expression
  else if ← couldBeObject d then inner .block <|> inner .expression
  else inner .block

/-- An arrow function behind `async`, if that came. -/
def arrowFunction (d : Dialect) (inner : Inner) (start : Position) : Rule Node := do
  let heading ←
    if (nameAt (← ahead)).isSome then List.singleton <$> name .identifier
    else if d.results then signature d inner
    else do
      let types ← if d.types then typeParameters inner else pure []
      let ps ← parameters d inner
      pure (types ++ [ps])
  sign "=>"
  let block ← atSign "\x7b"
  let body ← arrowBody d inner
  (if block then Rule.node else Rule.phrase) .expression start (heading ++ [body])

/-- `function` and what follows it, as an expression. -/
def functionExpression (d : Dialect) (inner : Inner) : Rule Node := do
  let r ← ahead
  let _ ← tryKeyword "async"
  keyword "function"
  let _ ← trySign "*"
  let named ← if (nameAt (← ahead)).isSome then List.singleton <$> name .identifier else pure []
  let heading ← signature d inner
  let body ← inner .block
  Rule.node .expression r.pos (named ++ heading ++ [body])

/-! ## Classes -/

/-- A class that another one extends, with the types it takes. -/
def typedBase (inner : Inner) : Rule Node := do
  let typed : Rule Node := do
    let n ← inner .operand
    let types ← if ← atSign "<" then List.singleton <$> typeArguments inner else pure []
    let c ← nextChar
    let w ← nextWord
    if c == '\x7b' || c == ',' || w == "implements" then
      if types.isEmpty then pure n else Rule.node .clause n.span.start (n :: types)
    else stuckAhead
  typed <|> inner .expression

/-- What a class extends and implements. -/
def heritage (d : Dialect) (inner : Inner) : Rule (List Node) := do
  let r ← ahead
  let bases ←
    if ← tryKeyword "extends" then do
      let ns ← Rule.enclosed
        (if d.types then parted (typedBase inner) else List.singleton <$> inner .expression)
      List.singleton <$> Rule.phrase .clause r.pos ns
    else pure []
  let s ← ahead
  let roles ←
    if ← Rule.onlyIf d.types (tryKeyword "implements") then do
      let ns ← Rule.enclosed (parted (inner .type))
      List.singleton <$> Rule.phrase .clause s.pos ns
    else pure []
  pure (bases ++ roles)

/-- `class` and what follows it, as an expression. In the typed dialects its name is that of a type. -/
def classExpression (d : Dialect) (inner : Inner) : Rule Node := do
  let r ← ahead
  let ds ← decorators d inner
  keyword "class"
  let w ← nextWord
  let named ←
    if w != "" && w != "extends" && !(d.types && w == "implements") then
      List.singleton <$> name (if d.types then .clause else .identifier)
    else pure []
  let types ← if d.types then typeParameters inner else pure []
  let bases ← heritage d inner
  let body ← inner .classBody
  Rule.node .expression r.pos (ds ++ named ++ types ++ bases ++ [body])

/-! ## Literals with parts -/

/-- An entry of an object. -/
def objectEntry (d : Dialect) (inner : Inner) : Rule Node := do
  let r ← ahead
  if r.startsWith ['.', '.', '.'] then argument inner
  else
    let ds ← decorators d inner
    let before ← passModifiers d (methodOrders d)
    let key ← propertyName inner .propertyName
    let asked ← if d.types then trySign "?" else pure false
    let s ← ahead
    if s.peek == '(' || (d.types && s.peek == '<') then
      let heading ← signature d inner
      let body ← inner .block
      Rule.node .clause r.pos (ds ++ key :: heading ++ [body])
    else if ds.isEmpty && before.isEmpty && !asked then
      if ← trySign ":" then
        let e ← inner .expression
        Rule.phrase .pair r.pos [key, e]
      else if key.kind == .propertyName then pure (key.withKind .expression)
      else stuckAhead
    else stuckAhead

/-- An object. -/
def objectLiteral (d : Dialect) (inner : Inner) : Rule Node := do
  let r ← ahead
  sign "\x7b"
  let es ← Rule.enclosed (separated (objectEntry d inner) "\x7d")
  sign "\x7d"
  Rule.node .tuple r.pos es

/-- An array. -/
def arrayLiteral (inner : Inner) : Rule Node := do
  let r ← ahead
  sign "["
  let es ← Rule.enclosed (separated (argument inner) "]")
  sign "]"
  Rule.node .list r.pos es

/-- The node as the pattern that it is as well. -/
def asPattern (n : Node) : Rule Node :=
  Rule.node (if n.kind == .tuple then .objectPattern else .arrayPattern) n.span.start n.children

/-- What `literal` reads if nothing is assigned to it, or else a pattern that something is assigned
to. -/
def literalOrPattern (inner : Inner) (literal : Rule Node) : Rule Node :=
  (do let r ← Rule.reading
      let n ← literal
      if !(← atEquals) then pure n
      else if isPattern r.budget n then asPattern n
      else stuckAhead) <|> (do
    let n ← destructured inner
    if ← atEquals then pure n else stuckAhead)

/-- An expression in round brackets. -/
def parenthesized (d : Dialect) (inner : Inner) : Rule Node := do
  let r ← ahead
  sign "("
  let inside ← Rule.enclosed do
    let start ← begin
    let first ← inner .expression
    match ← furtherParts (inner .expression) with
    | [] => return first :: (← annotation d inner)
    | more => List.singleton <$> Rule.phrase .expression start (first :: more)
  sign ")"
  Rule.node .parenthesized r.pos inside

/-- An expression in round brackets, or an arrow function with its parameters there. -/
def parenthesizedOrArrow (d : Dialect) (inner : Inner) : Rule Node := do
  let r ← ahead
  let arrow : Rule Node := arrowFunction d inner r.pos
  let value : Rule Node := do
    let n ← parenthesized d inner
    let s ← ahead
    if s.startsWith ['=', '>'] then stuckAhead
    else if d.types && d.results && s.peek == ':' then
      let back ← Rule.reading
      Rule.goTo r
      arrow <|> (do
        Rule.goTo back
        pure n)
    else pure n
  value <|> arrow

/-- A type in angle brackets in front of an operand. -/
def typeAssertion (inner : Inner) : Rule Node := do
  let r ← ahead
  let t ← typeArguments inner
  let e ← inner .operand
  Rule.phrase .expression r.pos [t, e]

/-! ## Operands -/

/-- Whether what comes next can only go on behind a value, or ends it. -/
def endsValue : Rule Bool := do
  let r ← ahead
  let w ← nextWord
  if w != "" then pure (["in", "instanceof", "as", "satisfies", "of"].contains w)
  else
    let c := r.peek
    pure !(c.isDigit || ['"', '\'', '\x7b', '~', '@', '#'].contains c ||
      (c == '!' && r.peekSecond != '=') || (c == '.' && r.peekSecond.isDigit))

/-- Type arguments behind a value: arguments or a template follow, or nothing that a comparison could
go on with. -/
def valueTypeArguments (inner : Inner) : Rule Node := do
  let r ← ahead
  Rule.require (r.peekSecond != '<' && r.peekSecond != '=')
  let t ← typeArguments inner
  if ← endsValue then pure t else stuckAhead

/-- A call of an operand. -/
def callOf (inner : Inner) (n : Node) (types : List Node) : Rule Node := do
  let args ← if (← nextChar) == '\x60' then template (inner .expressions) else arguments inner
  Rule.node .call n.span.start (n.withRole .callee :: types ++ [args.withRole .arguments])

/-- An operand under way. What is not whole can be called in round brackets only, and not where it is
said to be there. -/
structure Operand where
  node : Node
  whole : Bool := true

/-- One of the things that can follow an operand. -/
def trailer (d : Dialect) (inner : Inner) (o : Operand) : Rule (Option Operand) := do
  let r ← ahead
  let n := o.node
  let c := r.peek
  let operand (n : Node) : Option Operand := some { node := n }
  if ← atOptionalPart then
    let back ← Rule.reading
    sign "?."
    let c ← nextChar
    if c == '(' && o.whole then operand <$> callOf inner n []
    else if d.types && c == '<' && o.whole then
      let t ← typeArguments inner
      if ← atSign "(" then operand <$> callOf inner n [t] else stuckAhead
    else
      Rule.goTo back
      return (← part d inner n).map ({ node := · })
  else if c == '(' || (c == '\x60' && (o.whole || n.kind == .construction)) then
    operand <$> callOf inner n []
  else if d.types && c == '<' then
    match ← Rule.optional (valueTypeArguments inner) with
    | some t =>
      let c ← nextChar
      if c == '(' || c == '\x60' then operand <$> callOf inner n [t]
      else
        let n ← Rule.node .expression n.span.start [n, t]
        pure (some { node := n, whole := false })
    | none => pure none
  else return (← part d inner n).map ({ node := · })

/-- Whether something that `new` could make an instance of comes at a place. -/
def couldBeMade (r : Reading) : Bool :=
  match nameAt r with
  | some (cs, _) => !(["in", "instanceof", "as", "satisfies"].contains (String.ofList cs))
  | none => r.peek.isDigit || ['"', '\'', '\x60', '(', '[', '\x7b', '/', '@', '.'].contains r.peek

/-- `new` and what follows it. -/
def construction (d : Dialect) (inner : Inner) (atom : Rule Node) : Nat → Rule Node
  | 0 => Rule.stuck
  | n + 1 => do
    let r ← ahead
    keyword "new"
    if ← trySign "." then
      keyword "target"
      Rule.node .expression r.pos []
    else
      if ← atKeyword "import" then
        keyword "import"
        stuckAhead
      let first ← if ← atKeyword "new" then construction d inner atom n else atom
      let made ← Rule.iterate (fun n => do
        if (← nextChar) == '\x60' then some <$> callOf inner n [] else part d inner n) first
      let types ←
        if ← Rule.onlyIf d.types (atSign "<") then Rule.optional (typeArguments inner) else pure none
      let args ← if ← atSign "(" then List.singleton <$> arguments inner else pure []
      (if args.isEmpty then Rule.phrase else Rule.node) .construction r.pos
        (made.withRole .constructor :: types.toList ++ args.map (·.withRole .arguments))

/-- An operand that the text lacks. Nothing is assigned to it, and it is no parameter. -/
def missingOperand : Rule Node := do
  let n ← nameBefore ["=>"] .identifier
  if ← atEquals then stuckAhead else pure n

/-- An operand that starts with a letter, without what follows it. `atom` reads what `new` makes an
instance of. -/
def wordAtom (d : Dialect) (inner : Inner) (atom : Rule Node) : Rule Node := do
  let r ← ahead
  let w ← nextWord
  let s ← secondWord
  if s.startsWith ['=', '>'] && !((openingWords ++ operandWords).contains w) then
    arrowFunction d inner r.pos
  else match w with
    | "" => missingOperand
    | "function" => functionExpression d inner
    | "class" => classExpression d inner
    | "new" =>
      if d.types && !couldBeMade s then name .identifier else construction d inner atom r.budget
    | "async" =>
      if ← endsBehindWord d.types true then name .identifier
      else if (nameAt s).any (fun (cs, _) => cs == "function".toList) then functionExpression d inner
      else if (nameAt s).isSome || s.peek == '(' || s.peek == '<' then
        (do keyword "async"
            arrowFunction d inner r.pos) <|> name .identifier
      else name .identifier
    | "import" =>
      if s.peek == '(' || s.peek == '.' || s.startsWith ['?', '.'] then name .expression
      else do
        keyword w
        stuckAhead
    | w =>
      if openingWords.contains w then stuckAhead
      else name (if operandWords.contains w then .expression else .identifier)

/-- An operand without what follows it. -/
def atom (d : Dialect) (inner : Inner) : Nat → Rule Node
  | 0 => Rule.stuck
  | fuel + 1 => do
    let start ← begin
    let r ← ahead
    match r.peek with
    | '"' | '\'' => stringLiteral
    | '\x60' => template (inner .expressions)
    | '(' => parenthesizedOrArrow d inner
    | '[' => literalOrPattern inner (arrayLiteral inner)
    | '\x7b' => literalOrPattern inner (objectLiteral d inner)
    | '/' => regularExpression
    | '<' =>
      let generic : Rule Node := do
        Rule.require d.types
        arrowFunction d inner start
      if d.markup then generic <|> element d inner r.budget
      else generic <|> typeAssertion inner
    | '@' => classExpression d inner
    | '#' => do
      let n ← privateName
      if ← atKeyword "in" then pure n else stuckAhead
    | _ =>
      match numeralEnd r with
      | some r' =>
        Rule.goTo r'
        Rule.node .expression start []
      | none => wordAtom d inner (atom d inner fuel)

/-- Signs that change a variable in place. -/
def changingSigns : List String :=
  [">>>=", "<<=", ">>=", "**=", "&&=", "||=", "??=", "+=", "-=", "*=", "/=", "%=", "^=", "&=", "|="]

/-- Assign to an operand, if a sign says so. -/
def assigned (inner : Inner) (n : Node) : Rule Node := do
  let r ← ahead
  let start := n.span.start
  if !(isTarget n.kind || n.kind == .parenthesized) then pure n
  else if ← atEquals then
    sign "="
    let e ← inner .expression
    Rule.phrase .assignment start [n.withRole .left, e.withRole .right]
  else if n.kind == .objectPattern || n.kind == .arrayPattern then pure n
  else
    match changingSigns.find? (fun s => r.startsWith s.toList) with
    | some s =>
      sign s
      let e ← inner .expression
      Rule.phrase .expression start [n.withRole .left, e.withRole .right]
    | none => pure n

/-- The sign that counts something up or down, if one comes next. -/
def countingSign : Rule (Option String) := do
  let r ← ahead
  pure (["++", "--"].find? (fun s => r.startsWith s.toList))

/-- What follows an operand. -/
def extended (d : Dialect) (inner : Inner) (first : Operand) : Rule Node :=
  Operand.node <$> Rule.iterate (fun o => do
    match ← if ← endsHere d.types true then pure none else countingSign with
    | some s =>
      sign s
      let n ← Rule.node .expression o.node.span.start [o.node]
      pure (some { node := n, whole := false })
    | none => trailer d inner o) first

/-- What follows an operand, with an assignment to it. -/
def completed (d : Dialect) (inner : Inner) (first : Operand) : Rule Node := do
  assigned inner (← extended d inner first)

/-- An operand up to what follows it. -/
def firstOperand (d : Dialect) (inner : Inner) : Rule Operand := do
  let r ← ahead
  let n ← atom d inner r.budget
  pure { node := n, whole := r.peek != '<' && r.peek != '#' && n.kind != .construction }

/-- `yield` and what it yields. Alone it is an operand, of which a member can be taken. -/
def yieldExpression (d : Dialect) (inner : Inner) : Rule Node := do
  let start ← begin
  keyword "yield"
  if ← trySign "*" then
    let e ← inner .expression
    Rule.phrase .expression start [e]
  else
    let operand ← if ← endsHere d.types true then pure none else Rule.optional (inner .expression)
    match operand with
    | some e => Rule.phrase .expression start [e]
    | none =>
      let alone ← Rule.node .expression start []
      if (← nextChar) == '.' || (← atSign "?.") then
        completed d inner { node := alone, whole := false }
      else pure alone

/-- An assignment to a name that is disposed of where its block ends. -/
def disposed (d : Dialect) (inner : Inner) : Rule Node := do
  let start ← begin
  keyword "using"
  let n ← completed d inner (← firstOperand d inner)
  if n.kind == .assignment then Rule.phrase .assignment start n.children else stuckAhead

/-- An operand: an atom with what follows it, behind operators that take one operand. Alone, what is
undefined can be assigned to. -/
def operand (d : Dialect) (inner : Inner) : Rule Node := do
  let start ← begin
  let r ← ahead
  let w ← nextWord
  let prefixed (kind : Kind) (word : Rule Unit) : Rule Node := do
    word
    let n ← inner .operand
    Rule.phrase kind start [n]
  match ← countingSign with
  | some s => prefixed .expression (sign s)
  | none =>
    if ['!', '~', '-', '+'].contains r.peek then
      prefixed .expression (sign (String.singleton r.peek))
    else if w == "typeof" || w == "void" || w == "delete" then prefixed .expression (keyword w)
    else if w == "await" then prefixed .awaited (keyword w)
    else if w == "yield" then yieldExpression d inner
    else if w == "using" then disposed d inner
    else
      let first ← firstOperand d inner
      let n ← extended d inner first
      if w == "undefined" && n.stop == first.node.stop && (← atEquals) then
        sign "="
        let e ← inner .expression
        Rule.phrase .assignment start [n.withRole .left, e.withRole .right]
      else assigned inner n

/-! ## Operators -/

/-- Signs that join two operands, longer ones first. -/
def joiningSigns : List String :=
  [">>>", "===", "!==", "&&", "||", "??", ">>", "<<", "==", "!=", "<=", ">=", "**", "&", "^", "|",
   "+", "-", "*", "/", "%", "<", ">"]

/-- The sign that joins what was read with what comes next. -/
def joiningSign : Rule (Option String) := do
  let r ← ahead
  if (← countingSign).isSome || changingSigns.any (fun s => r.startsWith s.toList) then pure none
  else pure (joiningSigns.find? (fun s => r.startsWith s.toList))

/-- The type behind `as`. Of a dotted name of more than two words only two are the type; the others are
members of the value. -/
def castType (inner : Inner) : Rule Node := do
  let back ← Rule.reading
  let words ← Rule.optional dottedWords
  let dotted ← Rule.reading
  Rule.goTo back
  let t ← inner .type
  let whole ← Rule.reading
  if whole.pos == dotted.pos && 2 < (words.getD []).length then
    Rule.goTo back
    let _ ← name .identifier
    sign "."
    let _ ← name .clause
    Rule.node .clause t.span.start []
  else pure t

/-- A type behind `as` or `satisfies`, if the dialect has types and one of the words comes on this
line. -/
def cast (d : Dialect) (inner : Inner) : Rule (Option (Kind × Node)) := do
  let w ← nextWord
  if d.types && (w == "as" || w == "satisfies") && !(← endsHere true true) then
    keyword w
    let t ← castType inner
    pure (some (if w == "as" then .typeCast else .typeCheck, t))
  else pure none

/-- Operands as one node. -/
def joined (start : Position) : List Node → Rule Node
  | [n] => pure n
  | ns => Rule.phrase .expression start ns

/-- Operands joined by signs. -/
def joinedBySigns (inner : Inner) : Rule Node := do
  let start ← begin
  let first ← inner .operand
  let ns ← Rule.iterate (fun ns => do
    match ← joiningSign with
    | some s =>
      sign s
      return some (ns ++ [← inner .operand])
    | none => pure none) [first]
  joined start ns

/-- Operands joined by operators, behind those read so far. -/
def chain (d : Dialect) (inner : Inner) (start : Position) (ns : List Node) :
    Rule (Option (List Node)) := do
  match ← joiningSign with
  | some s =>
    let _ ← joined start ns
    sign s
    return some (ns ++ [← inner .operand])
  | none =>
    let w ← nextWord
    if w == "in" || w == "instanceof" then
      let _ ← joined start ns
      keyword w
      return some (ns ++ [← inner .operand])
    else
      match ← cast d inner with
      | some (kind, t) =>
        let value ← joined start ns
        let n ← Rule.phrase kind start [value, t]
        return some [← completed d inner { node := n, whole := false }]
      | none => pure none

/-- Whether a question mark that asks comes next. -/
def atQuestion : Rule Bool := do
  let r ← ahead
  pure (r.peek == '?' && r.peekSecond != '?' &&
    (r.peekSecond != '.' || (r.steps 2).peek.isDigit))

/-- The first answer of a choice and the colon behind it. An arrow function in it that would take the
colon for that of its result gives way. -/
def firstAnswer (d : Dialect) (inner : Inner) : Rule Node := do
  let back ← Rule.reading
  let yes ← Rule.enclosed (inner .expression)
  if (← atSign ":") || !(d.types && d.results) then
    sign ":"
    pure yes
  else
    Rule.goTo back
    let yes ← Rule.enclosed (inner .consequence)
    sign ":"
    pure yes

/-- An expression without commas. -/
def expression (d : Dialect) (inner : Inner) : Rule Node := do
  let start ← begin
  let first ← operand d inner
  let n ← joined start (← Rule.iterate (chain d inner start) [first])
  if ← atQuestion then
    sign "?"
    let yes ← firstAnswer d inner
    let no ← inner .expression
    Rule.phrase .expression start [n, yes, no]
  else pure n

/-- Expressions parted by commas. -/
def expressions (inner : Inner) : Rule Node := do
  let start ← begin
  match ← parted (inner .expression) with
  | [n] => pure n
  | ns => Rule.phrase .expression start ns

end LogHygiene.Syntax.JavaScript
