import LogHygiene.Syntax.JavaScript.Pattern

/-!
# JavaScript with types: types and parameters

Nothing that is asked of a tree looks into a type. The rules here find where a type ends and whether it
is one; the node keeps only the expressions and names of values that can stand in a type.

**A name may take types, other types may not.** `number < y` compares, but behind a name a `<` opens the
types that the name takes.
-/

set_option autoImplicit false

namespace LogHygiene.Syntax.JavaScript

/-- Types in angle brackets. -/
def typeArguments (inner : Inner) : Rule Node := do
  let r ← ahead
  sign "<"
  let ts ← Rule.enclosed (listedSome (inner .type) ">")
  sign ">"
  Rule.node .clause r.pos ts

/-- A name for a type, with a bound and with a type for when none is given. -/
def typeParameter (inner : Inner) : Rule Node := do
  let r ← ahead
  if (← atKeyword "const") && (nameAt (← secondWord)).isSome then keyword "const"
  let _ ← nameBefore [":", "=", "extends"] .clause
  let bound ←
    if (← tryKeyword "extends") || (← trySign ":") then List.singleton <$> inner .type else pure []
  let standard ← if ← trySign "=" then List.singleton <$> inner .type else pure []
  Rule.phrase .clause r.pos (bound ++ standard)

/-- Type parameters in angle brackets, if any come. -/
def typeParameters (inner : Inner) : Rule (List Node) := do
  let r ← ahead
  if ← trySign "<" then
    let ps ← Rule.enclosed (listedSome (typeParameter inner) ">")
    sign ">"
    return [← Rule.node .clause r.pos ps]
  else pure []

/-- A colon and what `type` reads, if the dialect has types and a colon comes. -/
def annotated (d : Dialect) (type : Rule Node) : Rule (List Node) := do
  let r ← ahead
  if ← Rule.onlyIf d.types (trySign ":") then
    let t ← type
    return [← Rule.phrase .clause r.pos [t]]
  else pure []

/-- A colon and a type, if the dialect has types and a colon comes. -/
def annotation (d : Dialect) (inner : Inner) : Rule (List Node) := annotated d (inner .type)

/-- An equals sign and an expression, if the sign comes. -/
def initializer (inner : Inner) : Rule (List Node) := do
  if ← atEquals then
    sign "="
    List.singleton <$> inner .expression
  else pure []

/-! ## Decorators -/

/-- A decorator behind its sign: a name or a member, which may be called once. -/
def decoration (d : Dialect) (inner : Inner) : Rule Node := do
  let first ← nameBefore [".", "(", "<"] .identifier
  let n ← Rule.iterate (fun n => do
    if ← trySign "." then
      let p ← name .propertyName
      return some (← Rule.node .member n.span.start [n.withRole .object, p.withRole .property])
    else pure none) first
  let types ←
    if ← Rule.onlyIf d.types (atSign "<") then List.singleton <$> typeArguments inner else pure []
  if !types.isEmpty || (← atSign "(") then
    let args ← arguments inner
    Rule.node .call n.span.start (n.withRole .callee :: types ++ [args.withRole .arguments])
  else pure n

/-- All decorators that come. -/
def decorators (d : Dialect) (inner : Inner) : Rule (List Node) := Rule.many do
  let r ← ahead
  if ← trySign "@" then
    let n ←
      if ← Rule.onlyIf d.types (trySign "(") then do
        let n ← Rule.enclosed (decoration d inner)
        sign ")"
        pure n
      else decoration d inner
    return some (← Rule.node .clause r.pos [n])
  else pure none

/-! ## Parameters -/

/-- Take the words in front of a parameter. A word is one of them only when the parameter still comes
behind it. -/
def passParameterModifiers : Rule (List String) :=
  Rule.iterate (fun taken => do
    let w ← nextWord
    let s ← secondWord
    let more := taken ++ [modifierClass w]
    if inOrder [["public", "override", "readonly"]] more &&
        ((nameAt s).isSome || s.peek == '[' || s.peek == '\x7b' || s.startsWith ['.', '.', '.']) then
      keyword w
      pure (some more)
    else pure none) []

/-- One parameter. -/
def parameter (d : Dialect) (inner : Inner) : Rule Node := do
  let r ← ahead
  if d.types then
    let ds ← decorators d inner
    let _ ← passParameterModifiers
    let n ← if ← atKeyword "this" then name .clause else pattern d inner
    let _ ← trySign "?"
    let type ← annotation d inner
    let value ← initializer inner
    Rule.phrase .clause r.pos (ds ++ n :: type ++ value)
  else withStandard inner (← pattern d inner)

/-- Parameters in round brackets. -/
def parameters (d : Dialect) (inner : Inner) : Rule Node := do
  let r ← ahead
  sign "("
  let ps ← Rule.enclosed (listed (parameter d inner) ")")
  sign ")"
  Rule.node .clause r.pos ps

/-- The type of a result, or what the result tells about an argument. -/
def resultType (inner : Inner) : Rule Node := do
  let r ← ahead
  let subject : Rule Node := do
    givenName (if ← atKeyword "this" then .clause else .identifier)
  if ← tryKeyword "asserts" then
    let n ← subject
    let type ← if ← tryKeyword "is" then List.singleton <$> inner .type else pure []
    Rule.phrase .clause r.pos (n :: type)
  else
    (do let n ← subject
        keyword "is"
        let t ← inner .type
        Rule.phrase .clause r.pos [n, t]) <|> inner .type

/-- Type parameters, parameters and the type of the result. -/
def signature (d : Dialect) (inner : Inner) : Rule (List Node) := do
  let types ← if d.types then typeParameters inner else pure []
  let ps ← parameters d inner
  let result ← annotated d (resultType inner)
  pure (types ++ ps :: result)

/-! ## Types in braces -/

/-- Whether a type in braces ends here. -/
def atTypeEnd : Rule Bool := do
  if ← atSign "\x7d" then pure true else atSign "|\x7d"

/-- What ends a member of a type: a comma, a semicolon or the line. The last member needs no end. -/
def memberEnd (d : Dialect) : Rule Unit := do
  if ← trySign "," then pure ()
  else if ← atTypeEnd then pure ()
  else semicolon d false

/-- A type for every key of a type, as in `[key: string]: T` and `[K in T]?: U`. -/
def indexSignature (inner : Inner) : Rule Node := do
  let r ← ahead
  if (← trySign "-") || (← trySign "+") then keyword "readonly"
  else
    let _ ← tryKeyword "readonly"
  sign "["
  let inside ← Rule.enclosed do
    let n ← givenName .clause
    if ← trySign ":" then
      let t ← inner .type
      pure [n.withKind .identifier, t]
    else
      keyword "in"
      let t ← inner .type
      let other ← if ← tryKeyword "as" then List.singleton <$> inner .type else pure []
      pure (t :: other)
  sign "]"
  let s ← ahead
  match ["-?:", "+?:", "?:", ":"].find? (fun mark => s.startsWith mark.toList) with
  | some mark =>
    sign mark
    let t ← inner .type
    Rule.phrase .clause r.pos (inside ++ [t])
  | none => stuckAhead

/-- One member of a type in braces that is no index signature. -/
def namedMember (d : Dialect) (inner : Inner) : Rule Node := do
  let r ← ahead
  let w ← nextWord
  let s ← secondWord
  if r.peek == '(' || r.peek == '<' then
    let children ← signature d inner
    Rule.phrase .clause r.pos children
  else if w == "new" && (s.peek == '(' || s.peek == '<') then
    keyword "new"
    let children ← signature d inner
    Rule.phrase .clause r.pos children
  else if w == "abstract" && (nameAt s).any (fun (cs, _) => cs == "new".toList) then
    keyword "abstract"
    keyword "new"
    let children ← signature d inner
    Rule.phrase .clause r.pos children
  else
    let before ← passModifiers d (methodOrders d)
    let key ← propertyName inner .propertyName
    let _ ← trySign "?"
    let s ← ahead
    if s.peek == '(' || s.peek == '<' then
      let children ← signature d inner
      Rule.phrase .clause r.pos (key :: children)
    else if inOrder [["public", "static", "override", "readonly"]] before then
      let type ← annotation d inner
      Rule.phrase .clause r.pos (key :: type)
    else stuckAhead

/-- Whether an export comes next and no member of that name. -/
def atExport : Rule Bool := do
  let s ← secondWord
  return (← atKeyword "export") && !(['?', ':', '(', '<', ',', ';', '\x7d'].contains s.peek)

/-- A type in braces, which may have strokes on their inner sides. -/
def bracedType (d : Dialect) (inner : Inner) : Rule Node := do
  let r ← ahead
  sign "\x7b"
  if (← Rule.reading).peek == '|' then sign "|"
  let opened ← if ← trySign ";" then pure true else trySign ","
  let members ← Rule.exposed (Rule.rowOf do
    if ← atTypeEnd then pure none
    else
      let n ← if ← atExport then inner .statement else indexSignature inner <|> namedMember d inner
      memberEnd d
      pure (some [n]))
  if opened && members.isEmpty then stuckAhead
  if !(← trySign "|\x7d") then sign "\x7d"
  Rule.node .clause r.pos members

/-! ## Types -/

/-- An element of a tuple type. -/
def tupleElement (inner : Inner) : Rule Node := do
  let r ← ahead
  let rest ← trySign "..."
  (do let n ← givenName .identifier
      if !rest then
        let _ ← trySign "?"
      sign ":"
      let t ← inner .type
      Rule.phrase .clause r.pos [n, t]) <|> (do
    let t ← inner .type
    if !rest then
      let _ ← trySign "?"
    Rule.phrase .clause r.pos [t])

/-- A function type behind its type parameters. -/
def functionType (d : Dialect) (inner : Inner) : Rule Node := do
  let r ← ahead
  let types ← typeParameters inner
  let ps ← parameters d inner
  sign "=>"
  let result ← resultType inner
  Rule.phrase .clause r.pos (types ++ [ps, result])

/-- Words for types that are always there. -/
def predefinedTypes : List String :=
  ["any", "number", "boolean", "string", "symbol", "void", "unknown", "never", "object"]

/-- Words that are types of their own and take no types. -/
def typeWords : List String :=
  predefinedTypes ++ ["this", "null", "undefined", "true", "false", "const"]

/-- The words of a dotted name, the first of which stands here. -/
def dottedWords : Rule (List Node) := do
  let first ← nameBefore [".", "<"] .clause
  let more ← Rule.many do
    let s ← ahead
    if s.peek == '.' && s.peekSecond != '.' then
      sign "."
      some <$> name .clause
    else pure none
  pure (first :: more)

/-- A type by its name, with the types it takes. Behind a name of more than two words a `<` may also
compare. -/
def namedType (inner : Inner) : Rule Node := do
  let r ← ahead
  let words ← dottedWords
  let n ← match words with
    | [n] => pure n
    | words => Rule.node .clause r.pos ((words.take 1).map (·.withKind .identifier))
  let s ← ahead
  if s.peek != '<' || s.peekSecond == '=' then pure n
  else
    let args ←
      if words.length ≤ 2 && s.peekSecond != '<' then some <$> typeArguments inner
      else Rule.optional (typeArguments inner)
    match args with
    | some args => Rule.node .clause r.pos [n, args]
    | none => pure n

/-- A module that is imported as a type, with members of it. -/
def importedType (inner : Inner) : Rule Node := do
  let r ← ahead
  keyword "import"
  let start ← Rule.node .clause r.pos []
  let called (n : Node) : Bool := !n.children.isEmpty && n.kind == .call
  let n ← Rule.iterate (fun n => do
    if ← trySign "." then
      let _ ← if (← nextChar) == '#' then privateName else name .clause
      return some (← Rule.node .clause r.pos n.children)
    else if ← Rule.onlyIf (!called n) (atSign "(") then
      let args ← arguments inner
      return some (← Rule.node .call r.pos ((n.children ++ [args]).map (·.withRole .arguments)))
    else pure none) start
  if n.stop == start.stop then stuckAhead else pure n

/-- A member, an element or a call of a value that a type is asked of. An element is named by a string,
a number or a word for a type. -/
def queried (inner : Inner) (n : Node) : Rule (Option Node) := do
  let start := n.span.start
  let s ← ahead
  let element : Rule Node := do
    sign "["
    let c ← nextChar
    if c == '"' || c == '\'' then
      let _ ← stringLiteral
    else match numeralEnd (← ahead) with
      | some s => Rule.goTo s
      | none =>
        if predefinedTypes.contains (← nextWord) then keyword (← nextWord) else stuckAhead
    sign "]"
    Rule.node .subscript start [n.withRole .object]
  if s.startsWith ['?', '.'] then
    sign "?."
    some <$> if ← atSign "[" then element else memberOf n
  else if s.peek == '.' then
    sign "."
    some <$> memberOf n
  else if s.peek == '[' && !(← endsHere true false) then Rule.optional element
  else if s.peek == '(' && n.kind != .call && !(← endsHere true false) then
    let args ← arguments inner
    return some (← Rule.node .call start [n.withRole .callee, args.withRole .arguments])
  else pure none

/-- The type of a value, behind `typeof`. -/
def typeQuery (inner : Inner) : Rule Node := do
  let r ← ahead
  keyword "typeof"
  let w ← nextWord
  let first ← name (if w == "this" || w == "import" then .clause else .identifier)
  if w == "import" && !(["(", "<"].contains (String.singleton (← nextChar))) then stuckAhead
  let n ← Rule.iterate (queried inner) first
  match ← if ← Rule.onlyIf (n.kind != .call) (atSign "<") then Rule.optional (typeArguments inner)
    else pure none with
  | some args => Rule.node .clause r.pos [n, args]
  | none => pure n

/-- A type without what follows it. -/
def typeAtom (d : Dialect) (inner : Inner) : Rule Node := do
  let r ← ahead
  let c := r.peek
  let wrapped (k : String) : Rule Node := do
    keyword k
    let t ← inner .type
    Rule.phrase .clause r.pos [t]
  if c == '(' then
    functionType d inner <|> (do
      sign "("
      let t ← Rule.enclosed (inner .type)
      sign ")"
      Rule.node .clause r.pos [t])
  else if c == '<' then functionType d inner
  else if c == '[' then
    sign "["
    let ts ← Rule.enclosed (listedLoosely (tupleElement inner) "]")
    sign "]"
    Rule.node .clause r.pos ts
  else if c == '\x7b' then bracedType d inner
  else if c == '"' || c == '\'' then (·.withKind .clause) <$> stringLiteral
  else if c == '\x60' then template (inner .type)
  else if c == '*' then
    sign "*"
    Rule.node .clause r.pos []
  else if c == '?' then
    sign "?"
    let t ← inner .type
    Rule.phrase .clause r.pos [t]
  else if c == '-' || c == '+' then
    sign (String.singleton c)
    let s ← ahead
    match numeralEnd s with
    | some s' =>
      Rule.goTo s'
      Rule.node .clause r.pos []
    | none => Rule.stuckAt s.pos.byte
  else match numeralEnd r with
    | some s =>
      Rule.goTo s
      Rule.node .clause r.pos []
    | none =>
      match ← nextWord with
      | "new" => do
        keyword "new"
        functionType d inner
      | "abstract" => do
        keyword "abstract"
        keyword "new"
        functionType d inner
      | "import" => importedType inner
      | "typeof" => typeQuery inner
      | "infer" => do
        keyword "infer"
        let _ ← name .clause
        let bound ←
          Rule.optional do
            keyword "extends"
            inner .type
        Rule.phrase .clause r.pos bound.toList
      | "keyof" => wrapped "keyof"
      | "readonly" => wrapped "readonly"
      | "unique" => do
        keyword "unique"
        keyword "symbol"
        Rule.node .clause r.pos []
      | w => if typeWords.contains w then name .clause else namedType inner

/-- Square brackets behind a type. -/
def typeTrailer (inner : Inner) (n : Node) : Rule (Option Node) := do
  if (← atSign "[") && !(← endsHere true false) then
    sign "["
    let inside ← if ← atSign "]" then pure [] else List.singleton <$> Rule.enclosed (inner .type)
    sign "]"
    return some (← Rule.node .clause n.span.start (n :: inside))
  else pure none

/-- Take a sign that joins types. -/
def tryJoint : Rule Bool := do
  let r ← ahead
  if (r.peek == '|' || r.peek == '&') && r.peekSecond != r.peek && r.peekSecond != '\x7d' then
    sign (String.singleton r.peek)
    pure true
  else pure false

/-- A type. -/
def typeExpression (d : Dialect) (inner : Inner) : Rule Node := do
  let r ← ahead
  let member : Rule Node := do
    let w ← nextWord
    let n ← typeAtom d inner
    if w == "infer" || w == "import" then pure n else Rule.iterate (typeTrailer inner) n
  let _ ← tryJoint
  let first ← member
  let more ← Rule.many do
    if ← tryJoint then some <$> member else pure none
  let n ← if more.isEmpty then pure first else Rule.phrase .clause r.pos (first :: more)
  if (← atKeyword "extends") && !(← endsHere true false) then
    keyword "extends"
    let bound ← Rule.enclosed (inner .type)
    sign "?"
    let yes ← Rule.enclosed (inner .type)
    sign ":"
    let no ← inner .type
    Rule.phrase .clause r.pos [n, bound, yes, no]
  else pure n

end LogHygiene.Syntax.JavaScript
