import LogHygiene.Syntax.JavaScript.Expression

/-!
# JavaScript: classes, variables, functions and declarations of types
-/

set_option autoImplicit false

namespace LogHygiene.Syntax.JavaScript

/-! ## Classes -/

/-- One member of a class, with what ends it. -/
def classMember (d : Dialect) (inner : Inner) : Rule Node := do
  let r ← ahead
  let ds ← decorators d inner
  let demand (b : Bool) : Rule Unit := if b then pure () else stuckAhead
  let ended (mid : Bool) : Rule Unit := do
    if !(← Rule.onlyIf d.types (trySign ",")) then semicolon d mid
  let signed ← if d.types && ds.isEmpty then Rule.optional (indexSignature inner) else pure none
  if let some n := signed then
    ended false
    pure n
  else if ds.isEmpty && (← atKeyword "static") && (← secondWord).peek == '\x7b' then
    keyword "static"
    let b ← inner .block
    Rule.node .clause r.pos [b]
  else
    let signatures := if d.types then signatureOrders else []
    let before ← passModifiers d (methodOrders d ++ signatures ++ fieldOrders d)
    let w ← nextWord
    if d.types && pureModifiers.contains w && inOrder (signatures ++ fieldOrders d) (before ++ [w]) then
      keyword w
      stuckAhead
    let key ← propertyName inner .propertyName
    let asked ← if d.types then trySign "?" else pure false
    let sure ← if d.types && !asked then trySign "!" else pure false
    let s ← ahead
    if !sure && (s.peek == '(' || (d.types && s.peek == '<')) then
      let heading ← signature d inner
      if ← atSign "\x7b" then
        demand (inOrder (methodOrders d) before)
        let b ← inner .block
        let n ← Rule.node .clause r.pos (ds ++ key :: heading ++ [b])
        let _ ← trySign ";"
        pure n
      else
        demand (ds.isEmpty && inOrder signatures before)
        let n ← Rule.phrase .clause r.pos (key :: heading)
        ended false
        pure n
    else
      demand (inOrder (fieldOrders d) before)
      let type ← annotation d inner
      let value ← initializer inner
      let n ← Rule.phrase .clause r.pos (ds ++ key :: type ++ value)
      ended (!value.isEmpty)
      pure n

/-- The members of a class in braces. -/
def classBody (d : Dialect) (inner : Inner) : Rule Node := do
  let r ← ahead
  sign "\x7b"
  let members ← Rule.exposed (Rule.rowOf do
    if ← closes "\x7d" then pure none
    else if ← trySign ";" then pure (some [])
    else return some [← classMember d inner])
  sign "\x7d"
  Rule.node .clause r.pos members

/-- A class with a name. -/
def classDeclaration (d : Dialect) (inner : Inner) : Rule Node := do
  let r ← ahead
  let ds ← decorators d inner
  if d.types then
    let _ ← tryKeyword "abstract"
  keyword "class"
  if (← nextWord) == "extends" then stuckAhead
  let n ← givenName .identifier
  let types ← if d.types then typeParameters inner else pure []
  let bases ← heritage d inner
  let b ← inner .classBody
  Rule.node .classDeclaration r.pos (ds ++ n.withRole .name :: types ++ bases ++ [b])

/-- Whether what comes next can only go on with a value, since no statement starts with it. -/
def goesOnWithValue (d : Dialect) : Rule Bool := do
  let r ← ahead
  let w ← nextWord
  if w != "" then
    pure (["in", "instanceof"].contains w || (d.types && ["as", "satisfies"].contains w))
  else
    pure (["?", "=", ",", "*", "%", "&", "|", "^", ">", "!=", "<=", "<<"].any
        (fun s => r.startsWith s.toList) ||
      (r.peek == '.' && !r.peekSecond.isDigit))

/-! ## Variables and functions -/

/-- One name of a declaration with its value. -/
def declarator (d : Dialect) (inner : Inner) : Rule Node := do
  let r ← ahead
  let n ← binding inner
  let sure ← if d.types && n.kind == .identifier then trySign "!" else pure false
  if sure && (← nextChar) != ':' then stuckAhead
  let type ← annotation d inner
  let value ← if sure then pure [] else initializer inner
  Rule.phrase .declarator r.pos (n.withRole .name :: type ++ value.map (·.withRole .value))

/-- A declaration of variables with its semicolon. -/
def variableStatement (d : Dialect) (inner : Inner) : Rule Node := do
  let r ← ahead
  let w ← nextWord
  keyword w
  let ds ← parted (declarator d inner)
  semicolon d (ds.getLast?.any (fun n => (n.child? .value).isSome))
  Rule.node (if w == "var" then .variableDeclaration else .lexicalDeclaration) r.pos ds

/-- A function with a name. Without a body it is only a signature. -/
def functionDeclaration (d : Dialect) (inner : Inner) : Rule Node := do
  let r ← ahead
  let _ ← tryKeyword "async"
  keyword "function"
  let starred ← trySign "*"
  let n ← givenName .identifier
  let heading ← signature d inner
  if d.types && !starred && !(← atSign "\x7b") then
    semicolon d false
    Rule.node .statement r.pos (n :: heading)
  else
    let b ← inner .block
    Rule.node .functionDeclaration r.pos (n.withRole .name :: heading ++ [b])

/-! ## Declarations of the typed dialects -/

/-- Names parted by dots. -/
def dottedName : Rule Unit := do
  let _ ← nameBefore [".", "\x7b"] .clause
  let _ ← Rule.many do
    if ← trySign "." then
      let _ ← name .clause
      pure (some ())
    else pure none

def typeAlias (d : Dialect) (inner : Inner) : Rule Node := do
  let r ← ahead
  keyword "type"
  let _ ← givenName .clause
  let types ← typeParameters inner
  sign "="
  let t ← inner .type
  semicolon d false
  Rule.node .statement r.pos (types ++ [t])

def interface (d : Dialect) (inner : Inner) : Rule Node := do
  let r ← ahead
  keyword "interface"
  let _ ← givenName .clause
  let types ← typeParameters inner
  let bases ←
    if ← tryKeyword "extends" then parted (namedType inner) else pure []
  let body ← bracedType d inner
  Rule.node .statement r.pos (types ++ bases ++ [body])

def enumeration (inner : Inner) : Rule Node := do
  let r ← ahead
  let _ ← tryKeyword "const"
  keyword "enum"
  let _ ← givenName .clause
  sign "\x7b"
  let members ← Rule.enclosed (listed (do
    let s ← ahead
    let key ← propertyName inner .propertyName
    let value ← initializer inner
    Rule.phrase .clause s.pos (key :: value)) "\x7d")
  sign "\x7d"
  Rule.node .statement r.pos members

/-- `namespace` or `module` with its statements. -/
def moduleDeclaration (inner : Inner) : Rule Node := do
  let r ← ahead
  let w ← nextWord
  keyword w
  let c ← nextChar
  if c == '"' || c == '\'' then
    let _ ← stringLiteral
  else dottedName
  let body ← if ← atSign "\x7b" then List.singleton <$> inner .block else pure []
  Rule.node .statement r.pos body

/-- `import a = b.c`. -/
def importAlias (d : Dialect) : Rule Node := do
  let r ← ahead
  keyword "import"
  let _ ← givenName .identifier
  sign "="
  if (← nextWord) == "require" && (← secondWord).peek == '(' then stuckAhead
  dottedName
  semicolon d false
  Rule.node .statement r.pos []

/-- `declare` and what it declares: a declaration, statements for every module, or a member of this
one. -/
def ambient (d : Dialect) (inner : Inner) : Rule Node := do
  let r ← ahead
  keyword "declare"
  if ← tryKeyword "global" then
    let b ← inner .block
    Rule.node .statement r.pos [b]
  else if (← atKeyword "module") && (← secondWord).peek == '.' then
    keyword "module"
    sign "."
    let _ ← name .propertyName
    sign ":"
    let t ← inner .type
    semicolon d false
    Rule.node .statement r.pos [t]
  else
    let n ← inner .declaration
    Rule.node .statement r.pos [n]

end LogHygiene.Syntax.JavaScript
