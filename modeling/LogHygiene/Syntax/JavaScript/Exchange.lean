import LogHygiene.Syntax.JavaScript.Declaration

/-!
# JavaScript: imports and exports
-/

set_option autoImplicit false

namespace LogHygiene.Syntax.JavaScript

/-! ## Names -/

/-- A name in an import or an export: a word or a string. -/
def exchangedName : Rule Node := do
  let c ← nextChar
  if c == '"' || c == '\'' then stringLiteral else name .identifier

/-- A name in the braces of an import or an export, with another name behind `as` or without. What is
imported can be a string only under another name, and that name is a word. -/
def exchanged (d : Dialect) (imports : Bool) (kind : Kind) : Rule Node := do
  let r ← ahead
  let w ← nextWord
  if d.types && (w == "type" || w == "typeof") then
    let s ← secondWord
    let next := (nameAt s).map (fun (cs, _) => String.ofList cs)
    if !imports || w == "typeof" || s.peek == '"' || s.peek == '\'' || (next.isSome && next != some "as")
    then keyword w
  let n ← exchangedName
  if ← tryKeyword "as" then
    let newName ← if imports then name .identifier else exchangedName
    Rule.node kind r.pos [n.withRole .name, newName.withRole .alias]
  else if imports && n.kind == .string then stuckAhead
  else Rule.node kind r.pos [n.withRole .name]

/-- Exchanged names in braces. -/
def exchangedNames (d : Dialect) (imports : Bool) (kind inside : Kind) : Rule Node := do
  let r ← ahead
  sign "\x7b"
  let ns ← listedLoosely (exchanged d imports inside) "\x7d"
  sign "\x7d"
  Rule.node kind r.pos ns

/-- The module that names come from. -/
def sourceClause : Rule (List Node) := do
  let r ← ahead
  keyword "from"
  let s ← stringLiteral
  Rule.row false r.pos
  pure [s.withRole .source]

/-! ## Imports -/

/-- `* as n`. -/
def namespaceImport : Rule Node := do
  let r ← ahead
  sign "*"
  keyword "as"
  let n ← name .identifier
  Rule.node .namespaceImport r.pos [n]

/-- What an import binds. -/
def importClause (d : Dialect) : Rule Node := do
  let r ← ahead
  let many : Rule Node := do
    if ← atSign "*" then namespaceImport else exchangedNames d true .namedImports .importSpecifier
  if r.peek == '*' || r.peek == '\x7b' then
    let n ← many
    Rule.node .importClause r.pos [n]
  else
    let n ← nameBefore [","] .identifier
    if ← trySign "," then
      let m ← many
      Rule.node .importClause r.pos [n, m]
    else Rule.node .importClause r.pos [n]

/-- `with` and the attributes of an import. -/
def importAttributes (d : Dialect) (inner : Inner) : Rule (List Node) := do
  let r ← ahead
  if (← atKeyword "with") && !(← endsHere d.types false) then
    keyword "with"
    let n ← objectLiteral d inner
    return [← Rule.node .clause r.pos [n]]
  else pure []

/-- `import x = require('m')` behind its keyword. -/
def importRequire (d : Dialect) : Rule Node := do
  let r ← ahead
  Rule.require d.types
  let n ← givenName .identifier
  sign "="
  keyword "require"
  sign "("
  let s ← stringLiteral
  sign ")"
  Rule.node .clause r.pos [n, s.withRole .source]

/-- An import statement. -/
def importStatement (d : Dialect) (inner : Inner) : Rule Node := do
  let r ← ahead
  keyword "import"
  let source : Rule (List Node) := do
    let s ← stringLiteral
    pure [s.withRole .source]
  let clause : Rule (List Node) := do
    let n ← importClause d
    return n :: (← sourceClause)
  let any : Rule (List Node) := do
    let c ← nextChar
    if c == '"' || c == '\'' then source
    else clause <|> List.singleton <$> importRequire d
  let typed : Rule (List Node) := do
    let w ← nextWord
    Rule.require (d.types && (w == "type" || w == "typeof"))
    keyword w
    any
  let children ← if ← Rule.onlyIf d.types (atKeyword "typeof") then typed else typed <|> any
  let attributes ← importAttributes d inner
  semicolon d false
  Rule.node .importStatement r.pos (children ++ attributes)

/-! ## Exports -/

/-- A declaration that is exported, or what is exported for want of another name. -/
def exportedDeclaration (d : Dialect) (inner : Inner) : Rule (List Node) := do
  let declared : Rule (List Node) := do
    let n ← inner .declaration
    pure [n.withRole .declaration]
  if ← tryKeyword "default" then
    (do let ns ← declared
        if ← goesOnWithValue d then stuckAhead else pure ns) <|> (do
      let e ← inner .expression
      semicolon d true
      pure [e.withRole .value])
  else declared

/-- An export statement without decorators, behind its keyword. -/
def exportRest (d : Dialect) (inner : Inner) : Rule (List Node) := do
  let w ← nextWord
  let s ← secondWord
  if ← trySign "*" then
    let named ← if ← tryKeyword "as" then List.singleton <$> exchangedName else pure []
    let source ← sourceClause
    semicolon d false
    pure (named ++ source)
  else if (← atSign "\x7b") || (d.types && w == "type" && s.peek == '\x7b') then
    if w == "type" then keyword "type"
    let ns ← exchangedNames d false .clause .clause
    let source ←
      if (← atKeyword "from") && !(← endsHere d.types false) then sourceClause else pure []
    semicolon d false
    pure (ns :: source)
  else if ← Rule.onlyIf d.types (trySign "=") then
    let e ← inner .expression
    semicolon d true
    pure [e]
  else if d.types && w == "as" then
    keyword "as"
    keyword "namespace"
    let n ← name .identifier
    semicolon d false
    pure [n]
  else exportedDeclaration d inner

/-- An export statement. Under decorators only a declaration or a value is exported. -/
def exportStatement (d : Dialect) (inner : Inner) : Rule Node := do
  let r ← ahead
  let ds ← decorators d inner
  keyword "export"
  let children ← if ds.isEmpty then exportRest d inner else exportedDeclaration d inner
  Rule.node .exportStatement r.pos (ds ++ children)

end LogHygiene.Syntax.JavaScript
