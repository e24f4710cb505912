import LogHygiene.Syntax.Python.Expression
import LogHygiene.Syntax.Python.CasePattern

/-!
# Python: statements and files

A simple statement ends with its line, or with a semicolon when more follow on the line; the
semicolons are children of the block that holds the statements. A compound statement holds blocks, and
a block stands on the rest of the line, or on the lines below that stand further in, or is empty.

**Words that are keywords only sometimes.** `match`, `type`, `print` and `exec` open a statement of
their own where one can be read, and are names otherwise. For `print` and `exec` the order is the other
way round: `print ('a')` is a call, and only what no expression fits is a statement in the old style.
-/

set_option autoImplicit false

namespace LogHygiene.Syntax.Python

/-- The reader of expressions for a text. -/
def inner : Inner := fun goal e r => read r.budget goal e r

/-- A whole expression. -/
def whole (e : LineEnd) : Rule Node := inner.whole e

/-- A whole expression where the line end ends the statement, on this line or a later one. -/
def wholeAfterWord : Rule Node := do
  cross
  whole .ends

/-- Expressions parted by commas; answers them and whether a comma came. -/
def expressions (e : LineEnd) : Rule (List Node × Bool) := do
  let start ← startOf e
  let first ← whole e
  let (more, comma) ← looseElements (whole e) e
  if comma then Rule.row true start
  pure (first :: more, comma)

/-! ## Assignments -/

/-- What several expressions bind when they stand left of `=`. -/
def targetOf (start : Position) (es : List Node) (comma : Bool) : Rule Node := do
  let r ← Rule.reading
  let n ← if comma then Rule.node .patternList start es else
    match es with
    | [n] => pure n
    | _ => Rule.stuck
  match toPattern r.budget n with
  | some p => pure p
  | none => Rule.stuck

/-- The signs that change a variable in place. -/
def changingSigns : List String :=
  ["**=", "//=", ">>=", "<<=", "+=", "-=", "*=", "/=", "@=", "%=", "&=", "^=", "|="]

/-- Whether `=` comes next and is no part of a longer sign. -/
def atEquals : Rule Bool := do
  let r ← ahead .ends
  pure (r.peek == '=' && r.peekSecond != '=')

/-- Expressions, or an assignment of them to others, at most `n` signs long. Answers the nodes and
whether they make a list. -/
def assignable : Nat → Rule (List Node × Bool)
  | 0 => Rule.stuck
  | n + 1 => do
    cross
    let start ← startOf .ends
    let given : Rule Node := do
      cross
      let start ← startOf .ends
      match ← assignable n with
      | ([n], false) => pure n
      | (ns, _) => Rule.phrase .expression start ns
    if ← atKeyword .ends "yield" then return ([← yieldExpression inner .ends], false)
    else
      let (es, comma) ← expressions .ends
      let r ← ahead .ends
      if r.peek == ':' then
        let left ← targetOf start es comma
        sign .ends ":"
        cross
        let type ← typeExpression inner .ends
        let value ← if ← atEquals then do
            sign .ends "="
            List.singleton <$> given
          else pure []
        let a ← Rule.phrase .assignment start
          (left.withRole .left :: type :: value.map (·.withRole .right))
        pure ([a], false)
      else if ← atEquals then
        let left ← targetOf start es comma
        sign .ends "="
        let right ← given
        let a ← Rule.phrase .assignment start [left.withRole .left, right.withRole .right]
        pure ([a], false)
      else match changingSigns.find? (fun s => r.startsWith s.toList) with
        | some s =>
          let left ← targetOf start es comma
          sign .ends s
          let right ← given
          let a ← Rule.phrase .expression start [left.withRole .left, right.withRole .right]
          pure ([a], false)
        | none => pure (es, comma)

/-- An expression, an assignment or a declaration of a type. -/
def expressionStatement : Rule (List Node) := do
  let start ← startOf .ends
  let r ← Rule.reading
  let (ns, _) ← assignable r.budget
  return [← Rule.node .expressionStatement start ns]

/-! ## Imports -/

/-- Names parted by dots. -/
def dottedName (e : LineEnd) : Rule Node := do
  let start ← startOf e
  let _ ← nameBefore ["."] e
  let _ ← Rule.many do
    if ← trySign e "." then
      let _ ← name .passed
      pure (some ())
    else pure none
  Rule.phrase .expression start []

/-- A name that is imported, with another name for it or without. -/
def importName (e : LineEnd) : Rule Node := do
  let start ← startOf e
  let n ← dottedName e
  if ← tryKeyword e "as" then
    let newName ← name .passed
    Rule.phrase .aliasedImport start [n.withRole .name, newName.withRole .alias]
  else pure n

/-- Imported names parted by commas; a comma may come last. -/
def importNames (e : LineEnd) : Rule (List Node) := do
  if e == .ends then cross
  let first ← importName e
  let (more, _) ← looseElements (importName e) e
  pure ((first :: more).map (·.withRole .name))

/-- Imported names, in round brackets or without. -/
def importList : Rule (List Node) := do
  if ← trySign .passed "(" then
    let names ← importNames .bracketed
    sign .bracketed ")"
    pure names
  else importNames .ends

/-- The module of `from m import n`: dots and a dotted name, or one of the two. -/
def sourceModule : Rule Node := do
  let start ← startOf .passed
  let dots ← Rule.many do
    if ← trySign .passed "." then pure (some ()) else pure none
  if dots.isEmpty then dottedName .passed
  else
    if !(← atKeyword .passed "import") then
      let _ ← dottedName .passed
    Rule.phrase .expression start []

/-- `import m` and its kin. -/
def importStatement : Rule Node := do
  let start ← startOf .ends
  keyword .ends "import"
  let names ← importNames .ends
  Rule.phrase .importStatement start names

/-- `from m import n` and its kin. -/
def importFromStatement : Rule Node := do
  let start ← startOf .ends
  keyword .ends "from"
  if ← tryKeyword .passed "__future__" then
    keyword .passed "import"
    let names ← importList
    Rule.phrase .importFuture start names
  else
    let m ← sourceModule
    keyword .passed "import"
    if ← trySign .passed "*" then
      Rule.node .importFrom start [m.withRole .moduleName]
    else
      let names ← importList
      Rule.phrase .importFrom start (m.withRole .moduleName :: names)

/-! ## Simple statements -/

/-- A keyword and what follows it. -/
def keywordStatement (k : String) (body : Rule (List Node)) : Rule (List Node) := do
  let start ← startOf .ends
  keyword .ends k
  let children ← body
  return [← Rule.phrase .statement start children]

/-- Expressions that may be left out. -/
def optionalExpressions : Rule (List Node) := do
  if ← atLineEnd then pure []
  else if ← atSign .ends ";" then pure []
  else Prod.fst <$> expressions .ends

/-- Names parted by commas. -/
def names : Rule (List Node) := do
  cross
  let first ← nameBefore [","] .ends
  let more ← furtherElements (cross *> name .ends) .ends (pure false)
  pure (first :: more)

/-- Expressions of which none may be left out. -/
def requiredExpressions : Rule (List Node) := do
  let first ← wholeAfterWord
  let more ← furtherElements wholeAfterWord .ends (pure false)
  pure (first :: more)

/-- `raise e from c`. -/
def raiseBody : Rule (List Node) := do
  let es ← if ← atKeyword .ends "from" then pure [] else optionalExpressions
  if ← tryKeyword .ends "from" then
    let cause ← wholeAfterWord
    pure (es ++ [cause])
  else pure es

/-- What follows `print` in the old style. -/
def printBody : Rule (List Node) := do
  let chevron ← if ← trySign .ends ">>" then List.singleton <$> wholeAfterWord else pure []
  if chevron.isEmpty then Prod.fst <$> expressions .ends
  else
    let (more, _) ← looseElements (whole .ends) .ends
    pure (chevron ++ more)

/-- What follows `exec` in the old style. -/
def execBody : Rule (List Node) := do
  cross
  let code ← if ← atString .ends then stringLiteral (embedded inner) .ends else givenName .ends
  if ← tryKeyword .ends "in" then return code :: (← requiredExpressions) else pure [code]

/-- `type X = e`. -/
def typeBody : Rule (List Node) := do
  cross
  let left ← typeExpression inner .passed
  sign .passed "="
  cross
  let right ← typeExpression inner .ends
  pure [left, right]

/-- Whether a simple statement is complete here. -/
def complete : Rule Unit := do
  if ← atLineEnd then pure ()
  else if ← atSign .ends ";" then pure ()
  else stuckAhead .ends

/-- One simple statement. -/
def simpleStatement : Rule (List Node) := do
  let w := String.ofList (← nextWord .ends)
  let checked (p : Rule (List Node)) : Rule (List Node) := do
    let ns ← p
    complete
    pure ns
  match w with
  | "import" => List.singleton <$> importStatement
  | "from" => List.singleton <$> importFromStatement
  | "assert" => keywordStatement w requiredExpressions
  | "return" => keywordStatement w optionalExpressions
  | "del" => keywordStatement w (do cross; Prod.fst <$> expressions .ends)
  | "raise" => keywordStatement w raiseBody
  | "pass" | "break" | "continue" => keywordStatement w (pure [])
  | "global" | "nonlocal" => keywordStatement w names
  | "type" => checked (keywordStatement w typeBody) <|> expressionStatement
  | "print" => Rule.orElseAsFar (checked expressionStatement) (checked (keywordStatement w printBody))
  | "exec" => Rule.orElseAsFar (checked expressionStatement) (checked (keywordStatement w execBody))
  | _ => expressionStatement

/-- Simple statements on one line, parted by semicolons, and the semicolons. -/
def simpleStatements : Rule (List Node) := do
  let first ← simpleStatement
  let more ← Rule.rowOf do
    let r ← ahead .ends
    if r.peek == ';' then
      sign .ends ";"
      let semicolon ← Rule.node .token r.pos []
      if ← atLineEnd then pure (some [semicolon])
      else return some (semicolon :: (← simpleStatement))
    else pure none
  lineEnd
  pure (first ++ more)

/-! ## Blocks -/

/-- The reader of one statement, possibly a line of several. -/
abbrev Statements := Rule (List Node)

/-- Past one comment or fault, if nothing but blanks, line ends and joined lines stand before it. -/
def passComment? : Nat → Reading → Option Reading
  | 0, _ => none
  | n + 1, r =>
    match r.passFault with
    | some r' => some r'
    | none =>
      if r.peek == '#' then
        some ((r.passWhile (fun g => g.char != '\n')).withTrivia .comment r.pos)
      else if r.startsWith ['\\', '\n'] then
        passComment? n ((r.steps 2).withTrivia .lineContinuation r.pos)
      else if r.startsWith ['\\', '\r', '\n'] then
        passComment? n ((r.steps 3).withTrivia .lineContinuation r.pos)
      else match r.peek? with
        | some c => if isGap c || c == '\n' then passComment? n r.step else none
        | none => none

/-- Pass comments as long as they keep the innermost block open. Answers whether it ends behind
them. -/
def passBlockComments : Nat → Reading → Bool × Reading
  | 0, r => (true, r)
  | n + 1, r =>
    if (Layout.before r).leaves (depth r) then (true, r)
    else match passComment? r.budget r with
      | some r' => passBlockComments n r'
      | none => (false, r)

/-- Whether the innermost block ends here. Comments that still belong to it are passed. -/
def blockEnds : Rule Bool := fun r =>
  let (ends, r') := passBlockComments r.budget r
  .done ends r'

/-- Leave the innermost block. -/
def leaveBlock : Rule Unit := do
  let r ← Rule.reading
  Rule.goTo { r with indents := r.indents.tail }

/-- The statements of a block up to its end. -/
def indented (statement : Statements) : Rule Node := do
  let start ← startOf .bracketed
  let children ← Rule.rowOf do
    if ← blockEnds then pure none else return some (← statement)
  leaveBlock
  Rule.settle
  Rule.node .clause start children

/-- Past comments that stand behind a word, up to a line end or the next word. -/
def passLineComments : Rule Unit := do
  let r ← ahead .ends
  if r.peek == '\n' || r.rest.isEmpty then Rule.goTo r

/-- The block behind a colon: the rest of the line, lines that stand further in, or nothing. -/
def block (first : Statements) (statement : Statements) : Rule Node := do
  passLineComments
  let r ← Rule.reading
  let layout := Layout.before r
  if layout.newLine then
    if depth r < layout.indent then
      Rule.goTo { r with indents := layout.indent :: r.indents }
      indented statement
    else Rule.node .clause r.pos []
  else
    let start ← startOf .ends
    let children ← first
    Rule.node .clause start children

/-- A block of statements behind a colon. -/
def suite (statement : Statements) : Rule Node := do
  sign .passed ":"
  block simpleStatements statement

/-- Whether the statement before goes on here with the word `k`. -/
def goesOn (k : String) : Rule Bool := fun r =>
  if (Layout.before r).leaves (depth r) then .done false r
  else atKeyword .bracketed k r

/-- A part of a compound statement: a keyword, a heading and a block. -/
def part (statement : Statements) (k : String) (heading : Rule (List Node)) : Rule Node := do
  let start ← startOf .bracketed
  keyword .bracketed k
  let children ← heading
  let body ← suite statement
  Rule.phrase .clause start (children ++ [body])

/-- The part with the word `k`, if it comes. -/
def optionalPart (statement : Statements) (k : String) (heading : Rule (List Node)) :
    Rule (Option Node) := do
  if ← goesOn k then return some (← part statement k heading) else pure none

/-! ## Compound statements -/

/-- A condition. -/
def condition : Rule (List Node) := do return [← whole .passed]

/-- What follows `except`: what is caught, and the name it gets. -/
def exceptHeading : Rule (List Node) := do
  if ← atSign .passed ":" then pure []
  else
    let e ← whole .passed
    if ← trySign .passed "," then return [e, ← whole .passed] else pure [e]

/-- What follows `except*`: what is caught, and the name it gets. -/
def exceptGroupHeading : Rule (List Node) := do
  sign .passed "*"
  condition

/-- Whether a handler for a group of exceptions comes next. -/
def atExceptGroup : Rule Bool := do
  let r ← ahead .bracketed
  pure (r.startsWith "except*".toList)

def ifStatement (statement : Statements) : Rule Node := do
  let start ← startOf .bracketed
  let first ← part statement "if" condition
  let elifs ← Rule.rowOf do return (← optionalPart statement "elif" condition).map ([·])
  let other ← optionalPart statement "else" (pure [])
  Rule.phrase .statement start (first.children ++ elifs ++ other.toList)

def whileStatement (statement : Statements) : Rule Node := do
  let start ← startOf .bracketed
  let first ← part statement "while" condition
  let other ← optionalPart statement "else" (pure [])
  Rule.phrase .statement start (first.children ++ other.toList)

def forStatement (statement : Statements) (start : Position) : Rule Node := do
  let first ← part statement "for" do
    let target ← targets inner .passed
    keyword .passed "in"
    let (es, _) ← expressions .passed
    pure (target :: es)
  let other ← optionalPart statement "else" (pure [])
  Rule.phrase .statement start (first.children ++ other.toList)

def tryStatement (statement : Statements) : Rule Node := do
  let start ← startOf .bracketed
  let first ← part statement "try" (pure [])
  let groups ← atExceptGroup
  let handlers ← Rule.rowOf do
    if (← atExceptGroup) != groups then pure none
    else
      let heading := if groups then exceptGroupHeading else exceptHeading
      return (← optionalPart statement "except" heading).map ([·])
  let other ← if handlers.isEmpty then pure none else optionalPart statement "else" (pure [])
  let last ← optionalPart statement "finally" (pure [])
  if handlers.isEmpty && last.isNone then stuckAhead .bracketed
  Rule.phrase .statement start (first.children ++ handlers ++ other.toList ++ last.toList)

/-- What a `with` opens, in round brackets or without. -/
def withItems : Rule (List Node) :=
  (do sign .passed "("
      let items ← elements (whole .bracketed) ")"
      Rule.require !items.isEmpty
      sign .bracketed ")"
      Rule.require (← atSign .passed ":")
      pure items) <|> Prod.fst <$> expressions .passed

def withStatement (statement : Statements) (start : Position) : Rule Node := do
  let first ← part statement "with" withItems
  Rule.node .statement start first.children

/-- Type parameters in square brackets, if any come. -/
def typeParameters : Rule (List Node) := do
  if ← atSign .passed "[" then
    cross
    typesInBrackets (typeExpression inner .bracketed)
  else pure []

def functionDefinition (statement : Statements) (start : Position) : Rule Node := do
  keyword .passed "def"
  let n ← givenName .passed
  let types ← typeParameters
  let opening ← startOf .passed
  sign .passed "("
  let ps ← parameters inner true .bracketed ")"
  sign .bracketed ")"
  let heading ← Rule.node .clause opening ps
  let result ← if ← trySign .passed "->" then List.singleton <$> freeType inner .passed else pure []
  let body ← suite statement
  Rule.node .functionDeclaration start (n.withRole .name :: types ++ heading :: result ++ [body])

def classDefinition (statement : Statements) : Rule Node := do
  let start ← startOf .bracketed
  keyword .passed "class"
  let n ← givenName .passed
  let types ← typeParameters
  let bases ← if ← atSign .passed "(" then List.singleton <$> arguments inner false .passed else pure []
  let body ← suite statement
  Rule.node .classDeclaration start (n.withRole .name :: types ++ bases ++ [body])

/-- One `case` of a `match`. -/
def caseClause (statement : Statements) : Rule Node :=
  part statement "case" do
    let first ← casePattern (embedded inner)
    let more ← furtherElements (casePattern (embedded inner)) .passed do
      return (← atSign .passed ":") || (← atKeyword .passed "if")
    let guard ← if ← tryKeyword .passed "if" then List.singleton <$> inner (.expression false) .passed
      else pure []
    pure (first :: more ++ guard)

def matchStatement (statement : Statements) : Rule Node := do
  let start ← startOf .bracketed
  keyword .passed "match"
  let (subjects, _) ← expressions .passed
  sign .passed ":"
  let body ← block Rule.stuck (List.singleton <$> caseClause statement)
  Rule.node .statement start (subjects ++ [body])

/-- A declaration, possibly asynchronous. -/
def asyncStatement (statement : Statements) : Rule Node := do
  let start ← startOf .bracketed
  let isAsync ← tryKeyword .bracketed "async"
  let w := String.ofList (← nextWord .passed)
  match w with
  | "def" => functionDefinition statement start
  | "for" => forStatement statement start
  | "with" => withStatement statement start
  | "class" => if isAsync then Rule.stuck else classDefinition statement
  | _ => stuckAhead .passed

def decoratedDefinition (statement : Statements) : Rule Node := do
  let start ← startOf .bracketed
  let decorators ← Rule.rowOf do
    let r ← ahead .bracketed
    if r.peek == '@' then
      sign .bracketed "@"
      let e ← wholeAfterWord
      lineEnd
      return some [← Rule.node .clause r.pos [e]]
    else pure none
  let definition ← do
    let w := String.ofList (← nextWord .bracketed)
    if w == "def" || w == "class" || w == "async" then asyncStatement statement
    else stuckAhead .bracketed
  Rule.node .decorated start (decorators ++ [definition.withRole .definition])

/-- One statement, or one line of simple ones. -/
def statementLine (statement : Statements) : Statements := do
  let one (p : Rule Node) : Statements := List.singleton <$> p
  let r ← ahead .bracketed
  let back ← Rule.reading
  if !back.lacksName then Rule.goTo { r with furthest := back.furthest }
  if r.peek == '@' then one (decoratedDefinition statement)
  else
    let w := String.ofList (← nextWord .bracketed)
    match w with
    | "if" => one (ifStatement statement)
    | "while" => one (whileStatement statement)
    | "try" => one (tryStatement statement)
    | "def" | "class" | "for" | "with" => one (asyncStatement statement)
    | "async" => one (asyncStatement statement) <|> simpleStatements
    | "match" => one (matchStatement statement) <|> simpleStatements
    | _ => simpleStatements

/-- The rule for statements, at most `n` blocks deep. -/
def statements : Nat → Statements
  | 0 => Rule.stuck
  | n + 1 => statementLine (statements n)

/-- A whole file. -/
def file : Rule Node := do
  let r ← Rule.reading
  let children ← Rule.rowOf do
    let now ← ahead .bracketed
    if now.rest.isEmpty && !now.cut then pure none
    else return some (← statements r.budget)
  Rule.goTo (← ahead .bracketed)
  Rule.node .file r.pos children

end LogHygiene.Syntax.Python
