import LogHygiene.Syntax.JavaScript.Exchange

/-!
# JavaScript: statements and files

Most words that open a statement are names where no statement can start, and a few of the typed dialect
are names even there; each rule below asks for just enough of what follows to tell.

**Braces, functions and classes can be statements or values.** They are statements, unless what comes
behind them can only go on with a value or what stands in the braces can only be an object.
-/

set_option autoImplicit false

namespace LogHygiene.Syntax.JavaScript

/-! ## Other statements -/

/-- A condition in round brackets. -/
def condition (inner : Inner) : Rule Node := do
  let r ← ahead
  sign "("
  let e ← Rule.enclosed (inner .expressions)
  sign ")"
  Rule.node .parenthesized r.pos [e]

def ifStatement (inner : Inner) : Rule Node := do
  let r ← ahead
  keyword "if"
  let c ← condition inner
  let yes ← inner .statement
  if ← tryKeyword "else" then
    let no ← inner .statement
    Rule.node .statement r.pos [c, yes, no]
  else Rule.phrase .statement r.pos [c, yes]

/-- Whether a new case of a `switch` starts here. -/
def atCase : Rule Bool := do
  let w ← nextWord
  return w == "case" || (w == "default" && (← secondWord).peek == ':')

def switchStatement (inner : Inner) : Rule Node := do
  let r ← ahead
  keyword "switch"
  let c ← condition inner
  sign "\x7b"
  let children ← Rule.exposed (Rule.rowOf do
    if ← closes "\x7d" then pure none
    else
      let s ← ahead
      let heading ←
        if ← tryKeyword "case" then List.singleton <$> Rule.enclosed (inner .expressions)
        else do
          keyword "default"
          pure []
      sign ":"
      let statements ← Rule.rowOf do
        if (← closes "\x7d") || (← atCase) then pure none else return some [← inner .statement]
      return some [← Rule.phrase .clause s.pos (heading ++ statements)])
  sign "\x7d"
  Rule.node .statement r.pos (c :: children)

/-- The heading of a loop over elements or names. -/
def loopOver (d : Dialect) (inner : Inner) : Rule (List Node) := do
  let w ← nextWord
  let atOf := (nameAt (← secondWord)).any (fun (cs, _) => cs == "of".toList)
  let atJoint : Rule Unit := do
    let w ← nextWord
    if w == "of" || w == "in" then pure () else stuckAhead
  let anyTarget : Rule (List Node) :=
    (do Rule.require (← atBrackets)
        let n ← destructured inner
        atJoint
        pure [n]) <|> (do
      let r ← Rule.reading
      let n ← inner .operand
      if isTarget n.kind || n.kind == .parenthesized then pure [n]
      else if isPattern r.budget n then List.singleton <$> asPattern n
      else stuckAhead)
  let declared : Rule (List Node) := do
    keyword w
    let n ← binding inner
    let value ←
      if w == "var" && (← atEquals) then do
        sign "="
        List.singleton <$> joinedBySigns inner
      else pure []
    atJoint
    pure (n :: value)
  let left ←
    if w == "let" then
      if !atOf then declared <|> anyTarget else if d.types then anyTarget else stuckAhead
    else if w == "var" || w == "const" then if atOf && !d.types then stuckAhead else declared
    else anyTarget
  atJoint
  keyword (← nextWord)
  let right ← inner .expressions
  pure (left ++ [right])

/-- The heading of a loop with a counter. -/
def loopCount (d : Dialect) (inner : Inner) : Rule (List Node) := do
  let w ← nextWord
  let first ←
    if ← trySign ";" then pure []
    else if w == "var" || w == "let" || w == "const" then
      (List.singleton <$> Rule.exposed (variableStatement d inner)) <|> (do
        let e ← inner .expressions
        sign ";"
        pure [e])
    else do
      let e ← inner .expressions
      sign ";"
      pure [e]
  let test ←
    if ← trySign ";" then pure []
    else do
      let e ← inner .expressions
      sign ";"
      pure [e]
  let advance ← if ← atSign ")" then pure [] else List.singleton <$> inner .expressions
  pure (first ++ test ++ advance)

def forStatement (d : Dialect) (inner : Inner) : Rule Node := do
  let r ← ahead
  keyword "for"
  let awaits ← tryKeyword "await"
  sign "("
  let heading ← Rule.enclosed (if awaits then loopOver' else loopOver' <|> loopCount d inner)
  sign ")"
  let body ← inner .statement
  Rule.node .statement r.pos (heading ++ [body])
where
  loopOver' : Rule (List Node) := do
    let h ← loopOver d inner
    if ← atSign ")" then pure h else stuckAhead

def doStatement (d : Dialect) (inner : Inner) : Rule Node := do
  let r ← ahead
  keyword "do"
  let body ← inner .statement
  keyword "while"
  let c ← condition inner
  let _ ← Rule.optional (semicolon d false)
  Rule.node .statement r.pos [body, c]

def tryStatement (d : Dialect) (inner : Inner) : Rule Node := do
  let r ← ahead
  keyword "try"
  let body ← inner .block
  let s ← ahead
  let handler ←
    if ← tryKeyword "catch" then do
      let caught ←
        if ← trySign "(" then do
          let n ← binding inner
          let type ← Rule.enclosed <| annotation d inner
          sign ")"
          pure (n :: type)
        else pure []
      let b ← inner .block
      List.singleton <$> Rule.node .clause s.pos (caught ++ [b])
    else pure []
  let s ← ahead
  let last ←
    if ← tryKeyword "finally" then do
      let b ← inner .block
      List.singleton <$> Rule.node .clause s.pos [b]
    else pure []
  (if last.isEmpty then Rule.phrase else Rule.node) .statement r.pos (body :: handler ++ last)

/-- A keyword, a condition and a statement. -/
def guarded (inner : Inner) (k : String) : Rule Node := do
  let r ← ahead
  keyword k
  let c ← condition inner
  let body ← inner .statement
  Rule.node .statement r.pos [c, body]

/-- `break`, `continue` and `debugger`. -/
def jump (d : Dialect) (k : String) : Rule Node := do
  let r ← ahead
  keyword k
  let here ← Rule.reading
  if k != "debugger" && !endsWithout d.types false here.budget here.rest &&
      (nameAt (← ahead)).isSome then
    let _ ← name .expression
  semicolon d false
  Rule.node .statement r.pos []

/-- `return` and `throw`. -/
def result (d : Dialect) (inner : Inner) (k : String) : Rule Node := do
  let r ← ahead
  keyword k
  let here ← Rule.reading
  let empty := k == "return" &&
    (endsWithout d.types false here.budget here.rest || (← atSign ";"))
  let value ← if empty then pure [] else List.singleton <$> inner .expressions
  semicolon d (!value.isEmpty)
  Rule.node .statement r.pos value

/-- An expression as a statement. -/
def expressionStatement (d : Dialect) (inner : Inner) : Rule Node := do
  let start ← begin
  let e ← inner .expressions
  semicolon d true
  Rule.node .expressionStatement start [e]

/-- A statement behind its label. -/
def labeled (inner : Inner) : Rule Node := do
  let r ← ahead
  let _ ← givenName .clause
  sign ":"
  let body ← inner .statement
  Rule.node .statement r.pos [body]

/-- Statements in braces. -/
def block (d : Dialect) (inner : Inner) : Rule Node := do
  let r ← ahead
  sign "\x7b"
  let children ← Rule.exposed (Rule.rowOf do
    if ← closes "\x7d" then pure none else return some [← inner .statement])
  sign "\x7d"
  let here ← Rule.reading
  let ended := endsWithout d.types false here.budget here.rest
  (if ended then Rule.node else Rule.phrase) .statement r.pos children

/-- A statement if it can be one where it stands, else an expression. -/
def statementOrValue (d : Dialect) (inner : Inner) (p : Rule Node) : Rule Node :=
  (do let n ← p
      if ← goesOnWithValue d then stuckAhead else pure n) <|> expressionStatement d inner

/-- Whether the function or class that comes next has a name. -/
def isNamed (d : Dialect) : Rule Bool := do
  let back ← Rule.reading
  let _ ← tryKeyword "async"
  let ofClass ← tryKeyword "class"
  if !ofClass then
    keyword "function"
    let _ ← trySign "*"
  let w ← nextWord
  Rule.goTo back
  pure (w != "" && !(ofClass && (w == "extends" || (d.types && w == "implements"))))

/-- What `p` declares if it has a name and nothing follows that only goes on with a value, else an
expression. What has a name and cannot be declared is no value either, so it is not read twice. -/
def declarationOrValue (d : Dialect) (inner : Inner) (p : Rule Node) : Rule Node := do
  if ← isNamed d then
    let back ← Rule.reading
    let n ← p
    if ← goesOnWithValue d then
      Rule.goTo back
      expressionStatement d inner
    else pure n
  else expressionStatement d inner

/-- Statements that the typed dialects add. -/
def typedStatement (d : Dialect) (inner : Inner) (w : String) : Rule Node := do
  let s ← secondWord
  let next := ((nameAt s).map (fun (cs, _) => String.ofList cs)).getD ""
  match w with
  | "abstract" => classDeclaration d inner
  | "interface" => interface d inner
  | "enum" => enumeration inner
  | "const" => if next == "enum" then enumeration inner else Rule.stuck
  | "type" => if next == "" then Rule.stuck else typeAlias d inner
  | "declare" => if next == "" && s.peek != '@' then Rule.stuck else ambient d inner
  | "namespace" | "module" =>
    if next == "" && s.peek != '"' && s.peek != '\'' then Rule.stuck else moduleDeclaration inner
  | "import" => importAlias d
  | _ => Rule.stuck

/-- Words that open a declaration of the typed dialects or an enumeration. -/
def typedWords : List String :=
  ["abstract", "interface", "enum", "const", "type", "declare", "namespace", "module", "import"]

/-- A declaration, where no other statement can stand. -/
def declaration (d : Dialect) (inner : Inner) : Rule Node := do
  let w ← nextWord
  let s ← secondWord
  if w == "" && (← atSign "@") then classDeclaration d inner
  else if w == "function" then functionDeclaration d inner
  else if w == "async" && (nameAt s).any (fun (cs, _) => cs == "function".toList) then
    functionDeclaration d inner
  else if w == "class" then classDeclaration d inner
  else if w == "var" || w == "let" then variableStatement d inner
  else
    let typed : Rule Node := do
      if d.types && typedWords.contains w then typedStatement d inner w else stuckAhead
    if w == "const" then typed <|> variableStatement d inner else typed

/-- Statements of every dialect, by the word that opens them. -/
def statementOf (d : Dialect) (inner : Inner) (w : String) : Rule Node := do
  let s ← secondWord
  let next := ((nameAt s).map (fun (cs, _) => String.ofList cs)).getD ""
  match w with
  | "import" =>
    if s.peek == '(' || s.peek == '.' || s.startsWith ['?', '.'] then expressionStatement d inner
    else importStatement d inner
  | "export" => exportStatement d inner <|> expressionStatement d inner
  | "var" | "const" => variableStatement d inner
  | "let" =>
    if s.peek == '[' then variableStatement d inner
    else if next != "" || s.peek == '\x7b' then
      variableStatement d inner <|> expressionStatement d inner
    else expressionStatement d inner
  | "function" => declarationOrValue d inner (functionDeclaration d inner)
  | "async" =>
    if next == "function" then declarationOrValue d inner (functionDeclaration d inner)
    else expressionStatement d inner
  | "class" => declarationOrValue d inner (classDeclaration d inner)
  | "if" => ifStatement inner
  | "switch" => switchStatement inner
  | "for" => forStatement d inner
  | "while" | "with" => guarded inner w
  | "do" => doStatement d inner
  | "try" => tryStatement d inner
  | "break" | "continue" | "debugger" => jump d w
  | "return" | "throw" => result d inner w
  | _ => expressionStatement d inner

/-- Words that open a statement and are names as well. -/
def openingNames (d : Dialect) : List String :=
  ["let", "async", "export"] ++
    (if d.types then ["type", "declare", "namespace", "module"] else [])

/-- A statement. -/
def statement (d : Dialect) (inner : Inner) : Rule Node := do
  let _ ← begin
  let r ← ahead
  if r.peek == '\x7b' then
    if ← couldBeObject d then statementOrValue d inner (block d inner) else block d inner
  else if r.peek == ';' then
    sign ";"
    Rule.node .statement r.pos []
  else if r.peek == '@' then
    exportStatement d inner <|> statementOrValue d inner (classDeclaration d inner)
  else
    let w ← nextWord
    let s ← secondWord
    let typedWord := d.types && typedWords.contains w
    if ← Rule.onlyIf ((openingNames d).contains w) (endsBehindWord d.types true) then
      expressionStatement d inner
    else if w != "" && s.peek == ':' && !(statementWords d).contains w then labeled inner
    else if typedWord && (w == "abstract" || w == "interface" || w == "enum") then
      typedStatement d inner w
    else if typedWord then typedStatement d inner w <|> statementOf d inner w
    else statementOf d inner w

/-! ## The knot -/

/-- The rules of a dialect, at most `n` deep. -/
def read : Dialect → Nat → Inner
  | _, 0 => fun _ => Rule.stuck
  | d, n + 1 => fun goal =>
    let inner := read d n
    match goal with
    | .expression => expression d inner
    | .consequence => expression { d with results := false } (read { d with results := false } n)
    | .expressions => expressions inner
    | .operand => operand d inner
    | .pattern => pattern d inner
    | .type => typeExpression d inner
    | .statement => statement d inner
    | .declaration => declaration d inner
    | .block => block d inner
    | .classBody => classBody d inner

/-- A whole file. -/
def file (d : Dialect) : Rule Node := do
  let start ← Rule.reading
  let inner := read d (4 * start.budget + 16)
  let r ← ahead
  let heading ←
    if r.startsWith ['#', '!'] then do
      Rule.goTo (r.passWhile (fun g => g.char != '\n'))
      List.singleton <$> Rule.node .hashBang r.pos []
    else pure []
  let children ← Rule.rowOf do
    let _ ← begin
    let now ← Rule.reading
    if now.rest.isEmpty && !now.cut then pure none else return some [← inner .statement]
  Rule.node .file start.pos (heading ++ children)

end LogHygiene.Syntax.JavaScript
