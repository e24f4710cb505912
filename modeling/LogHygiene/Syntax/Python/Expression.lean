import LogHygiene.Syntax.Python.Pattern

/-!
# Python: expressions

The rules below read every expression, but the tree they build is coarse: operands joined by operators
lie side by side in one node, because no question asked of a tree depends on which operator binds
tighter. What is kept exact is what such questions do depend on: calls, members, names, strings, the
brackets around them, and their spans.

**One knot.** Expressions contain expressions through brackets, operators and arguments. Each rule
takes the reader of inner expressions as an argument `inner`, and `read` ties the knot with a bound on
the nesting depth; the length of the text is always bound enough.
-/

set_option autoImplicit false

namespace LogHygiene.Syntax.Python

/-- What a rule for expressions can be asked for. -/
inductive Goal where
  /-- a whole expression; `choice` says whether `a if c else b` counts -/
  | expression (choice : Bool)
  /-- an operand of an arithmetic operator or a comparison -/
  | operand
  deriving DecidableEq, Repr, Inhabited

/-- The reader of inner expressions. -/
abbrev Inner := Goal → LineEnd → Rule Node

/-- A whole expression. -/
def Inner.whole (inner : Inner) (e : LineEnd) : Rule Node := inner (.expression true) e

/-! ## Lists in brackets -/

/-- Further elements, each behind a comma. A comma may also stand where `stop` ends the list. -/
def furtherElements (element : Rule Node) (e : LineEnd) (stop : Rule Bool) : Rule (List Node) := do
  let comma ← Rule.reading
  let groups ← Rule.many do
    if ← trySign e "," then
      if ← stop then pure (some [])
      else
        let n ← element
        Rule.row true comma.pos
        pure (some [n])
    else pure none
  pure groups.flatten

/-- Further elements, each behind a comma; the comma behind the last one may stand alone. Answers
whether a comma came, too. -/
def looseElements (element : Rule Node) (e : LineEnd) : Rule (List Node × Bool) := do
  let comma ← Rule.reading
  let step : List Node × Bool × Bool → Rule (Option (List Node × Bool × Bool))
    | (ns, _, alone) => do
      if ← Rule.onlyIf (!alone) (trySign e ",") then
        match ← Rule.optional element with
        | some n =>
          Rule.row true comma.pos
          pure (some (ns ++ [n], true, false))
        | none => pure (some (ns, true, true))
      else pure none
  let (ns, came, _) ← Rule.iterate step ([], false, false)
  pure (ns, came)

/-- Elements read by `element`, parted by commas, up to the closing sign; a comma may come last. -/
def elements (element : Rule Node) (close : String) : Rule (List Node) := do
  if ← atSign .bracketed close then pure []
  else
    let first ← element
    let more ← furtherElements element .bracketed (atSign .bracketed close)
    pure (first :: more)

/-- Whether `for` comes next, or `async for`. -/
def atFor (e : LineEnd) : Rule Bool := do
  let r ← ahead e
  match nameAt r with
  | some (cs, r') =>
    if cs == "for".toList then pure true
    else if cs == "async".toList then do
      let back ← Rule.reading
      Rule.goTo r'
      let next ← atKeyword .bracketed "for"
      Rule.goTo back
      pure next
    else pure false
  | none => pure false

/-- What a loop binds: one or more operands. -/
def targets (inner : Inner) (e : LineEnd) : Rule Node := do
  let start ← startOf e
  let target := pattern (inner .operand e) e
  let first ← target
  let comma ← atSign e ","
  let more ← furtherElements target e (atKeyword e "in")
  if comma then Rule.phrase .patternList start (first :: more) else pure first

/-- `for t in e`. -/
def forClause (inner : Inner) : Rule Node := do
  let start ← startOf .bracketed
  let _ ← tryKeyword .bracketed "async"
  keyword .bracketed "for"
  let target ← targets inner .bracketed
  keyword .bracketed "in"
  let first ← inner (.expression false) .bracketed
  let more ← furtherElements (inner (.expression false) .bracketed) .bracketed do
    return (← atFor .bracketed) || (← atKeyword .bracketed "if") ||
      [']', ')', '}'].contains (← nextChar .bracketed)
  Rule.phrase .clause start (target :: first :: more)

/-- The clauses of a comprehension; none if no `for` comes next. -/
def comprehension (inner : Inner) : Rule (List Node) := do
  if !(← atFor .bracketed) then pure []
  else Rule.rowOf do
    if ← atFor .bracketed then return some [← forClause inner]
    else if ← atKeyword .bracketed "if" then
      let start ← startOf .bracketed
      keyword .bracketed "if"
      let condition ← inner (.expression false) .bracketed
      return some [← Rule.phrase .clause start [condition]]
    else pure none

/-- `yield e` or `yield from e`. -/
def yieldExpression (inner : Inner) (e : LineEnd) : Rule Node := do
  let start ← startOf e
  keyword e "yield"
  if ← tryKeyword e "from" then
    cross
    let source ← inner.whole e
    Rule.phrase .expression start [source]
  else
    match ← Rule.optional (inner.whole e) with
    | some first =>
      let (more, _) ← looseElements (inner.whole e) e
      Rule.phrase .expression start (first :: more)
    | none => Rule.phrase .expression start []

/-- A value that is spread out behind a star, or any expression. Answers whether it is an expression:
a star and a name make one, a star and something else do not. -/
def spreadable (inner : Inner) : Rule (Node × Bool) := do
  let r ← ahead .bracketed
  let behind := passTrivia true r.step
  let named := match nameAt behind with
    | some (cs, _) => !(["lambda", "not", "await"].contains (String.ofList cs))
    | none => false
  if r.peek == '*' && r.peekSecond != '*' && !named then
    sign .bracketed "*"
    let e ← inner.whole .bracketed
    return (← Rule.phrase .splat r.pos [e], false)
  else return (← inner.whole .bracketed, true)

/-- An element of a list, a set or a tuple. Answers whether it is an expression. -/
def elementOf (inner : Inner) : Rule (Node × Bool) := do
  if ← atKeyword .bracketed "yield" then return (← yieldExpression inner .bracketed, false)
  else spreadable inner

/-- An element of a list, a set or a tuple. -/
def element (inner : Inner) : Rule Node := Prod.fst <$> elementOf inner

/-! ## Types -/

/-- Types in square brackets; `type` reads one of them. -/
def typesInBrackets (type : Rule Node) : Rule (List Node) := do
  sign .bracketed "["
  let first ← type
  let more ← furtherElements type .bracketed (atSign .bracketed "]")
  sign .bracketed "]"
  pure (first :: more)

/-- What `type` reads, and behind colons what bounds it, at most `n` times. -/
def bounded (type : Rule Node) (e : LineEnd) : Nat → Rule Node
  | 0 => Rule.stuck
  | n + 1 => do
    let t ← type
    if ← trySign e ":" then
      cross
      let bound ← bounded type e n
      Rule.phrase .clause t.span.start [t, bound]
    else pure t

/-- A type without a bound, at most `n` brackets deep: a name with types in square brackets, a name
behind stars, or an expression. Bars and dots may follow the first two. -/
def typeUpTo (inner : Inner) : Nat → LineEnd → Rule Node
  | 0, _ => Rule.stuck
  | n + 1, e => do
    let r ← ahead e
    let bracketed : Bool := match nameAt r with
      | some (_, s) => (passTrivia (e == .bracketed) s).peek == '['
      | none => false
    let further (t : Node) : Rule (Option Node) := do
      if ← trySign e "|" then
        cross
        let other ← typeUpTo inner n e
        return some (← Rule.phrase .clause r.pos [t, other])
      else if ← trySign e "." then
        let _ ← name .passed
        return some (← Rule.node .clause r.pos [t])
      else pure none
    if bracketed then
      let first ← name e
      let inside ← typesInBrackets (bounded (typeUpTo inner n .bracketed) .bracketed n)
      Rule.iterate further (← Rule.node .clause r.pos (first :: inside))
    else if r.startsWith ['*', '*'] then
      sign e "**"
      let first ← name .passed
      Rule.iterate further (← Rule.node .clause r.pos [first])
    else inner.whole e

/-- A type that a colon may follow. -/
def freeType (inner : Inner) (e : LineEnd) : Rule Node := fun r => typeUpTo inner r.budget e r

/-- A type. -/
def typeExpression (inner : Inner) (e : LineEnd) : Rule Node := fun r =>
  bounded (typeUpTo inner r.budget e) e r.budget r

/-! ## Parameters -/

/-- A pattern of a parameter in brackets. -/
def tupleParameter (inner : Inner) : Rule Node := pattern (inner .operand .bracketed) .bracketed

/-- What takes the arguments that are left, behind its stars. -/
def restParameter (inner : Inner) (e : LineEnd) : Rule Node := do
  let n ← inner .operand e
  if [Kind.identifier, .member, .subscript].contains n.kind then pure n else stuckAhead e

/-- One parameter; `typed` says whether it may carry a type. -/
def parameter (inner : Inner) (typed : Bool) (e : LineEnd) : Rule Node := do
  let start ← startOf e
  let r ← ahead e
  let type : Rule (List Node) := do
    if ← Rule.onlyIf typed (trySign e ":") then List.singleton <$> typeExpression inner e else pure []
  let standard : Rule (List Node) := do
    if ← trySign e "=" then List.singleton <$> inner.whole e else pure []
  let withParts (n : Node) (parts : List Node) : Rule Node :=
    if parts.isEmpty then pure n else Rule.phrase .clause start (n :: parts)
  if r.startsWith ['*', '*'] then
    sign e "**"
    let n ← restParameter inner e
    withParts n (← type)
  else if r.peek == '*' then
    sign e "*"
    if [',', ')', ':'].contains (← nextChar e) then Rule.node .token start []
    else
      let n ← restParameter inner e
      withParts n (← type)
  else if r.peek == '/' then
    sign e "/"
    Rule.node .token start []
  else if r.peek == '(' then
    let n ← tupleParameter inner
    withParts n (← standard)
  else
    let n ← nameBefore ("=" :: if typed then [":"] else []) e
    let t ← type
    withParts n (t ++ (← standard))

/-- Parameters parted by commas, up to the closing sign. -/
def parameters (inner : Inner) (typed : Bool) (e : LineEnd) (close : String) :
    Rule (List Node) := do
  if ← atSign e close then pure []
  else
    let first ← parameter inner typed e
    let more ← furtherElements (parameter inner typed e) e (atSign e close)
    pure (first :: more)

/-- `lambda p: e`. -/
def lambdaExpression (inner : Inner) (choice : Bool) (e : LineEnd) : Rule Node := do
  let start ← startOf e
  keyword e "lambda"
  let here ← startOf .passed
  let heading ← Rule.phrase .clause here (← parameters inner false .passed ":")
  sign .passed ":"
  cross
  let body ← inner (.expression choice) e
  Rule.phrase .expression start [heading, body]

/-! ## Atoms -/

/-- What stands in round brackets. -/
def round (inner : Inner) (e : LineEnd) : Rule Node := do
  let start ← startOf e
  sign e "("
  if ← trySign .bracketed ")" then Rule.node .tuple start []
  else
    let (first, single) ← elementOf inner
    let clauses ← if single then comprehension inner else pure []
    if !clauses.isEmpty then
      sign .bracketed ")"
      Rule.node .expression start (first :: clauses)
    else if ← atSign .bracketed "," then
      let more ← furtherElements (element inner) .bracketed (atSign .bracketed ")")
      sign .bracketed ")"
      Rule.node .tuple start (first :: more)
    else
      sign .bracketed ")"
      Rule.node .parenthesized start [first]

/-- What stands in square brackets. -/
def square (inner : Inner) (e : LineEnd) : Rule Node := do
  let start ← startOf e
  sign e "["
  if ← trySign .bracketed "]" then Rule.node .list start []
  else
    let (first, single) ← elementOf inner
    let clauses ← if single then comprehension inner else pure []
    if !clauses.isEmpty then
      sign .bracketed "]"
      Rule.node .expression start (first :: clauses)
    else
      let more ← furtherElements (element inner) .bracketed (atSign .bracketed "]")
      sign .bracketed "]"
      Rule.node .list start (first :: more)

/-- A dictionary that is spread out behind two stars. -/
def spreadEntries (inner : Inner) : Rule Node := do
  let start ← startOf .bracketed
  sign .bracketed "**"
  let e ← inner.whole .bracketed
  Rule.phrase .splat start [e]

/-- The value of an entry of a dictionary behind its key. -/
def entryOf (inner : Inner) (key : Node) : Rule Node := do
  sign .bracketed ":"
  let value ← inner.whole .bracketed
  Rule.phrase .clause key.span.start [key, value]

/-- An entry of a dictionary. -/
def entry (inner : Inner) : Rule Node := do
  if ← atSign .bracketed "**" then spreadEntries inner
  else entryOf inner (← inner.whole .bracketed)

/-- What stands in braces: a dictionary, which may be nothing but a comma, or a set. -/
def braced (inner : Inner) (e : LineEnd) : Rule Node := do
  let start ← startOf e
  let close (children : List Node) : Rule Node := do
    sign .bracketed "\x7d"
    Rule.node .expression start children
  let further (p : Rule Node) : Rule (List Node) :=
    furtherElements p .bracketed (atSign .bracketed "\x7d")
  sign e "\x7b"
  if ← atSign .bracketed "\x7d" then close []
  else if ← trySign .bracketed "," then close []
  else if ← atSign .bracketed "**" then
    let first ← spreadEntries inner
    close (first :: (← further (entry inner)))
  else
    let (key, single) ← elementOf inner
    if ← Rule.onlyIf single (atSign .bracketed ":") then
      let first ← entryOf inner key
      let clauses ← comprehension inner
      if clauses.isEmpty then close (first :: (← further (entry inner))) else close (first :: clauses)
    else
      let clauses ← if single then comprehension inner else pure []
      if clauses.isEmpty then close (key :: (← further (element inner))) else close (key :: clauses)

/-- One argument of a call. Answers whether it is an expression. -/
def argument (inner : Inner) : Rule (Node × Bool) := do
  let start ← startOf .bracketed
  if ← atSign .bracketed "**" then return (← spreadEntries inner, false)
  else
    let (e, single) ← spreadable inner
    let r ← ahead .bracketed
    if e.kind == .identifier && r.peek == '=' && r.peekSecond != '=' then
      Rule.require (e.start < e.stop)
      sign .bracketed "="
      let value ← inner.whole .bracketed
      return (← Rule.phrase .clause start [e, value], false)
    else pure (e, single)

/-- The arguments of a call, or of a class. Only a call can take what a comprehension makes. -/
def arguments (inner : Inner) (calls : Bool) (e : LineEnd) : Rule Node := do
  let start ← startOf e
  sign e "("
  if ← trySign .bracketed ")" then Rule.node .clause start []
  else if ← trySign .bracketed "," then
    sign .bracketed ")"
    Rule.node .clause start []
  else
    let (first, single) ← argument inner
    let clauses ← if calls && single then comprehension inner else pure []
    let more ← if !clauses.isEmpty then pure []
      else furtherElements (Prod.fst <$> argument inner) .bracketed (atSign .bracketed ")")
    sign .bracketed ")"
    Rule.node .clause start (first :: clauses ++ more)

/-- A subscript: an expression or a slice. -/
def subscript (inner : Inner) : Rule Node := do
  let start ← startOf .bracketed
  let bound : Rule (List Node) := do
    if [':', ',', ']'].contains (← nextChar .bracketed) then pure []
    else return [← inner.whole .bracketed]
  let first ← if ← atSign .bracketed ":" then pure [] else List.singleton <$> inner.whole .bracketed
  if ← trySign .bracketed ":" then
    let second ← bound
    let third ← if ← trySign .bracketed ":" then bound else pure []
    Rule.phrase .clause start (first ++ second ++ third)
  else match first with
    | [n] => pure n
    | _ => Rule.stuck

/-- One of the things that can follow an operand: a member, a subscript or a call. -/
def trailer (inner : Inner) (e : LineEnd) (n : Node) : Rule (Option Node) := do
  let r ← ahead e
  let start := n.span.start
  if r.peek == '.' then
    sign e "."
    let property ← name .passed
    return some (← Rule.node .member start [n.withRole .object, property.withRole .property])
  else if r.peek == '[' then
    sign e "["
    let inside ← elements (subscript inner) "]"
    Rule.require !inside.isEmpty
    sign .bracketed "]"
    return some (← Rule.node .subscript start (n :: inside))
  else if r.peek == '(' then
    let args ← arguments inner true e
    return some (← Rule.node .call start [n.withRole .callee, args.withRole .arguments])
  else pure none

/-- Words that are values and no names. -/
def constants : List String := ["True", "False", "None"]

/-- What stands between braces in a formatted string. -/
def embedded (inner : Inner) : Rule Node := do
  if ← atKeyword .bracketed "yield" then yieldExpression inner .bracketed else inner.whole .bracketed

/-- An operand without what follows it. -/
def atom (inner : Inner) (e : LineEnd) : Rule Node := do
  let r ← ahead e
  let first := r.peek
  if (openingAt r).isSome then strings (embedded inner) e
  else match nameAt r with
    | some (cs, _) =>
      if constants.contains (String.ofList cs) then (·.withKind .expression) <$> name e else name e
    | none =>
      match numberEnd r with
      | some r' =>
        Rule.goTo r'
        Rule.node .expression r.pos []
      | none =>
        if first == '(' then round inner e
        else if first == '[' then square inner e
        else if first == '{' then braced inner e
        else if r.startsWith ['.', '.', '.'] then
          sign e "..."
          Rule.node .expression r.pos []
        else name e

/-- The first member or element that follows an operand. -/
def partOf (inner : Inner) (e : LineEnd) (n : Node) : Rule Node := do
  let isPart (n : Node) : Bool := n.kind == .member || n.kind == .subscript
  let p ← Rule.iterate (fun n => if isPart n then pure none else trailer inner e n) n
  if isPart p then pure p else stuckAhead e

/-- An operand: an atom with what follows it, behind signs or `await`. -/
def operand (inner : Inner) (e : LineEnd) : Rule Node := do
  let r ← ahead e
  let plain : Rule Node := do Rule.iterate (trailer inner e) (← atom inner e)
  if ['-', '+', '~'].contains r.peek then
    sign e (String.singleton r.peek)
    cross
    let n ← inner .operand e
    Rule.phrase .expression r.pos [n]
  else if r.peek == '*' && r.peekSecond != '*' then
    sign e "*"
    cross
    let first ← atom inner e
    let n ← if first.kind == .identifier then pure first else partOf inner e first
    Rule.iterate (trailer inner e) (← Rule.node .splat r.pos [n])
  else if ← atKeyword e "await" then
    (do keyword e "await"
        let n ← inner .operand e
        Rule.phrase .awaited r.pos [n]) <|> plain
  else plain

/-! ## Operators -/

/-- The operators made of signs that join operands. -/
def joiningSigns : List String :=
  ["**", "//", "<<", ">>", "<=", ">=", "==", "!=", "<>", "+", "-", "*", "/", "%", "@", "&", "|",
   "^", "<", ">"]

/-- The joining sign that comes next. One followed by `=` changes a variable and joins nothing,
unless it compares. -/
def joiningSign (e : LineEnd) : Rule (Option String) := do
  let r ← ahead e
  match joiningSigns.find? (fun s => r.startsWith s.toList) with
  | none => pure none
  | some s =>
    let compares := ["<=", ">=", "==", "!=", "<>", "<", ">"].contains s
    if !compares && (r.steps s.length).peek == '=' then pure none else pure (some s)

/-- Take an operator if one comes next. Answers what its right side must be: an operand, or anything
that `and` and `or` join. -/
def operator (e : LineEnd) : Rule (Option Bool) := do
  match ← joiningSign e with
  | some s =>
    sign e s
    pure (some false)
  | none =>
    let w := String.ofList (← nextWord e)
    if w == "and" || w == "or" then
      keyword e w
      pure (some true)
    else if w == "in" then
      keyword e w
      pure (some false)
    else if w == "is" then
      keyword e w
      let _ ← tryKeyword .passed "not"
      pure (some false)
    else if w == "not" then
      keyword e w
      keyword .passed "in"
      pure (some false)
    else pure none

/-- A side of `and` and `or`: an operand or a function, behind any number of `not`. -/
def side (inner : Inner) (choice : Bool) (e : LineEnd) : Rule Node := do
  let start ← startOf e
  let nots ← Rule.many do
    if ← tryKeyword e "not" then
      cross
      pure (some ())
    else pure none
  let n ← if ← atKeyword e "lambda" then lambdaExpression inner choice e else operand inner e
  if nots.isEmpty then pure n else Rule.phrase .expression start [n]

/-- Operands and the operators that join them. -/
def joinedOperands (inner : Inner) (choice : Bool) (e : LineEnd) : Rule Node := do
  let start ← startOf e
  let first ← side inner choice e
  let more ← Rule.many do
    match ← operator e with
    | none => pure none
    | some logical =>
      cross
      if logical then return some (← side inner choice e) else return some (← operand inner e)
  if more.isEmpty then pure first else Rule.phrase .expression start (first :: more)

/-- A whole expression. -/
def expression (inner : Inner) (choice : Bool) (e : LineEnd) : Rule Node := do
  let start ← startOf e
  let first ← joinedOperands inner choice e
  let r ← ahead e
  let n ←
    if first.kind == .identifier && r.startsWith [':', '='] then do
      sign e ":="
      cross
      let value ← inner (.expression choice) e
      Rule.phrase .expression start [first, value]
    else if choice && (← atKeyword e "if") then do
      keyword e "if"
      let condition ← inner.whole .passed
      keyword .passed "else"
      cross
      let other ← inner (.expression choice) e
      Rule.phrase .expression start [first, condition, other]
    else pure first
  if ← tryKeyword e "as" then
    cross
    let newName ← inner.whole e
    Rule.phrase .expression start [n, newName]
  else pure n

/-- The rules for expressions, at most `n` deep. -/
def read : Nat → Inner
  | 0 => fun _ _ => Rule.stuck
  | n + 1 => fun goal e =>
    match goal with
    | .expression choice => expression (read n) choice e
    | .operand => operand (read n) e

end LogHygiene.Syntax.Python
