import LogHygiene.Syntax.JavaScript.Goal

/-!
# JavaScript: what values are given to

A declaration binds names. An assignment or a parameter may also give a value to a part of something: a
member or an element. Both can take a value apart, and what stands inside the brackets then is always of
the wider sort.

Before an equals sign most patterns have been read as a value already, and `asPattern?` says which values
are patterns too. What is no value, as `{a = 1}`, is read as a pattern from the start, and there a target
is a name with members: no call stands in it, which keeps it cheap to find out that something is no
target.
-/

set_option autoImplicit false

namespace LogHygiene.Syntax.JavaScript

/-- Words that are operands of their own and no names. -/
def operandWords : List String :=
  ["this", "super", "null", "true", "false", "undefined", "import"]

/-- Words that start an operand and are no names where one could start. -/
def openingWords : List String :=
  ["function", "class", "new", "typeof", "void", "delete", "await", "yield", "using"]

/-! ## Parts -/

/-- Whether a sign comes next that asks whether there is anything to take a part of. -/
def atOptionalPart : Rule Bool := do
  let r ← ahead
  pure (r.startsWith ['?', '.'] && !(r.steps 2).peek.isDigit)

/-- The member of an operand behind its dot. -/
def memberOf (n : Node) : Rule Node := do
  let p ← if (← nextChar) == '#' then privateName else name .propertyName
  Rule.node .member n.span.start [n.withRole .object, p.withRole .property]

/-- The element of an operand that stands in square brackets. -/
def elementOf (inner : Inner) (n : Node) : Rule Node := do
  sign "["
  let e ← Rule.enclosed (inner .expressions)
  sign "]"
  Rule.node .subscript n.span.start [n.withRole .object, e]

/-- A member or an element of an operand, or the operand itself where it is said to be there. -/
def part (d : Dialect) (inner : Inner) (n : Node) : Rule (Option Node) := do
  let r ← ahead
  if ← atOptionalPart then
    sign "?."
    some <$> if (← nextChar) == '[' then elementOf inner n else memberOf n
  else if r.peek == '.' && !r.startsWith ['.', '.', '.'] &&
      !(r.peekSecond.isDigit && (← endsHere d.types true)) then
    sign "."
    some <$> memberOf n
  else if r.peek == '[' then some <$> elementOf inner n
  else if d.types && r.peek == '!' && r.peekSecond != '=' && !(← endsHere true true) then
    sign "!"
    return some (← Rule.node .nonNull n.span.start [n])
  else pure none

/-! ## Taking a value apart -/

/-- What was read, with a value for when none is given. -/
def withStandard (inner : Inner) (n : Node) : Rule Node := do
  if ← atEquals then
    sign "="
    let e ← inner .expression
    Rule.phrase .clause n.span.start [n, e]
  else pure n

/-- An entry of an object pattern. Brackets at its start are the name of a property, or a pattern that
stands for what is there without one. -/
def patternEntry (inner : Inner) : Rule Node := do
  let r ← ahead
  let within : Rule Node := do
    let n ← inner .pattern
    if (n.kind == .objectPattern || n.kind == .arrayPattern) && (← atEquals) then withStandard inner n
    else stuckAhead
  let entry : Rule Node := do
    let key ← propertyName inner .propertyName
    if ← trySign ":" then
      let n ← withStandard inner (← inner .pattern)
      Rule.phrase .pairPattern r.pos [key, n.withRole .value]
    else if key.kind != .propertyName then stuckAhead
    else
      withStandard inner (key.withKind .shorthandPattern)
  match r.peek with
  | '.' => inner .pattern
  | '\x7b' => within
  | '[' => entry <|> within
  | _ => entry

/-- A pattern in braces or square brackets. -/
def destructured (inner : Inner) : Rule Node := do
  let r ← ahead
  if r.peek == '\x7b' then
    sign "\x7b"
    let entries ← Rule.enclosed (separated (patternEntry inner) "\x7d")
    sign "\x7d"
    Rule.node .objectPattern r.pos entries
  else
    sign "["
    let elements ← Rule.enclosed (separated (inner .pattern >>= withStandard inner) "]")
    sign "]"
    Rule.node .arrayPattern r.pos elements

/-- Whether a pattern in brackets comes next. -/
def atBrackets : Rule Bool := return ['\x7b', '['].contains (← nextChar)

/-- What a declaration binds: a name, or the names in a pattern. -/
def binding (inner : Inner) : Rule Node := do
  if ← atBrackets then destructured inner else nameBefore ["=", ":", "!", ")"] .identifier

/-- Whether something of this kind can be given a value. -/
def isTarget (k : Kind) : Bool :=
  [Kind.identifier, .member, .subscript, .nonNull, .objectPattern, .arrayPattern].contains k

/-- Whether a value is also a pattern that something can be assigned to, at most `n` deep. -/
def isPattern : Nat → Node → Bool
  | 0, _ => false
  | n + 1, value =>
    let element (e : Node) : Bool :=
      match e.kind, e.children with
      | .splat, [rest] => isPattern n rest
      | .assignment, left :: _ => isTarget left.kind
      | _, _ => isPattern n e
    match value.kind with
    | .list => value.children.all element
    | .tuple => value.children.all fun e =>
      match e.kind, e.children with
      | .splat, [rest] => isPattern n rest
      | .pair, [_, value] => value.kind != .splat && element value
      | .expression, [] => true
      | _, _ => false
    | k => isTarget k

/-- What an assignment gives a value to. -/
def target (d : Dialect) (inner : Inner) : Rule Node := do
  let w ← nextWord
  Rule.require !(openingWords.contains w)
  let first ←
    if ← atBrackets then destructured inner
    else name (if operandWords.contains w then .expression else .identifier)
  let n ← Rule.iterate (part d inner) first
  Rule.require (isTarget n.kind || w == "undefined")
  pure n

/-- A target, or all the rest of what is taken apart. -/
def pattern (d : Dialect) (inner : Inner) : Rule Node := do
  let r ← ahead
  if ← trySign "..." then
    let n ← target d inner
    Rule.node .clause r.pos [n]
  else target d inner

end LogHygiene.Syntax.JavaScript
