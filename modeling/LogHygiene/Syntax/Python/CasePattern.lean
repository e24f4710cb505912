import LogHygiene.Syntax.Python.Pattern

/-!
# Python: patterns of a `case`

Patterns look like expressions and are none: `case print(x)` takes a value apart and calls nothing. So
they have rules of their own, and none of these makes a call node. What they contain matters to no
question asked of the tree, except for what stands between braces in a formatted string; so one node
covers a pattern, and holds only that.
-/

set_option autoImplicit false

namespace LogHygiene.Syntax.Python

/-- What reads a pattern: either of any sort or one that gives its match no name. -/
abbrev PatternRule := Bool → Rule (List Node)

/-- Patterns parted by commas up to the closing sign. -/
def casePatterns (one : Rule (List Node)) (close : String) : Rule (List Node) := do
  let groups ← Rule.many do
    if ← atSign .bracketed close then pure none
    else
      let ns ← one
      if ← trySign .bracketed "," then pure (some ns)
      else if ← atSign .bracketed close then pure (some ns)
      else stuckAhead .bracketed
  sign .bracketed close
  pure groups.flatten

/-- A number with an optional sign, or a sum of two numbers. -/
def caseNumber (e : LineEnd) : Rule (List Node) := do
  let number : Rule Unit := do
    let r ← ahead e
    match numberEnd r with
    | some r' => Rule.take r r'
    | none => Rule.stuckAt r.pos.byte
  let _ ← trySign e "-"
  number
  let r ← ahead e
  if r.peek == '+' || r.peek == '-' then
    sign e (String.singleton r.peek)
    number
  pure []

/-- An entry of a dictionary pattern. -/
def caseEntry (inside : PatternRule) : Rule (List Node) := do
  if ← atSign .bracketed "*" then inside false
  else
    let key ← inside false
    sign .bracketed ":"
    let value ← inside true
    pure (key ++ value)

/-- One pattern without alternatives. `embedded` reads what stands between braces in a string, `inside`
reads a pattern in brackets. -/
def closedPattern (embedded : Rule Node) (inside : PatternRule) (e : LineEnd) : Rule (List Node) := do
  let r ← ahead e
  if (openingAt r).isSome then
    let n ← strings embedded e
    pure [n]
  else if r.peek == '*' then
    sign e (if r.startsWith ['*', '*'] then "**" else "*")
    let _ ← name e
    pure []
  else if r.peek == '[' then
    sign e "["
    casePatterns (inside true) "]"
  else if r.peek == '(' then
    sign e "("
    casePatterns (inside true) ")"
  else if r.peek == '{' then
    sign e "\x7b"
    casePatterns (caseEntry inside) "\x7d"
  else if (nameAt r).isSome then
    let _ ← name e
    let _ ← Rule.many do
      if ← trySign e "." then
        let _ ← name .passed
        pure (some ())
      else pure none
    if ← trySign e "(" then casePatterns (inside true) ")" else pure []
  else caseNumber e

/-- Alternatives parted by bars. With `named`, also a word and an equals sign in front of them, or names
for what they match behind them. -/
def alternatives (embedded : Rule Node) (inside : PatternRule) (e : LineEnd) : PatternRule := fun named => do
  let simple : Rule (List Node) := do
    let first ← closedPattern embedded inside e
    let more ← Rule.many do
      if ← trySign e "|" then some <$> closedPattern embedded inside e else pure none
    pure (first ++ more.flatten)
  let keyed : Rule (List Node) := do
    Rule.require named
    let _ ← name e
    let r ← ahead e
    Rule.require (r.peek == '=' && r.peekSecond != '=')
    sign e "="
    simple
  let ns ← keyed <|> simple
  if named then
    let _ ← Rule.many do
      if ← tryKeyword e "as" then
        let _ ← name e
        pure (some ())
      else pure none
  pure ns

/-- A pattern in brackets, at most `n` deep. -/
def nestedPattern (embedded : Rule Node) : Nat → PatternRule
  | 0 => fun _ => Rule.stuck
  | n + 1 => alternatives embedded (nestedPattern embedded n) .bracketed

/-- The pattern of a `case`. -/
def casePattern (embedded : Rule Node) : Rule Node := do
  let start ← startOf .passed
  let r ← Rule.reading
  let ns ← alternatives embedded (nestedPattern embedded r.budget) .passed true
  Rule.node .clause start ns

end LogHygiene.Syntax.Python
