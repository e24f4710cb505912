import LogHygiene.Syntax.Python.Lexeme

/-!
# Python: numbers and strings

A string is opened by a quote behind any run of the letters `f`, `r`, `b` and `u`; which letters are
sensible together is not a question of grammar here. What stands between braces in a formatted string
is an expression, so the rule for a string takes the rule for an expression.

A line end breaks a string off unless the quote is tripled or the line end is the very first thing
after the quote, an escape or a braced expression.
-/

set_option autoImplicit false

namespace LogHygiene.Syntax.Python

/-! ## Numbers -/

/-- The digits of a number that starts with a zero and a letter. -/
def radixDigits (c : Char) : Option (Char → Bool) :=
  match c.toLower with
  | 'x' => some fun c => c.isDigit || ('a' ≤ c && c ≤ 'f') || ('A' ≤ c && c ≤ 'F')
  | 'o' => some fun c => '0' ≤ c && c ≤ '7'
  | 'b' => some fun c => c == '0' || c == '1'
  | _ => none

/-- Past digits of which each may have a low line before it. -/
def passCoded (isDigit : Char → Bool) : Nat → Reading → Reading
  | 0, r => r
  | n + 1, r =>
    if isDigit r.peek then passCoded isDigit n r.step
    else if r.peek == '_' && isDigit r.peekSecond then passCoded isDigit n (r.steps 2)
    else r

/-- Past digits of which each may have a low line behind it. -/
def passDigits : Nat → Reading → Reading
  | 0, r => r
  | n + 1, r =>
    if r.peek.isDigit then passDigits n (if r.peekSecond == '_' then r.steps 2 else r.step) else r

/-- Past an exponent, if one comes. -/
def passExponent (r : Reading) : Reading :=
  if r.peek == 'e' || r.peek == 'E' then
    let s := if r.peekSecond == '+' || r.peekSecond == '-' then r.steps 2 else r.step
    if s.peek.isDigit then passDigits r.budget s else r
  else r

/-- Past one of some letters, if one comes. -/
def passLetter (letters : List Char) (r : Reading) : Reading :=
  if letters.contains r.peek then r.step else r

/-- The place after the number that starts here. -/
def numberEnd (r : Reading) : Option Reading :=
  let coded := if r.peek == '0' then
      (radixDigits r.peekSecond).bind fun isDigit =>
        let s := passCoded isDigit r.budget (r.steps 2)
        if s.pos == (r.steps 2).pos then none else some s
    else none
  match coded with
  | some s => some (passLetter ['l', 'L'] s)
  | none =>
    let s := passDigits r.budget r
    if s.peek == '.' && (r.peek.isDigit || s.peekSecond.isDigit) then
      some (passLetter ['j', 'J'] (passExponent (passDigits r.budget s.step)))
    else if r.peek.isDigit then
      let t := passExponent s
      some (passLetter (if t.pos == s.pos then ['j', 'J', 'l', 'L'] else ['j', 'J']) t)
    else none

/-! ## Strings -/

/-- What opens a string. -/
structure Opening where
  formatted : Bool
  raw : Bool
  quote : Char
  triple : Bool
  deriving DecidableEq, Repr, Inhabited

/-- The opening of the string that starts here. -/
def openingAt (r : Reading) : Option (Opening × Reading) :=
  let isFlag (g : Glyph) := ['f', 'r', 'b', 'u'].contains g.char.toLower
  let s := r.passWhile isFlag
  let flags := (r.charsUpTo s).map Char.toLower
  let quote := s.peek
  if ['"', '\'', '\x60'].contains quote && s.rest != [] then
    let triple := quote != '\x60' && s.startsWith [quote, quote, quote]
    some (⟨flags.contains 'f', flags.contains 'r', quote, triple⟩, s.steps (if triple then 3 else 1))
  else none

/-- Whether a string comes next. -/
def atString (e : LineEnd) : Rule Bool := return (openingAt (← ahead e)).isSome

/-- A named character escape, up to its closing brace. -/
def passNamedEscape (r : Reading) : Option Reading :=
  if r.startsWith ['\\', 'N', '{'] then
    let s := (r.steps 3).passWhile (fun g => g.char != '}')
    if s.peek == '}' && (r.steps 3).pos != s.pos then some s.step else none
  else none

/-- Past a backslash and what it escapes. -/
def passEscape (o : Opening) (r : Reading) : Reading :=
  let s := r.step
  if o.raw then
    let s := if s.peek == o.quote || s.peek == '\\' then s.step else s
    if s.startsWith ['\r', '\n'] then s.steps 2
    else if s.peek == '\r' || s.peek == '\n' then s.step
    else s
  else match passNamedEscape r with
    | some s => s
    | none =>
      if s.startsWith ['\r', '\n'] then s.steps 2
      else if ['\n', '"', '\'', '\\'].contains s.peek then s.step
      else s

mutual

/-- What stands between braces in a formatted string, up to the closing brace; at most `n` braces
deep. -/
def interpolation (expression : Rule Node) : Nat → Rule Node
  | 0 => Rule.stuck
  | n + 1 => do
    let start ← startOf .bracketed
    sign .bracketed "\x7b"
    let first ← expression
    let more ← Rule.many do
      if ← trySign .bracketed "," then
        if ← atSign .bracketed "\x7d" then pure (some []) else pure (some [← expression])
      else pure none
    let _ ← trySign .bracketed "="
    let r ← ahead .bracketed
    if r.peek == '!' && r.peekSecond.isLower then Rule.take r (r.steps 2)
    let format ← if ← trySign .bracketed ":" then formatSpec expression n else pure []
    sign .bracketed "\x7d"
    Rule.node .clause start (first :: more.flatten ++ format)

/-- The format after the colon of a braced expression. -/
def formatSpec (expression : Rule Node) : Nat → Rule (List Node)
  | 0 => Rule.stuck
  | n + 1 => Rule.many do
    let r ← Rule.reading
    match r.peek? with
    | none | some '}' | some '\n' => pure none
    | some '{' => return some (← interpolation expression n)
    | some _ => do
      Rule.goTo (r.passWhile (fun g => !(['{', '}', '\n'].contains g.char)))
      Rule.node .token r.pos []

end

/-- One step through the inside of a string that starts at the offset `start`: `fresh` says whether something was
read since the quote, the last escape or the last brace, and the children read so far are kept latest first. Answers
`none` at the closing quote. -/
def stringStep (expression : Rule Node) (o : Opening) (start : Nat) :
    Bool × List Node → Rule (Option (Bool × List Node))
  | (fresh, children) => do
    let r ← Rule.reading
    match r.peek? with
    | none | some '\x00' => Rule.stuckAt start
    | some c =>
      if c == o.quote then
        if o.triple && !r.startsWith [c, c, c] then do
          Rule.goTo r.step
          pure (some (false, children))
        else pure none
      else if o.formatted && c == '{' && r.peekSecond != '{' then do
        let inner ← interpolation expression r.budget
        pure (some (true, inner :: children))
      else if o.formatted && c == '}' && r.peekSecond != '}' then Rule.stuck
      else if o.formatted && (c == '{' || c == '}') then do
        Rule.goTo (r.steps 2)
        pure (some (true, children))
      else if c == '\\' then do
        Rule.goTo (passEscape o r)
        pure (some (if o.raw then fresh else true, children))
      else if c == '\n' && !fresh && !o.triple then Rule.stuckAt start
      else do
        Rule.goTo r.step
        pure (some (false, children))

/-- One string. -/
def stringLiteral (expression : Rule Node) (e : LineEnd) : Rule Node := do
  let r ← ahead e
  match openingAt r with
  | none => Rule.stuckAt r.pos.byte
  | some (o, inside) =>
    Rule.take r inside
    let (_, children) ← Rule.iterate (stringStep expression o inside.pos.byte) (true, [])
    Rule.goTo ((← Rule.reading).steps (if o.triple then 3 else 1))
    Rule.node .string r.pos children.reverse

/-- One string, or several that stand side by side and make one text. -/
def strings (expression : Rule Node) (e : LineEnd) : Rule Node := do
  let start ← startOf e
  let first ← stringLiteral expression e
  let more ← Rule.rowOf do
    if ← atString e then return some [← stringLiteral expression e] else pure none
  if more.isEmpty then pure first else Rule.phrase .expression start (first :: more)

end LogHygiene.Syntax.Python
