import LogHygiene.Syntax.JavaScript.Lexeme

/-!
# JavaScript: numbers, strings, templates and regular expressions

A template holds expressions between `$` and braces, so its rule takes the rule for expressions. A
slash starts a regular expression where an operand is due; the rule is asked only there.
-/

set_option autoImplicit false

namespace LogHygiene.Syntax.JavaScript

/-! ## Numbers -/

/-- Past digits, of which any two may have a low line between them. -/
def passDigits (isDigit : Char → Bool) : Nat → Reading → Reading
  | 0, r => r
  | n + 1, r =>
    if isDigit r.peek then passDigits isDigit n r.step
    else if r.peek == '_' && isDigit r.peekSecond then passDigits isDigit n (r.steps 2)
    else r

/-- Past at least one digit. -/
def digitsEnd (isDigit : Char → Bool) (r : Reading) : Option Reading :=
  if isDigit r.peek then some (passDigits isDigit r.budget r) else none

/-- Past an exponent, if one comes. -/
def passPower (r : Reading) : Reading :=
  if r.peek == 'e' || r.peek == 'E' then
    let s := if r.peekSecond == '+' || r.peekSecond == '-' then r.steps 2 else r.step
    (digitsEnd Char.isDigit s).getD r
  else r

/-- Past the letter of a large whole number, if it comes. -/
def passLarge (r : Reading) : Reading := if r.peek == 'n' then r.step else r

/-- The digits of a number that starts with a zero and a letter. -/
def radixDigits (c : Char) : Option (Char → Bool) :=
  match c.toLower with
  | 'x' => some isHexDigit
  | 'o' => some (fun c => '0' ≤ c && c ≤ '7')
  | 'b' => some (fun c => c == '0' || c == '1')
  | _ => none

/-- The place after the number that starts here. A whole number with a zero in front has no
fraction, unless another digit but zero follows. -/
def numeralEnd (r : Reading) : Option Reading :=
  let coded := if r.peek == '0' then
      (radixDigits r.peekSecond).bind (fun isDigit => digitsEnd isDigit (r.steps 2))
    else none
  match coded with
  | some s => some (passLarge s)
  | none =>
    if r.peek == '.' then (digitsEnd Char.isDigit r.step).map passPower
    else (digitsEnd Char.isDigit r).map fun s =>
      let bare := r.peek == '0' && !(r.peekSecond.isDigit && r.peekSecond != '0')
      if bare && r.pos.byte + 1 < s.pos.byte then passLarge s
      else if s.peek == '.' then passPower ((digitsEnd Char.isDigit s.step).getD s.step)
      else
        let t := passPower s
        if t.pos == s.pos then passLarge s else t

/-! ## Strings -/

/-- Past a backslash and what it escapes. -/
def passEscape? (r : Reading) : Option Reading :=
  let s := r.step
  let hex (n : Nat) (t : Reading) : Option Reading :=
    if ((t.rest.take n).filter (fun g => isHexDigit g.char)).length == n then some (t.steps n) else none
  match s.peek? with
  | none => none
  | some 'x' => hex 2 s.step
  | some 'u' => passNameEscape? r
  | some '\r' => some (if s.peekSecond == '\n' then s.steps 2 else s.step)
  | some _ => some s.step

/-- Past the inside of a string, up to the closing quote. -/
def passString (quote : Char) : Nat → Reading → Option Reading
  | 0, _ => none
  | n + 1, r =>
    match r.peek? with
    | none | some '\n' | some '\r' | some '\x00' => none
    | some c =>
      if c == quote then some r.step
      else if c == '\\' then (passEscape? r).bind (passString quote n)
      else passString quote n r.step

/-- The rest of the line. -/
def passLine (r : Reading) : Reading := r.passWhile (fun g => g.char != '\n' && g.char != '\r')

/-- Stuck behind an opening sign and the rest of its line, since nothing closes it there. -/
def unclosed {α : Type} (opening : Reading) : Rule α := do
  Rule.take opening opening.step
  let line := passLine opening.step
  Rule.goTo { line with pieces := (← Rule.reading).pieces }
  let _ ← Rule.node .expression opening.step.pos []
  Rule.stuckAt line.pos.byte

/-- A string. A repair may close it at the end of the line. -/
def stringLiteral : Rule Node := do
  let r ← ahead
  let quote := r.peek
  Rule.require (quote == '\'' || quote == '"')
  let line := passLine r.step
  match (passString quote r.budget r.step).or (line.takeMissing (String.singleton quote)) with
  | some r' =>
    Rule.goTo r'
    Rule.node .string r.pos []
  | none => unclosed r

/-! ## Templates -/

/-- Past the characters of a template, up to what is no mere character. -/
def passTemplate : Nat → Reading → Option Reading
  | 0, _ => none
  | n + 1, r =>
    match r.peek? with
    | none | some '\x00' => none
    | some '\x60' => some r
    | some '\\' => (passEscape? r).bind (passTemplate n)
    | some '$' => if r.peekSecond == '\x7b' then some r else passTemplate n r.step
    | some _ => passTemplate n r.step

/-- A template. -/
def template (expressions : Rule Node) : Rule Node := do
  let r ← ahead
  Rule.require (r.peek == '\x60')
  Rule.take r r.step
  let children ← Rule.rowOf do
    let here ← Rule.reading
    match passTemplate here.budget here with
    | none => Rule.stuckAt (r.pos.byte + 1)
    | some s =>
      if here.pos != s.pos then Rule.take here s
      if s.peek == '\x60' then pure none
      else
        Rule.take s (s.steps 2)
        let e ← Rule.enclosed expressions
        sign "\x7d"
        return some [← Rule.node .clause s.pos [e]]
  Rule.goTo ((← Rule.reading).step)
  Rule.node .expression r.pos children

/-! ## Regular expressions -/

/-- Past the inside of a regular expression, up to the slash that ends it. `inClass` says that a class
in square brackets is open. -/
def passPattern : Nat → Bool → Reading → Option Reading
  | 0, _, _ => none
  | n + 1, inClass, r =>
    match r.peek? with
    | none | some '\n' => none
    | some '\\' =>
      match r.step.peek? with
      | none | some '\n' => none
      | some _ => passPattern n inClass (r.steps 2)
    | some '[' => passPattern n true r.step
    | some ']' => passPattern n false r.step
    | some '/' => if inClass then passPattern n inClass r.step else some r
    | some _ => passPattern n inClass r.step

/-- A regular expression. -/
def regularExpression : Rule Node := do
  let r ← ahead
  Rule.require (r.peek == '/')
  match passPattern r.budget false r.step with
  | some s =>
    Rule.require (r.pos.byte + 1 < s.pos.byte)
    Rule.goTo (s.step.passWhile (fun g => g.char.isLower))
    Rule.node .expression r.pos []
  | none => unclosed r

end LogHygiene.Syntax.JavaScript
