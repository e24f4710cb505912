import LogHygiene.Syntax.Mending
import LogHygiene.Syntax.JavaScript.Statement

/-!
# JavaScript: words in broken text
-/

set_option autoImplicit false

namespace LogHygiene.Syntax.JavaScript

/-- Signs, longer ones first. -/
def signs : List String :=
  [">>>=", "...", "===", "!==", ">>>", "**=", "&&=", "||=", "??=", "<<=", ">>=", "=>", "==", "!=", "<=",
   ">=", "&&", "||", "??", "?.", "++", "--", "+=", "-=", "*=", "/=", "%=", "&=", "|=", "^=", "<<", ">>",
   "**", "\x7b", "\x7d", "(", ")", "[", "]", ";", ",", "<", ">", "+", "-", "*", "/", "%", "&", "|", "^",
   "!", "~", "?", ":", "=", ".", "@", "'", "\"", "\x60"]

/-- One word, whatever could come here. A quote is a word of its own. -/
def word : Rule Node := do
  let r ← ahead
  Rule.require !r.rest.isEmpty
  let (kind, after) : Kind × Reading :=
    match nameAt r, numeralEnd r, signs.find? (fun s => r.startsWith s.toList) with
    | some (cs, r'), _, _ =>
      (if keywords.contains (String.ofList cs) then .token else .identifier, r')
    | _, some r', _ => (.expression, r')
    | _, _, some s => (.token, r.steps s.length)
    | _, _, none => (.error, r.step)
  Rule.goTo after
  Rule.node kind r.pos []

/-- How much of a value is put together before a word is taken: nothing before it is given a value,
an operand before a part of it is taken, a whole expression before anything else. -/
def grip (w : String) : Nat :=
  if ["=", "=>"].contains w then 0
  else if [".", "?.", "[", "\x60"].contains w then 1
  else 2

/-- What broken files are mended with. -/
def mending (d : Dialect) : Mending :=
  { file := file d, word, keywords, layout := false, grip,
    closers := ["\x7d", ")", ";", "]", "'", "\"", ">"] }

end LogHygiene.Syntax.JavaScript
