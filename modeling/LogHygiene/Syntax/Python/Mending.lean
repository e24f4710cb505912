import LogHygiene.Syntax.Mending
import LogHygiene.Syntax.Python.Statement

/-!
# Python: words in broken text
-/

set_option autoImplicit false

namespace LogHygiene.Syntax.Python

/-- Signs, longer ones first. -/
def signs : List String :=
  ["**=", "//=", ">>=", "<<=", "...", "->", ":=", "+=", "-=", "*=", "/=", "@=", "%=", "&=", "^=", "|=",
   "**", "//", ">>", "<<", "<=", ">=", "==", "!=", "<>", "(", ")", "[", "]", "\x7b", "\x7d", ",", ":",
   ";", ".", "=", "+", "-", "*", "/", "%", "@", "&", "|", "^", "~", "<", ">"]

/-- One word, whatever could come here. What opens a string is a word of its own. -/
def word : Rule Node := do
  let r ← ahead .bracketed
  Rule.require !r.rest.isEmpty
  let (kind, after) : Kind × Reading :=
    match openingAt r, nameAt r, numberEnd r, signs.find? (fun s => r.startsWith s.toList) with
    | some (_, r'), _, _, _ => (.token, r')
    | _, some (cs, r'), _, _ =>
      (if keywords.contains (String.ofList cs) then .token else .identifier, r')
    | _, _, some r', _ => (.expression, r')
    | _, _, _, some s => (.token, r.steps s.length)
    | _, _, _, none => (.error, r.step)
  Rule.goTo after
  Rule.node kind r.pos []

/-- How much of a value is put together before a word is taken: nothing before it is given a value,
a side of a comparison before an operator, a whole expression before anything else. -/
def grip (w : String) : Nat :=
  if ["=", ":="].contains w then 0
  else if w == "." || w == "(" || w == "[" || joiningSigns.contains w || ["in", "is", "not"].contains w
  then 1
  else 2

/-- What broken files are mended with. -/
def mending : Mending :=
  { file, word, keywords, layout := true, grip, closers := [")", "]", "\x7d", "\n"] }

end LogHygiene.Syntax.Python
