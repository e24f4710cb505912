import LogHygiene.Syntax.Reading
import LogHygiene.Text.Ranges

/-!
# JavaScript: words, blanks and the semicolons that are not there

Line ends are blanks in this language, with one exception: a statement that lacks its semicolon ends
where the next line could not go on with it. `endsWithout` decides that, and it decides by the **first
characters** of what follows, not by what could be read there: a line that starts with a letter always
starts something new, unless the letters are those of `in` or `instanceof`; a line that starts with a
bracket or an operator never does, except for `++`, `--` and a lone `!`.

A comment between the statement and the line end belongs to the statement when an expression comes
last, because it is read before the question can be answered; behind anything else the statement has
ended before the comment.
-/

set_option autoImplicit false

namespace LogHygiene.Syntax.JavaScript

open LogHygiene.Text

/-- What a dialect adds to the language. -/
structure Dialect where
  /-- types, interfaces, enums -/
  types : Bool
  /-- elements in the style of a web page -/
  markup : Bool
  /-- whether an arrow function may state the type of its result -/
  results : Bool := true
  deriving DecidableEq, Repr, Inhabited

/-! ## Characters -/

/-- Spaces of a typesetter. -/
def spaceRanges : Ranges :=
  [(0xA0, 0xA0, 1), (0x1680, 0x1680, 1), (0x2000, 0x200B, 1), (0x2028, 0x2029, 1),
   (0x202F, 0x202F, 1), (0x205F, 0x2060, 1), (0x3000, 0x3000, 1), (0xFEFF, 0xFEFF, 1)]

/-- Blanks between words, line ends included. -/
def isGap (g : Glyph) : Bool :=
  g.isScalar &&
    (if g.char.toNat < 0x80 then g.char.isWhitespace || g.char == '\x0B' || g.char == '\x0C'
     else spaceRanges.holds g.char.toNat)

/-- Characters that end a line. -/
def isLineEnd (c : Char) : Bool := c == '\n' || c == '\u2028' || c == '\u2029'

/-- The blanks that are looked past where a semicolon may be missing. -/
def isPlainGap (c : Char) : Bool := [' ', '\t', '\n', '\r', '\x0B', '\x0C'].contains c

/-- Whether a name may go on with the glyph. Whatever is neither a blank nor a sign belongs to a
name. -/
def continuesName (g : Glyph) : Bool :=
  g.isScalar && !isGap g &&
    (if g.char.toNat < 0x80 then g.char.isAlphanum || g.char == '_' || g.char == '$' || g.char == '\x7F'
     else true)

/-- Whether a name may start with the glyph. -/
def startsName (g : Glyph) : Bool := continuesName g && !g.char.isDigit

/-- Whether the character is a hexadecimal digit. -/
def isHexDigit (c : Char) : Bool :=
  c.isDigit || ('a' ≤ c && c ≤ 'f') || ('A' ≤ c && c ≤ 'F')

/-! ## Comments and blanks -/

/-- The glyphs after the first `*/`. -/
def afterBlockComment : List Glyph → Position → Option (List Glyph × Position)
  | a :: b :: rest, pos =>
    if a.char == '*' && b.char == '/' then some (rest, (pos.advance a).advance b)
    else afterBlockComment (b :: rest) (pos.advance a)
  | _, _ => none

/-- Past the comment that starts here. -/
def passComment? (r : Reading) : Option Reading :=
  if r.startsWith ['/', '/'] then
    some ((r.passWhile (fun g => !isLineEnd g.char && g.char != '\r')).withTrivia .comment r.pos)
  else if r.startsWith ['/', '*'] then
    let s := r.steps 2
    (afterBlockComment s.rest s.pos).map fun (rest, pos) =>
      { r with rest, pos }.withTrivia .comment r.pos
  else none

/-- Past the comment in the style of a web page that starts here. -/
def passMarkupComment? (r : Reading) : Option Reading :=
  if r.startsWith ['<', '!', '-', '-'] || r.startsWith ['-', '-', '>'] then
    some ((r.passWhile (fun g => !isLineEnd g.char)).withTrivia .markupComment r.pos)
  else none

/-- Past blanks and comments. `fresh` says that something new starts here, so that comments in the
style of a web page count. -/
def passTriviaUpTo (fresh : Bool) : Nat → Reading → Reading
  | 0, r => r
  | n + 1, r =>
    match r.passFault with
    | some r' => passTriviaUpTo fresh n r'
    | none =>
      match r.rest with
      | [] => r
      | g :: _ =>
        if isGap g then passTriviaUpTo fresh n r.step
        else match passComment? r with
          | some r' => passTriviaUpTo fresh n r'
          | none =>
            match if fresh then passMarkupComment? r else none with
            | some r' => passTriviaUpTo fresh n r'
            | none => r

/-- The place of the next word. -/
def ahead : Rule Reading := fun r =>
  .done (if r.lacksName then r.gap else passTriviaUpTo false r.budget r) r

/-- Go to the place where something new starts. -/
def begin : Rule Position := do
  let r ← Rule.reading
  let r' := if r.lacksName then r else passTriviaUpTo true r.budget r
  Rule.goTo r'
  pure r'.pos

/-! ## Words -/

/-- Past an escaped character of a name. -/
def passNameEscape? (r : Reading) : Option Reading :=
  if r.startsWith ['\\', 'u', '{'] then
    let s := (r.steps 3).passWhile (fun g => isHexDigit g.char)
    if s.peek == '}' && isHexDigit (r.steps 3).peek then some s.step else none
  else if r.startsWith ['\\', 'u'] then
    let s := r.steps 2
    if ((s.rest.take 4).filter (fun g => isHexDigit g.char)).length == 4 then some (s.steps 4) else none
  else none

/-- Past what a name goes on with. -/
def passName : Nat → Reading → Reading
  | 0, r => r
  | n + 1, r =>
    match r.rest with
    | [] => r
    | g :: _ =>
      if continuesName g then passName n r.step
      else match passNameEscape? r with
        | some r' => passName n r'
        | none => r

/-- The name at a place. -/
def nameAt (r : Reading) : Option (List Char × Reading) :=
  match r.rest with
  | [] => none
  | g :: _ =>
    if startsName g || (passNameEscape? r).isSome then
      let r' := passName r.budget r
      some (r.charsUpTo r', r')
    else none

/-- Stuck at the next word. -/
def stuckAhead {α : Type} : Rule α := do Rule.stuckAt (← ahead).pos.byte

/-- The next character, behind blanks. -/
def nextChar : Rule Char := return (← ahead).peek

/-- The word that comes next, if it is made of letters. One that counts as a name for now is none of
the words that any rule asks for. -/
def nextWord : Rule String := do
  let r ← ahead
  match nameAt r with
  | some (cs, _) => pure (if r.isPlain then "name" else String.ofList cs)
  | none => pure ""

/-- The word after the next. -/
def secondWord : Rule Reading := do
  let r ← ahead
  let back ← Rule.reading
  match nameAt r with
  | some (_, r') =>
    Rule.goTo r'
    let s ← ahead
    Rule.goTo back
    pure s
  | none => pure r

/-- Words that are no names where a keyword could stand. -/
def keywords : List String :=
  ["as", "break", "case", "catch", "class", "const", "continue", "debugger", "default", "delete", "do",
   "else", "extends", "finally", "for", "from", "function", "if", "import", "in", "instanceof", "new",
   "of", "return", "switch", "throw", "try", "typeof", "var", "void", "while", "with", "yield"]

/-- A name that the text has, as a node of the given kind. -/
def givenName (kind : Kind) : Rule Node := do
  let here ← Rule.reading
  let r ← ahead
  match nameAt r with
  | some (cs, r') =>
    Rule.require !(here.isStrict r && keywords.contains (String.ofList cs))
    Rule.goTo r'
    Rule.node kind r.pos []
  | none => Rule.stuckAt r.pos.byte

/-- Any name, as a node of the given kind, or a repair that puts one here. No repair does so in front
of one of the `signs`, for these have to follow a name of this sort. -/
def nameBefore (signs : List String) (kind : Kind) : Rule Node := do
  match (← Rule.reading).takeMissing "" with
  | some r' =>
    Rule.goTo r'
    let next ← ahead
    Rule.require !(signs.any (fun s => next.startsWith s.toList))
    Rule.missing kind
  | none => givenName kind

/-- Any name, as a node of the given kind, or a repair that puts one here. -/
def name (kind : Kind) : Rule Node := nameBefore [] kind

/-- The keyword `k`. -/
def keyword (k : String) : Rule Unit := do
  let r ← ahead
  match nameAt r with
  | some (cs, r') => if cs == k.toList && !r.isPlain then Rule.take r r' else Rule.stuckAt r.pos.byte
  | none => Rule.stuckAt r.pos.byte

/-- Whether the keyword `k` comes next. -/
def atKeyword (k : String) : Rule Bool := return (← nextWord) == k

/-- Take the keyword `k` if it comes next. -/
def tryKeyword (k : String) : Rule Bool := do
  if ← atKeyword k then
    keyword k
    pure true
  else pure false

/-- Whether the sign `s` comes next, or a repair puts it here. -/
def atSign (s : String) : Rule Bool := do
  let here ← Rule.reading
  return (← ahead).startsWith s.toList || here.repairs.missing.contains (here.pos.byte, s)

/-- The sign `s`, or a repair that puts it here. -/
def sign (s : String) : Rule Unit := do
  let r ← ahead
  if r.startsWith s.toList then Rule.take r (r.steps s.length)
  else
    match (← Rule.reading).takeMissing s with
    | some r' =>
      Rule.goTo r'
      let _ ← Rule.missing .missing
    | none => Rule.stuckAt r.pos.byte

/-- Take the sign `s` if it comes next. -/
def trySign (s : String) : Rule Bool := do
  if ← atSign s then
    sign s
    pure true
  else pure false

/-- Whether the sign `s` closes what is open here, which may have to start anew before it. -/
def closes (s : String) : Rule Bool := do
  let here ← Rule.reading
  if here.repairs.missing.contains (here.pos.byte, s) then pure true
  else
    let _ ← begin
    atSign s

/-- Whether `=` comes next and is no part of a longer sign. -/
def atEquals : Rule Bool := do
  let r ← ahead
  pure (r.peek == '=' && r.peekSecond != '=' && r.peekSecond != '>')

/-! ## Semicolons -/

/-- How looking past blanks and comments ends. -/
inductive Past where
  /-- at a slash that starts no comment -/
  | division
  /-- behind comments of which one ended a line, or behind blanks -/
  | clear
  /-- behind a comment on this line -/
  | sameLine
  deriving DecidableEq, Repr

/-- Past the inside of a block comment; whether a line ended in it. -/
def passBlock : List Glyph → Bool → List Glyph × Bool
  | a :: b :: rest, newline =>
    if a.char == '*' && b.char == '/' then (rest, newline)
    else passBlock (b :: rest) (newline || isLineEnd a.char)
  | rest, newline => (rest.drop 1, newline)

/-- Look past blanks and comments; past block comments on the same line only if `all` holds. -/
def passAll (all : Bool) : Nat → List Glyph → Bool → List Glyph × Past
  | 0, gs, _ => (gs, .clear)
  | n + 1, gs, newline =>
    let gs := gs.dropWhile (fun g => isPlainGap g.char)
    match gs with
    | a :: b :: rest =>
      if a.char != '/' then (gs, .clear)
      else if b.char == '/' then passAll all n (rest.dropWhile (fun g => !isLineEnd g.char)) newline
      else if b.char == '*' then
        let (rest, ended) := passBlock rest newline
        if !all && (rest.head?.map Glyph.char) != some '/' then
          (rest, if ended then .clear else .sameLine)
        else passAll all n rest ended
      else (b :: rest, .division)
    | [a] => if a.char == '/' then ([], .division) else (gs, .clear)
    | [] => ([], .clear)

/-- Whether a new line that starts like this starts a new statement. `typed` are the rules of the
typed dialects, `mid` says that an operator could come next. -/
def startsStatement (typed mid : Bool) (gs : List Glyph) : Bool :=
  let c := (gs.head?.map Glyph.char).getD '\x00'
  let d := ((gs[1]?).map Glyph.char).getD '\x00'
  if ['\x60', ',', ';', '*', '%', '>', '<', '=', '?', '^', '|', '&', '/', ':'].contains c then false
  else if c == '(' || c == '[' then typed && !mid
  else if c == '.' then !typed && d.isDigit
  else if c == '+' || c == '-' then d == c
  else if c == '!' then d != '='
  else if c == 'i' && d == 'n' then
    let tail := (gs.drop 2).map Glyph.char
    if !(tail.headD '\x00').isAlpha then false
    else if "stanceof".toList.isPrefixOf tail then ((tail.drop 8).headD '\x00').isAlpha
    else true
  else true

/-- Whether the statement ends here though no semicolon comes. `mid` says that an operator could come
next. -/
def endsWithout (typed mid : Bool) : Nat → List Glyph → Bool
  | 0, _ => false
  | _ + 1, [] => true
  | n + 1, g :: rest =>
    if g.char == '\x00' then true
    else if g.char == '/' then
      let (gs, past) := passAll typed n (g :: rest) false
      let c := (gs.head?.map Glyph.char).getD '\x00'
      if past == .division then false
      else if typed then c == '}' && endsWithout typed mid n gs
      else if past == .clear && !mid && c != ',' && c != '=' then true
      else c != '/' && endsWithout typed mid n gs
    else if g.char == '}' then
      if typed then
        let next := rest.dropWhile (fun g => isPlainGap g.char)
        if (next.head?.map Glyph.char) == some ':' then mid else true
      else true
    else if isLineEnd g.char then
      let (gs, past) := passAll true n rest false
      if past == .division then false
      else gs.isEmpty || startsStatement typed mid gs
    else if isPlainGap g.char then endsWithout typed mid n rest
    else false

/-- Whether something ends here, or behind the comments that come next, though no semicolon comes. -/
def endsUpTo (typed mid : Bool) : Nat → Reading → Bool
  | 0, _ => false
  | n + 1, r =>
    endsWithout typed mid r.budget r.rest ||
      (passComment? (r.passWhile isGap)).any (endsUpTo typed mid n)

/-- Whether a statement ends before the next word though no semicolon comes. Between brackets none
does. -/
def endsHere (typed mid : Bool) : Rule Bool := do
  let r ← Rule.reading
  pure (!r.enclosed && endsUpTo typed mid r.budget r)

/-- Whether the next word is all there is of a statement that lacks its semicolon. -/
def endsBehindWord (typed mid : Bool) : Rule Bool := do
  let back ← Rule.reading
  match nameAt (← ahead) with
  | some (_, r') =>
    Rule.goTo r'
    let ends ← endsHere typed mid
    Rule.goTo back
    pure ends
  | none => pure false

/-- The end of a statement: a semicolon, or none where none is needed. Answers after the semicolon, or
after the comments that had to be read to find out. -/
def semicolonUpTo (typed mid : Bool) : Nat → Rule Unit
  | 0 => Rule.stuck
  | n + 1 => do
    let r ← Rule.reading
    let unended := r.cut && (r.rest.dropWhile (fun g => g.char == ' ' || g.char == '\t')).isEmpty
    if !r.isJoined r && !unended && endsWithout typed mid r.budget r.rest then Rule.settle
    else
      let s := r.passWhile isGap
      match if s.fault?.isSome then none else passComment? s with
      | some s' =>
        Rule.goTo s'
        semicolonUpTo typed mid n
      | none => sign ";"

/-- The end of a statement. -/
def semicolon (d : Dialect) (mid : Bool) : Rule Unit := fun r => semicolonUpTo d.types mid r.budget r

end LogHygiene.Syntax.JavaScript
