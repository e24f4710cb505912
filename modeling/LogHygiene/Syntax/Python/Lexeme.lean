import LogHygiene.Syntax.Reading
import LogHygiene.Text.NameChar

/-!
# Python: words and layout

In Python a line end is a word in some places and a blank in others. Which one it is depends on what
could follow, so every rule that takes a word says what a line end **means** there (`LineEnd`):

* it *ends* the statement, where the statement could stop;
* it is *passed* like a blank, where the statement needs more, unless the next line stands further
  out than the block, which ends the block and so leaves the statement unfinished;
* it is *bracketed*, and just a blank, where a bracket could be closed.

Indentation is looked at only between statements (`Layout`). A line that stands further in than its
block is still part of the block; only a block's first line sets a depth.
-/

set_option autoImplicit false

namespace LogHygiene.Syntax.Python

open LogHygiene.Text

/-- What a line end means before the next word. -/
inductive LineEnd where
  | ends
  | passed
  | bracketed
  deriving DecidableEq, Repr, Inhabited

/-- Blanks other than the line feed. -/
def isGap (c : Char) : Bool :=
  [' ', '\t', '\r', '\x0B', '\x0C', '\uFEFF', '\u2060', '\u200B'].contains c

/-- Whether a name may start with the glyph. -/
def startsName (g : Glyph) : Bool := g.isScalar && (g.char == '_' || isNameStart g.char)

/-- Whether a name may go on with the glyph. -/
def continuesName (g : Glyph) : Bool := g.isScalar && isNameContinue g.char

/-! ## Layout -/

/-- What stands between two words, as far as indentation is concerned. -/
structure Layout where
  /-- a line ended, or the file did -/
  newLine : Bool := false
  /-- the depth of the line on which the next word stands -/
  indent : Nat := 0
  /-- the depth of the first line that holds only a comment -/
  firstComment : Option Nat := none
  deriving DecidableEq, Repr, Inhabited

namespace Layout

/-- The glyphs after the end of this line. -/
def afterLine : List Glyph → List Glyph
  | [] => []
  | g :: rest => if g.char == '\n' then rest else afterLine rest

/-- Read layout on from `l`. A tab counts eight; a carriage return starts the count anew. Lines with
only a comment count for no depth but the first is remembered; a comment behind a word ends the
layout. -/
def scan : Nat → Layout → List Glyph → Layout
  | 0, l, _ => l
  | _ + 1, l, [] => { l with newLine := true, indent := 0 }
  | fuel + 1, l, g :: rest =>
    if g.char == '\n' then scan fuel { l with newLine := true, indent := 0 } rest
    else if g.char == ' ' then scan fuel { l with indent := l.indent + 1 } rest
    else if g.char == '\r' || g.char == '\x0C' then scan fuel { l with indent := 0 } rest
    else if g.char == '\t' then scan fuel { l with indent := l.indent + 8 } rest
    else if g.char == '#' && l.newLine then
      scan fuel { l with firstComment := l.firstComment.or (some l.indent), indent := 0 }
        (afterLine rest)
    else if g.char == '\\' then
      match rest with
      | [] => scan fuel l []
      | a :: tail =>
        if a.char == '\n' then scan fuel l tail
        else match a.char == '\r', tail with
          | true, b :: tail => if b.char == '\n' then scan fuel l tail else l
          | _, _ => l
    else l

/-- The layout before the next word of a reading. -/
def before (r : Reading) : Layout := scan r.budget {} r.rest

/-- Whether the line stands further out than a block of the given depth. A comment that still stands
in the block keeps the block open. -/
def leaves (l : Layout) (depth : Nat) : Bool :=
  l.newLine && l.indent < depth && l.firstComment.all (· < depth)

end Layout

/-- The depth of the innermost block. -/
def depth (r : Reading) : Nat := r.indents.headD 0

/-! ## Trivia -/

/-- Past blanks, comments and joined lines; past line ends too if `lines` holds, or behind a fault. -/
def passTriviaUpTo (lines : Bool) : Nat → Reading → Reading
  | 0, r => r
  | fuel + 1, r =>
    match r.passFault with
    | some r' => passTriviaUpTo true fuel r'
    | none =>
      match r.peek? with
      | none => r
      | some c =>
        if isGap c && (r.rest.head?.any Glyph.isScalar) then passTriviaUpTo lines fuel r.step
        else if c == '\n' && lines then passTriviaUpTo lines fuel r.step
        else if c == '#' then
          let r' := r.passWhile (fun g => g.char != '\n')
          passTriviaUpTo lines fuel (r'.withTrivia .comment r.pos)
        else if c == '\\' && r.peekSecond == '\n' then
          passTriviaUpTo lines fuel ((r.steps 2).withTrivia .lineContinuation r.pos)
        else if c == '\\' && r.startsWith ['\\', '\r', '\n'] then
          passTriviaUpTo lines fuel ((r.steps 3).withTrivia .lineContinuation r.pos)
        else r

/-- Past what stands before the next word. -/
def passTrivia (lines : Bool) (r : Reading) : Reading :=
  passTriviaUpTo (lines || r.isJoined r) r.budget r

/-- The place of the next word, if a line end of the given meaning lets the rule get there. -/
def ahead (e : LineEnd) : Rule Reading := fun r =>
  if r.lacksName then .done r.gap r
  else match e with
  | .ends => .done (passTrivia false r) r
  | .bracketed => .done (passTrivia true r) r
  | .passed =>
    let l := Layout.before r
    let r' := passTrivia true r
    let quoted := r'.peek == '"' || r'.peek == '\'' || r'.peek == '\x60'
    if l.leaves (depth r) && !quoted then Rule.stuck r else .done r' r

/-- Past what stands before a word that has to come, line ends included. -/
def cross : Rule Unit := do
  let next ← ahead .passed
  if !(← Rule.reading).lacksName then Rule.goTo next

/-- Where the next word starts. -/
def startOf (e : LineEnd) : Rule Position := return (← ahead e).pos

/-- The next character, behind blanks. -/
def nextChar (e : LineEnd) : Rule Char := return (← ahead e).peek

/-! ## Words -/

/-- The name at a place. -/
def nameAt (r : Reading) : Option (List Char × Reading) :=
  match r.rest with
  | g :: _ =>
    if startsName g then
      let r' := r.passWhile continuesName
      some (r.charsUpTo r', r')
    else none
  | [] => none

/-- The word that comes next, if it is made of letters. One that counts as a name for now is none of
the words that any rule asks for. -/
def nextWord (e : LineEnd) : Rule (List Char) := do
  let r ← ahead e
  match nameAt r with
  | some (cs, _) => pure (if r.isPlain then "name".toList else cs)
  | none => pure []

/-- Stuck at the next word. -/
def stuckAhead {α : Type} (e : LineEnd) : Rule α := do
  Rule.stuckAt (← ahead e).pos.byte

/-- Words that are no names where a keyword could stand. -/
def keywords : List String :=
  ["and", "as", "assert", "break", "case", "class", "continue", "def", "del", "elif", "else", "except",
   "finally", "for", "from", "global", "if", "import", "in", "is", "lambda", "nonlocal", "not", "or",
   "pass", "raise", "return", "try", "while", "with", "yield"]

/-- A name that the text has. -/
def givenName (e : LineEnd) : Rule Node := do
  let here ← Rule.reading
  let r ← ahead e
  match nameAt r with
  | some (cs, r') =>
    Rule.require !(here.isStrict r && keywords.contains (String.ofList cs))
    Rule.goTo r'
    Rule.node .identifier r.pos []
  | none => Rule.stuckAt r.pos.byte

/-- Any name, or a repair that puts one here. No repair does so in front of one of the `signs`, for
these have to follow a name of this sort. -/
def nameBefore (signs : List String) (e : LineEnd) : Rule Node := do
  match (← Rule.reading).takeMissing "" with
  | some r' =>
    Rule.goTo r'
    let next ← ahead e
    Rule.require !(signs.any (fun s => next.startsWith s.toList))
    Rule.missing .identifier
  | none => givenName e

/-- Any name, or a repair that puts one here. -/
def name (e : LineEnd) : Rule Node := nameBefore [] e

/-- The keyword `k`. -/
def keyword (e : LineEnd) (k : String) : Rule Unit := do
  let r ← ahead e
  match nameAt r with
  | some (cs, r') => if cs == k.toList && !r.isPlain then Rule.take r r' else Rule.stuckAt r.pos.byte
  | none => Rule.stuckAt r.pos.byte

/-- Whether the keyword `k` comes next. -/
def atKeyword (e : LineEnd) (k : String) : Rule Bool := return (← nextWord e) == k.toList

/-- Take the keyword `k` if it comes next. -/
def tryKeyword (e : LineEnd) (k : String) : Rule Bool := do
  if ← atKeyword e k then
    keyword e k
    pure true
  else pure false

/-- Whether the sign `s` comes next, or a repair puts it here. -/
def atSign (e : LineEnd) (s : String) : Rule Bool := do
  let here ← Rule.reading
  return (← ahead e).startsWith s.toList || here.repairs.missing.contains (here.pos.byte, s)

/-- The sign `s`, or a repair that puts it here. -/
def sign (e : LineEnd) (s : String) : Rule Unit := do
  let r ← ahead e
  if r.startsWith s.toList then Rule.take r (r.steps s.length)
  else
    match (← Rule.reading).takeMissing s with
    | some r' =>
      Rule.goTo r'
      let _ ← Rule.missing .missing
    | none => Rule.stuckAt r.pos.byte

/-- Take the sign `s` if it comes next. -/
def trySign (e : LineEnd) (s : String) : Rule Bool := do
  if ← atSign e s then
    sign e s
    pure true
  else pure false

/-- Whether the statement could stop here: the line or the file ends, or a repair ends the line. -/
def atLineEnd : Rule Bool := do
  let here ← Rule.reading
  let r ← ahead .ends
  let ends := (r.rest.isEmpty && !r.cut) || r.peek == '\n'
  pure ((ends && !here.isJoined r) || here.repairs.missing.contains (here.pos.byte, "\n"))

/-- Past the end of the statement's line: nothing is taken, the line end stays for the layout. A line
end that the text lacks takes no room and cannot be seen; only the file as a whole is broken then. -/
def lineEnd : Rule Unit := do
  let here ← Rule.reading
  if here.repairs.missing.contains (here.pos.byte, "\n") then
    Rule.goTo (here.withTrivia .absent here.pos)
    Rule.settle
  else if ← atLineEnd then Rule.settle
  else stuckAhead .ends

end LogHygiene.Syntax.Python
