import LogHygiene.Yaml.Fault

/-!
# Scalars of a YAML text

A scalar is written plain, between quotes of one kind or the other, or as a block of its own. Each way
has its rule for what becomes of line ends: inside a scalar that is not literal, one line end is a
blank and of several the first is dropped.

A `Cursor` is a place in a text together with what follows there. It moves over one character, over a
line end (which may be two characters), or over a run of characters.
-/

set_option autoImplicit false

namespace LogHygiene.Yaml

/-- How a scalar is written. -/
inductive Style where
  | plain
  | singleQuoted
  | doubleQuoted
  | literal
  | folded
  deriving DecidableEq, Repr, Inhabited

/-- Whether a character ends a line. -/
def isBreak (c : Char) : Bool :=
  c == '\n' || c == '\r' || c == '\u0085' || c == '\u2028' || c == '\u2029'

/-- A space or a tab. -/
def isBlank (c : Char) : Bool := c == ' ' || c == '\t'

/-- Whether a character, which is NUL behind the end of the text, ends a line. -/
def isBreakOrEnd (c : Char) : Bool := isBreak c || c == '\x00'

/-- Whether a character, which is NUL behind the end of the text, ends a word. -/
def isGap (c : Char) : Bool := isBlank c || isBreakOrEnd c

/-- A letter, a digit, `_` or `-`. -/
def isWordChar (c : Char) : Bool := c.isAlphanum || c == '_' || c == '-'

/-- A place in a text and what follows there. -/
structure Cursor where
  rest : List Char
  mark : Mark
  deriving Inhabited

namespace Cursor

/-- The next character, NUL at the end. -/
def peek (c : Cursor) : Char := c.rest.headD '\x00'

/-- The character `n` places ahead, NUL behind the end. -/
def peekAt (c : Cursor) (n : Nat) : Char := c.rest.getD n '\x00'

/-- Past one character. -/
def skip (c : Cursor) : Cursor :=
  match c.rest with
  | [] => c
  | _ :: rest => ⟨rest, ⟨c.mark.index + 1, c.mark.line, c.mark.column + 1⟩⟩

/-- Past `n` characters. -/
def skips (c : Cursor) : Nat → Cursor
  | 0 => c
  | n + 1 => c.skip.skips n

/-- The line end here, as it counts in a text, and the place after it. -/
def readBreak (c : Cursor) : List Char × Cursor :=
  let next (width : Nat) (rest : List Char) : Cursor := ⟨rest, ⟨c.mark.index + width, c.mark.line + 1, 0⟩⟩
  match c.rest with
  | '\r' :: '\n' :: rest => (['\n'], next 2 rest)
  | b :: rest =>
    if b == '\n' || b == '\r' || b == '\u0085' then (['\n'], next 1 rest)
    else if b == '\u2028' || b == '\u2029' then ([b], next 1 rest)
    else ([], c)
  | [] => ([], c)

/-- Past a line end. -/
def skipBreak (c : Cursor) : Cursor := c.readBreak.2

/-- The characters that `p` holds of, and the place after them. -/
def takeRun (p : Char → Bool) (c : Cursor) : List Char × Cursor :=
  let run := c.rest.takeWhile p
  (run, ⟨c.rest.dropWhile p, ⟨c.mark.index + run.length, c.mark.line, c.mark.column + run.length⟩⟩)

/-- Past the characters that `p` holds of. -/
def skipRun (p : Char → Bool) (c : Cursor) : Cursor := (c.takeRun p).2

/-- Past a comment that starts here. -/
def skipComment (c : Cursor) : Cursor :=
  if c.peek == '#' then c.skipRun (fun c => !isBreakOrEnd c) else c

/-- Whether a line that only marks the border of a document starts here. -/
def atDocumentMark (c : Cursor) : Bool :=
  c.mark.column == 0 && isGap (c.peekAt 3) &&
    (c.rest.take 3 == ['-', '-', '-'] || c.rest.take 3 == ['.', '.', '.'])

/-- A fault at this place. -/
def fault {α : Type} (c : Cursor) (activity : Activity) (began : Mark) (problem : Problem) :
    Except Fault α :=
  .error (.grammar problem c.mark (some (activity, began)))

end Cursor

/-! ## Line ends inside a scalar -/

/-- What stands between two words of a scalar. -/
inductive Gap where
  | blanks (text : List Char)
  /-- a first line end, which may have been escaped away, and those after it -/
  | breaks (first : List Char) (more : List Char)
  deriving Inhabited

/-- What a gap contributes to the text. -/
def Gap.folded : Gap → List Char
  | blanks text => text
  | breaks ['\n'] [] => [' ']
  | breaks ['\n'] more => more
  | breaks first more => first ++ more

/-- Read blanks and line ends; `tabFault` is raised by a tab at the front of a line left of `indent`. -/
def readGap (indent : Nat) (tabFault : Option (Cursor → Except Fault Unit)) :
    Nat → Gap → Cursor → Except Fault (Gap × Cursor)
  | 0, gap, c => .ok (gap, c)
  | n + 1, gap, c =>
    if isBlank c.peek then
      match gap with
      | .blanks text => readGap indent tabFault n (.blanks (text ++ [c.peek])) c.skip
      | .breaks _ _ => do
        match tabFault with
        | some raise => if c.peek == '\t' && c.mark.column < indent then raise c
        | none => pure ()
        readGap indent tabFault n gap c.skip
    else if isBreak c.peek then
      let (b, c') := c.readBreak
      match gap with
      | .blanks _ => readGap indent tabFault n (.breaks b []) c'
      | .breaks first more => readGap indent tabFault n (.breaks first (more ++ b)) c'
    else .ok (gap, c)

/-! ## Plain scalars -/

/-- Whether a plain scalar ends in front of `c`. -/
def endsPlain (inFlow : Bool) (c next : Char) : Bool :=
  (c == ':' && isGap next) ||
    (inFlow && (c == ',' || c == '[' || c == ']' || c == '\x7b' || c == '\x7d'))

/-- Characters that must not follow a colon inside a plain scalar of a flow collection. -/
def clashesWithColon (c : Char) : Bool :=
  c == ',' || c == '?' || c == '[' || c == ']' || c == '\x7b' || c == '\x7d'

/-- What was read of a plain scalar. -/
structure PlainRead where
  text : List Char
  /-- a line end came after its last word -/
  endsLine : Bool
  deriving Inhabited

/-- The characters of one word of a plain scalar. -/
def plainWord (inFlow : Bool) (began : Mark) : Nat → Cursor → Except Fault (List Char × Cursor)
  | 0, c => .ok ([], c)
  | n + 1, c =>
    if isGap c.peek then .ok ([], c)
    else if inFlow && c.peek == ':' && clashesWithColon (c.peekAt 1) then
      c.fault (.scanning "a plain scalar") began (.met "unexpected ':'")
    else if endsPlain inFlow c.peek (c.peekAt 1) then .ok ([], c)
    else do
      let (cs, c') ← plainWord inFlow began n c.skip
      pure (c.peek :: cs, c')

/-- The words of a plain scalar from here on; `gap` stands in front of the next one. -/
def plainWords (inFlow : Bool) (indent : Nat) (began : Mark) :
    Nat → Gap → PlainRead → Cursor → Except Fault (PlainRead × Cursor)
  | 0, _, read, c => .ok (read, c)
  | n + 1, gap, read, c => do
    let broken := match gap with | .breaks _ _ => true | .blanks _ => false
    let read := { read with endsLine := broken }
    if c.atDocumentMark || c.peek == '#' then pure (read, c)
    else
      let (word, after) ← plainWord inFlow began (c.rest.length + 1) c
      let read := if word.isEmpty then read
        else ⟨read.text ++ gap.folded ++ word, false⟩
      if !(isBlank after.peek || isBreak after.peek) then pure (read, after)
      else
        let tabs : Cursor → Except Fault Unit := fun c =>
          c.fault (.scanning "a plain scalar") began
            (.met "a tab character that violates indentation")
        let gap := if word.isEmpty then gap else .blanks []
        let (gap, after) ← readGap indent (some tabs) (after.rest.length + 1) gap after
        let broken := match gap with | .breaks _ _ => true | .blanks _ => false
        if !inFlow && after.mark.column < indent then pure ({ read with endsLine := broken }, after)
        else plainWords inFlow indent began n gap read after

/-- A plain scalar; its lines after the first stand at `indent` or to the right of it. -/
def plainScalar (inFlow : Bool) (indent : Nat) (c : Cursor) : Except Fault (PlainRead × Cursor) :=
  plainWords inFlow indent c.mark (c.rest.length + 1) (.blanks []) ⟨[], false⟩ c

/-! ## Quoted scalars -/

/-- The value of a hexadecimal digit. -/
def hexDigit? (c : Char) : Option Nat :=
  if c.isDigit then some (c.toNat - '0'.toNat)
  else if 'a' ≤ c && c ≤ 'f' then some (c.toNat - 'a'.toNat + 10)
  else if 'A' ≤ c && c ≤ 'F' then some (c.toNat - 'A'.toNat + 10)
  else none

/-- The character that a letter behind a backslash stands for. -/
def shortEscape? : Char → Option Char
  | '0' => some '\x00'
  | 'a' => some '\x07'
  | 'b' => some '\x08'
  | 't' => some '\t'
  | '\t' => some '\t'
  | 'n' => some '\n'
  | 'v' => some '\x0b'
  | 'f' => some '\x0c'
  | 'r' => some '\r'
  | 'e' => some '\x1b'
  | ' ' => some ' '
  | '"' => some '"'
  | '/' => some '/'
  | '\\' => some '\\'
  | 'N' => some '\u0085'
  | '_' => some '\u00a0'
  | 'L' => some '\u2028'
  | 'P' => some '\u2029'
  | _ => none

/-- How many digits a letter behind a backslash announces. -/
def escapeWidth? : Char → Option Nat
  | 'x' => some 2
  | 'u' => some 4
  | 'U' => some 8
  | _ => none

/-- The character behind a backslash, and the place after it. -/
def escape (began : Mark) (c : Cursor) : Except Fault (Char × Cursor) :=
  let quoted : Activity := .parsing "a quoted scalar"
  match shortEscape? (c.peekAt 1), escapeWidth? (c.peekAt 1) with
  | some e, _ => .ok (e, c.skips 2)
  | none, some width =>
    let c := c.skips 2
    match (c.rest.take width).mapM hexDigit? with
    | some ds =>
      if ds.length < width then c.fault quoted began (.missing "hexdecimal number")
      else
        let n := ds.foldl (fun n d => n * 16 + d) 0
        if (0xD800 ≤ n && n ≤ 0xDFFF) || 0x10FFFF < n then
          c.fault quoted began (.met "invalid Unicode character escape code")
        else .ok (Char.ofNat n, c.skips width)
    | none => c.fault quoted began (.missing "hexdecimal number")
  | none, none => c.fault quoted began (.met "unknown escape character")

/-- The characters of a quoted scalar up to a blank, a line end or the closing quote; and whether they
stop because a line end was escaped. -/
def quotedWord (single : Bool) (began : Mark) :
    Nat → Cursor → Except Fault (List Char × Bool × Cursor)
  | 0, c => .ok ([], false, c)
  | n + 1, c =>
    let quote := if single then '\'' else '"'
    if isGap c.peek then .ok ([], false, c)
    else if single && c.peek == '\'' && c.peekAt 1 == '\'' then do
      let (cs, e, c') ← quotedWord single began n (c.skips 2)
      pure ('\'' :: cs, e, c')
    else if c.peek == quote then .ok ([], false, c)
    else if !single && c.peek == '\\' && isBreak (c.peekAt 1) then .ok ([], true, c.skip.skipBreak)
    else if !single && c.peek == '\\' then do
      let (e, c') ← escape began c
      let (cs, broken, c'') ← quotedWord single began n c'
      pure (e :: cs, broken, c'')
    else do
      let (cs, e, c') ← quotedWord single began n c.skip
      pure (c.peek :: cs, e, c')

/-- The text of a quoted scalar from here up to its closing quote. -/
def quotedText (single : Bool) (began : Mark) :
    Nat → Cursor → Except Fault (List Char × Cursor)
  | 0, c => .ok ([], c)
  | n + 1, c => do
    let quoted : Activity := .scanning "a quoted scalar"
    if c.atDocumentMark then c.fault quoted began (.met "unexpected document indicator")
    else if c.rest.isEmpty then c.fault quoted began (.met "unexpected end of stream")
    else
      let (word, escaped, c) ← quotedWord single began (c.rest.length + 1) c
      if c.peek == (if single then '\'' else '"') then pure (word, c.skip)
      else
        let gap : Gap := if escaped then .breaks [] [] else .blanks []
        let (gap, c) ← readGap 0 none (c.rest.length + 1) gap c
        let (more, c) ← quotedText single began n c
        pure (word ++ gap.folded ++ more, c)

/-- A quoted scalar. -/
def quotedScalar (single : Bool) (c : Cursor) : Except Fault (List Char × Cursor) :=
  quotedText single c.mark (c.rest.length + 1) c.skip

/-! ## Block scalars -/

/-- What becomes of the line ends at the end of a block. -/
inductive Chomping where
  | strip
  | clip
  | keep
  deriving DecidableEq, Repr, Inhabited

/-- The sign for what becomes of the last line ends, if one stands here. -/
def chomping? (c : Char) : Option Chomping :=
  if c == '+' then some .keep else if c == '-' then some .strip else none

/-- The head of a block scalar behind its indicator: chomping, and the digit that gives the
indentation. -/
def blockHead (began : Mark) (c : Cursor) : Except Fault (Chomping × Option Nat × Cursor) :=
  let digit (c : Cursor) : Except Fault (Option Nat × Cursor) :=
    if c.peek == '0' then
      c.fault (.scanning "a block scalar") began (.met "an indentation indicator equal to 0")
    else if c.peek.isDigit then .ok (some (c.peek.toNat - '0'.toNat), c.skip)
    else .ok (none, c)
  match chomping? c.peek with
  | some chomping => do
    let (indent, c) ← digit c.skip
    pure (chomping, indent, c)
  | none => do
    let (indent, c) ← digit c
    match indent, chomping? c.peek with
    | some n, some chomping => pure (chomping, some n, c.skip)
    | indent, _ => pure (.clip, indent, c)

/-- The indentation of a block and the line ends in front of its next line. While the indentation is
not known the deepest of the blank lines counts. -/
def blockBreaks (began : Mark) (least : Nat) :
    Nat → Option Nat → Nat → List Char → Cursor → Except Fault (Nat × List Char × Cursor)
  | 0, indent, deepest, breaks, c => .ok (indent.getD (max deepest least), breaks, c)
  | n + 1, indent, deepest, breaks, c =>
    let spaces := (c.rest.takeWhile (· == ' ')).length
    let width := match indent with
      | some k => min spaces (k - c.mark.column)
      | none => spaces
    let c := c.skips width
    let deepest := max deepest c.mark.column
    let left := match indent with | some k => decide (c.mark.column < k) | none => true
    if left && c.peek == '\t' then
      c.fault (.scanning "a block scalar") began
        (.met "a tab character where an indentation space is expected")
    else if !isBreak c.peek then .ok (indent.getD (max deepest least), breaks, c)
    else
      let (b, c) := c.readBreak
      blockBreaks began least n indent deepest (breaks ++ b) c

/-- The lines of a block: the text so far, the line end after its last line, and the empty lines
after that. -/
def blockLines (folds : Bool) (began : Mark) (indent : Nat) :
    Nat → Bool → List Char → List Char → List Char → Cursor →
      Except Fault (List Char × List Char × List Char × Cursor)
  | 0, _, text, lead, trail, c => .ok (text, lead, trail, c)
  | n + 1, leadingBlank, text, lead, trail, c =>
    if c.mark.column != indent || c.rest.isEmpty then .ok (text, lead, trail, c)
    else do
      let blank := isBlank c.peek
      let joint :=
        if folds && lead == ['\n'] && !leadingBlank && !blank then
          (if trail.isEmpty then [' '] else [])
        else lead
      let (line, c) := c.takeRun (fun c => !isBreakOrEnd c)
      let (lead', c) := c.readBreak
      let (_, trail', c) ← blockBreaks began 0 (c.rest.length + 1) (some indent) 0 [] c
      blockLines folds began indent n blank (text ++ joint ++ trail ++ line) lead' trail' c

/-- A block scalar. `outer` is the indentation of what it stands in, if there is any. -/
def blockScalar (folds : Bool) (outer : Option Nat) (c : Cursor) :
    Except Fault (List Char × Cursor) := do
  let began := c.mark
  let (chomping, digit, c) ← blockHead began c.skip
  let c := (c.skipRun isBlank).skipComment
  if !isBreakOrEnd c.peek then
    c.fault (.scanning "a block scalar") began (.missing "comment or line break")
  else
    let c := c.skipBreak
    let given := digit.map fun d => outer.getD 0 + d
    let least := match outer with | some k => k + 1 | none => 1
    let (indent, trail, c) ← blockBreaks began least (c.rest.length + 1) given 0 [] c
    let (text, lead, trail, c) ←
      blockLines folds began indent (c.rest.length + 1) false [] [] trail c
    let tail := match chomping with
      | .strip => []
      | .clip => lead
      | .keep => lead ++ trail
    pure (text ++ tail, c)

end LogHygiene.Yaml
