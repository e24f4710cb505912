import LogHygiene.Text.Utf8
import LogHygiene.Yaml.Scalar

/-!
# Tokens of a YAML text

A text is cut into tokens before its structure is read. Blocks have no brackets of their own, so the
tokens give them some: where a line is indented further than the block around it a block begins, and
where it is indented less blocks end.

**A key is only known by the colon behind it.** Where a key may stand its place is remembered, and when
the colon comes the token that announces a key is put in at that place. A place is given up when the
line ends or 1024 characters have passed. For the same reason a text that breaks off shows no token
from the first remembered place on: nobody can tell yet what that token is.
-/

set_option autoImplicit false

namespace LogHygiene.Yaml

/-- What a token is. -/
inductive Lexeme where
  | streamEnd
  | versionDirective (major minor : Nat)
  | tagDirective (handle lead : String)
  | documentStart
  | documentEnd
  | blockSequenceStart
  | blockMappingStart
  | blockEnd
  | flowSequenceStart
  | flowSequenceEnd
  | flowMappingStart
  | flowMappingEnd
  | blockEntry
  | flowEntry
  | key
  | value
  | alias (name : String)
  | anchor (name : String)
  | tag (handle suffix : String)
  | scalar (text : String) (style : Style)
  deriving DecidableEq, Repr, Inhabited

/-- A token and where it stands. -/
structure Token where
  lexeme : Lexeme
  start : Mark
  stop : Mark
  deriving Repr, Inhabited

/-- A place where a key may have begun. -/
structure KeyPlace where
  /-- a block mapping cannot go on without a key here -/
  required : Bool
  /-- how many tokens stand in front -/
  number : Nat
  mark : Mark
  deriving Repr, Inhabited

/-- A text that is being cut into tokens. -/
structure Scanner where
  cursor : Cursor
  tokens : Array Token
  /-- the column of the block around, if there is one -/
  indent : Option Nat
  /-- the columns of the blocks around that -/
  outer : List (Option Nat)
  /-- where a key may have begun: in the innermost flow collection first, outside of all last -/
  keys : List (Option KeyPlace)
  keyAllowed : Bool
  deriving Inhabited

/-- A step that may meet a fault; what was read before it stays. -/
abbrev Scan := ExceptT Fault (StateM Scanner)

namespace Scanner

/-- The top of a text. -/
def ofChars (cs : List Char) : Scanner :=
  { cursor := ⟨cs, .start⟩, tokens := #[], indent := none, outer := [], keys := [none]
    keyAllowed := true }

/-- How many flow collections are open. -/
def flowLevel (s : Scanner) : Nat := s.keys.length - 1

/-- Whether a flow collection is open. -/
def inFlow (s : Scanner) : Bool := s.flowLevel != 0

/-- The place where a key may have begun in the innermost collection. -/
def keyPlace? (s : Scanner) : Option KeyPlace := s.keys.head?.join

/-- Remember where a key may have begun in the innermost collection. -/
def withKeyPlace (s : Scanner) (k : Option KeyPlace) : Scanner := { s with keys := k :: s.keys.drop 1 }

/-- Whether a column lies to the right of the block around. -/
def isInside (s : Scanner) (column : Nat) : Bool :=
  match s.indent with
  | some k => k < column
  | none => true

end Scanner

namespace Scan

/-- The place that is read at. -/
def cursor : Scan Cursor := do pure (← get).cursor

/-- Go on at a place. -/
def goTo (c : Cursor) : Scan Unit := modify fun s => { s with cursor := c }

/-- A fault at the place that is read at. -/
def fail {α : Type} (problem : Problem) (context : Option (Activity × Mark)) : Scan α := do
  throw (.grammar problem (← cursor).mark context)

/-- Run a reader of scalars or words. -/
def lift {α : Type} (r : Except Fault α) : Scan α :=
  match r with
  | .ok a => pure a
  | .error f => throw f

/-- Add a token that reaches up to the place that is read at. -/
def emit (lexeme : Lexeme) (start : Mark) : Scan Unit :=
  modify fun s => { s with tokens := s.tokens.push ⟨lexeme, start, s.cursor.mark⟩ }

/-- Add a token of `width` characters. -/
def emitWord (lexeme : Lexeme) (width : Nat) : Scan Unit := do
  let c ← cursor
  goTo (c.skips width)
  emit lexeme c.mark

/-- Allow a key to begin next, or forbid it. -/
def allowKey (b : Bool) : Scan Unit := modify fun s => { s with keyAllowed := b }

/-! ## Places of keys -/

/-- The activity of looking for the colon behind a key. -/
def simpleKey : Activity := .scanning "a simple key"

/-- Give up the place of a key in the innermost collection. -/
def dropKey : Scan Unit := do
  match (← get).keyPlace? with
  | some k => if k.required then fail (.notFound "':'") (some (simpleKey, k.mark))
  | none => pure ()
  modify (·.withKeyPlace none)

/-- Remember this place if a key may begin here. -/
def saveKey : Scan Unit := do
  let s ← get
  if s.keyAllowed then
    let required := !s.inFlow && s.indent == some s.cursor.mark.column
    dropKey
    modify (·.withKeyPlace (some ⟨required, s.tokens.size, s.cursor.mark⟩))

/-- Whether a key that began at a place can no longer have its colon here. -/
def isStale (k : KeyPlace) (here : Mark) : Bool :=
  k.mark.line < here.line || k.mark.index + 1024 < here.index

/-- Give up the places that are too far back. -/
def dropStaleKeys : Scan Unit := do
  let s ← get
  let here := s.cursor.mark
  -- the outermost collection is looked at first
  let places := s.keys.reverse.filterMap id
  match places.find? fun k => isStale k here && k.required with
  | some k => fail (.notFound "':'") (some (simpleKey, k.mark))
  | none => set { s with keys := s.keys.map (Option.filter fun k => !isStale k here) }

/-! ## Blocks -/

/-- End every block that a column lies to the left of; all of them if there is no column. -/
def unrollTo (column : Option Nat) : Nat → Scan Unit
  | 0 => pure ()
  | n + 1 => do
    let s ← get
    let left := match s.indent, column with
      | none, _ => false
      | some _, none => true
      | some k, some c => decide (c < k)
    if left && !s.inFlow then
      emit .blockEnd s.cursor.mark
      modify fun s => { s with indent := s.outer.head?.join, outer := s.outer.drop 1 }
      unrollTo column n

/-- End every block that a column lies to the left of. -/
def unroll (column : Option Nat) : Scan Unit := do unrollTo column ((← get).outer.length + 1)

/-- Begin a block at a column that lies inside of what is around; its token goes in front of the token
with the given number. -/
def roll (column number : Nat) (lexeme : Lexeme) (mark : Mark) : Scan Unit :=
  modify fun s =>
    if !s.inFlow && s.isInside column then
      { s with
        indent := some column, outer := s.indent :: s.outer
        tokens := s.tokens.insertIdxIfInBounds number ⟨lexeme, mark, mark⟩ }
    else s

/-- Begin a block here. -/
def rollHere (lexeme : Lexeme) : Scan Unit := do
  let s ← get
  roll s.cursor.mark.column s.tokens.size lexeme s.cursor.mark

/-! ## Between tokens -/

/-- Past blanks, comments and line ends. -/
def skipToToken : Nat → Scan Unit
  | 0 => pure ()
  | n + 1 => do
    let s ← get
    let c := s.cursor
    let c := if c.mark.column == 0 && c.peek == '\uFEFF' then c.skip else c
    let tabs := s.inFlow || !s.keyAllowed
    let c := (c.skipRun fun b => b == ' ' || (tabs && b == '\t')).skipComment
    if isBreak c.peek then
      goTo c.skipBreak
      if !s.inFlow then allowKey true
      skipToToken n
    else goTo c

/-! ## Directives -/

/-- The activity of reading a directive. -/
def directiveActivity : Activity := .scanning "a directive"

/-- A number of a version. -/
def versionNumber (began : Mark) : Scan Nat := do
  let context := some (Activity.scanning "a %YAML directive", began)
  let c ← cursor
  let (ds, after) := c.takeRun Char.isDigit
  if ds.isEmpty then fail (.missing "version number") context
  else if ds.length > 9 then
    goTo (c.skips 9)
    fail (.met "extremely long version number") context
  else
    goTo after
    pure (ds.foldl (fun n d => n * 10 + (d.toNat - '0'.toNat)) 0)

/-- The handle of a tag: `!`, or a word between two of them. -/
def tagHandle (directive : Bool) (began : Mark) : Scan (List Char) := do
  let c ← cursor
  if c.peek != '!' then
    fail (.missing "'!'")
      (some (.scanning (if directive then "a tag directive" else "a tag"), began))
  else
    let (word, after) := c.skip.takeRun isWordChar
    if after.peek == '!' then
      goTo after.skip
      pure ('!' :: word ++ ['!'])
    else
      goTo after
      if directive && !word.isEmpty then
        fail (.missing "'!'") (some (.parsing "a tag directive", began))
      else pure ('!' :: word)

/-- Characters of a tag that need no escape. -/
def isTagChar (verbatim : Bool) (c : Char) : Bool :=
  isWordChar c || ";/?:@&=+$.%!~*'()".toList.contains c || (verbatim && ",[]".toList.contains c)

/-- The byte that two hexadecimal digits behind `%` stand for. -/
def escapedByte? (c : Cursor) : Option Nat := do
  let a ← hexDigit? (c.peekAt 1)
  let b ← hexDigit? (c.peekAt 2)
  if c.peek == '%' then pure (a * 16 + b) else none

/-- How many bytes a character has whose first byte is `b`. -/
def leadWidth? (b : Nat) : Option Nat :=
  if b < 0x80 then some 1
  else if b / 32 == 6 then some 2
  else if b / 16 == 14 then some 3
  else if b / 8 == 30 then some 4
  else none

/-- The bytes of one escaped character, `left` of which are still to come. -/
def escapedBytes (context : Option (Activity × Mark)) : Nat → Scan Bytes
  | 0 => pure []
  | left + 1 => do
    match escapedByte? (← cursor) with
    | none => fail .noEscapedByte context
    | some b =>
      if b / 64 != 2 then fail (.met "an incorrect trailing UTF-8 octet") context
      else
        goTo ((← cursor).skips 3)
        pure (UInt8.ofNat b :: (← escapedBytes context left))

/-- The bytes of a tag from here on. -/
def tagBytes (verbatim : Bool) (context : Option (Activity × Mark)) : Nat → Scan Bytes
  | 0 => pure []
  | n + 1 => do
    let c ← cursor
    if !isTagChar verbatim c.peek then pure []
    else if c.peek == '%' then
      match escapedByte? c with
      | none => fail .noEscapedByte context
      | some b =>
        match leadWidth? b with
        | none => fail (.met "an incorrect leading UTF-8 octet") context
        | some width =>
          goTo (c.skips 3)
          let more ← escapedBytes context (width - 1)
          pure (UInt8.ofNat b :: more ++ (← tagBytes verbatim context n))
    else
      goTo c.skip
      pure (Bytes.ofText (String.singleton c.peek) ++ (← tagBytes verbatim context n))

/-- A tag behind what was read of it; `hasHead` tells whether that was anything. -/
def tagText (verbatim directive hasHead : Bool) (head : List Char) (began : Mark) : Scan String := do
  let context := some (Activity.parsing (if directive then "a %TAG directive" else "a tag"), began)
  let c ← cursor
  let bytes ← tagBytes verbatim context (c.rest.length + 1)
  if bytes.isEmpty && !hasHead then fail (.missing "tag URI") context
  else pure (String.ofList head ++ (bytes.text?).getD "")

/-- A directive. -/
def directive : Scan Unit := do
  unroll none
  dropKey
  allowKey false
  let began := (← cursor).mark
  let context := some (directiveActivity, began)
  goTo (← cursor).skip
  let (name, after) := (← cursor).takeRun isWordChar
  goTo after
  if name.isEmpty then fail (.notFound "directive name") context
  if !isGap after.peek then fail (.met "unexpected non-alphabetical character") context
  let lexeme ← if name == "YAML".toList then
      goTo (after.skipRun isBlank)
      let major ← versionNumber began
      if (← cursor).peek != '.' then
        fail (.missing "digit or '.' character") (some (.scanning "a %YAML directive", began))
      goTo (← cursor).skip
      let minor ← versionNumber began
      pure (Lexeme.versionDirective major minor)
    else if name == "TAG".toList then
      let tagContext := some (Activity.scanning "a %TAG directive", began)
      goTo (after.skipRun isBlank)
      let handle ← tagHandle true began
      if !isBlank (← cursor).peek then fail (.missing "whitespace") tagContext
      goTo ((← cursor).skipRun isBlank)
      let lead ← tagText true true false [] began
      if !isGap (← cursor).peek then fail (.missing "whitespace or line break") tagContext
      pure (Lexeme.tagDirective (String.ofList handle) lead)
    else fail (.met "unknown directive name") context
  emit lexeme began
  let c := ((← cursor).skipRun isBlank).skipComment
  goTo c
  if !isBreakOrEnd c.peek then fail (.missing "comment or line break") context
  goTo c.skipBreak

/-! ## Words -/

/-- The name behind `&` or `*`. -/
def anchorName (what : String) : Scan String := do
  let began := (← cursor).mark
  let (name, after) := (← cursor).skip.takeRun isWordChar
  goTo after
  let ends := isGap after.peek || "?:,]\x7d%@\x60".toList.contains after.peek
  if name.isEmpty || !ends then
    fail (.missing "alphabetic or numeric character") (some (.scanning what, began))
  else pure (String.ofList name)

/-- The handle and the suffix of a tag. -/
def tagParts : Scan (String × String) := do
  let c ← cursor
  let began := c.mark
  if c.peekAt 1 == '<' then
    goTo (c.skips 2)
    let suffix ← tagText true false false [] began
    if (← cursor).peek != '>' then fail .unclosedTag (some (.scanning "a tag", began))
    goTo (← cursor).skip
    pure ("", suffix)
  else
    let handle ← tagHandle false began
    if handle.length > 1 && handle.getLast? == some '!' then
      let suffix ← tagText false false false [] began
      pure (String.ofList handle, suffix)
    else
      let suffix ← tagText false false true (handle.drop 1) began
      pure (if suffix == "" then ("", "!") else ("!", suffix))

/-- A tag. -/
def tag : Scan Unit := do
  saveKey
  allowKey false
  let began := (← cursor).mark
  let (handle, suffix) ← tagParts
  let s ← get
  let ends := (s.inFlow && s.cursor.peek == ',') || isGap s.cursor.peek
  if !ends then
    fail (.missing "whitespace or line break") (some (.scanning "a tag", began))
  emit (.tag handle suffix) began

/-- A name that is given or referred to. -/
def anchor (what : String) (lexeme : String → Lexeme) : Scan Unit := do
  saveKey
  allowKey false
  let began := (← cursor).mark
  let name ← anchorName what
  emit (lexeme name) began

/-- A block scalar. -/
def blockScalar (folds : Bool) : Scan Unit := do
  dropKey
  allowKey true
  let s ← get
  let (text, after) ← lift (Yaml.blockScalar folds s.indent s.cursor)
  goTo after
  emit (.scalar (String.ofList text) (if folds then .folded else .literal)) s.cursor.mark

/-- A quoted scalar. -/
def quotedScalar (single : Bool) : Scan Unit := do
  saveKey
  allowKey false
  let c ← cursor
  let (text, after) ← lift (Yaml.quotedScalar single c)
  goTo after
  emit (.scalar (String.ofList text) (if single then .singleQuoted else .doubleQuoted)) c.mark

/-- A plain scalar. -/
def plainScalar : Scan Unit := do
  saveKey
  allowKey false
  let s ← get
  let inside := match s.indent with | some k => k + 1 | none => 0
  let (read, after) ← lift (Yaml.plainScalar s.inFlow inside s.cursor)
  goTo after
  emit (.scalar (String.ofList read.text) .plain) s.cursor.mark
  if read.endsLine then allowKey true

/-! ## Signs -/

/-- The end of the text: a line ends here, and with it every block. -/
def streamEnd : Scan Unit := do
  let c ← cursor
  if c.mark.column != 0 then goTo { c with mark := ⟨c.mark.index, c.mark.line + 1, 0⟩ }
  unroll none
  dropKey
  allowKey false
  emitWord .streamEnd 0

/-- A line that marks the border of a document. -/
def documentMark (lexeme : Lexeme) : Scan Unit := do
  unroll none
  dropKey
  allowKey false
  emitWord lexeme 3

/-- The opening bracket of a flow collection. -/
def flowStart (lexeme : Lexeme) : Scan Unit := do
  saveKey
  modify fun s => { s with keys := none :: s.keys }
  allowKey true
  emitWord lexeme 1

/-- The closing bracket of a flow collection. -/
def flowEnd (lexeme : Lexeme) : Scan Unit := do
  dropKey
  modify fun s => if s.inFlow then { s with keys := s.keys.drop 1 } else s
  allowKey false
  emitWord lexeme 1

/-- The comma between entries of a flow collection. -/
def flowEntry : Scan Unit := do
  dropKey
  allowKey true
  emitWord .flowEntry 1

/-- The dash in front of an entry of a block sequence. -/
def blockEntry : Scan Unit := do
  let s ← get
  if !s.inFlow then
    if !s.keyAllowed then fail (.misplaced "block sequence entries") none
    rollHere .blockSequenceStart
  dropKey
  allowKey true
  emitWord .blockEntry 1

/-- The question mark in front of a key. -/
def key : Scan Unit := do
  let s ← get
  if !s.inFlow then
    if !s.keyAllowed then fail (.misplaced "mapping keys") none
    rollHere .blockMappingStart
  dropKey
  allowKey (!s.inFlow)
  emitWord .key 1

/-- The colon in front of a value. It settles where its key began. -/
def value : Scan Unit := do
  let s ← get
  match s.keyPlace? with
  | some k =>
    modify fun s =>
      { s with tokens := s.tokens.insertIdxIfInBounds k.number ⟨.key, k.mark, k.mark⟩ }
    roll k.mark.column k.number .blockMappingStart k.mark
    modify (·.withKeyPlace none)
    allowKey false
  | none =>
    if !s.inFlow then
      if !s.keyAllowed then fail (.misplaced "mapping values") none
      rollHere .blockMappingStart
    allowKey (!s.inFlow)
  emitWord .value 1

/-! ## The next token -/

/-- Whether a plain scalar can start with `c` in front of `next`. -/
def startsPlain (inFlow : Bool) (c next : Char) : Bool :=
  !(isGap c || "-?:,[]\x7b\x7d#&*!|>'\"%@\x60".toList.contains c) ||
    (c == '-' && !isBlank next) ||
    (!inFlow && (c == '?' || c == ':') && !isGap next)

/-- Read one token, with the ends of blocks in front of it. Answers whether more can follow. -/
def next : Scan Bool := do
  dropStaleKeys
  skipToToken ((← cursor).rest.length + 1)
  dropStaleKeys
  unroll (some (← cursor).mark.column)
  let s ← get
  let c := s.cursor
  let atLineStart := c.mark.column == 0
  if c.rest.isEmpty then
    streamEnd
    return false
  if atLineStart && c.peek == '%' then directive
  else if c.atDocumentMark then
    documentMark (if c.peek == '-' then .documentStart else .documentEnd)
  else if c.peek == '[' then flowStart .flowSequenceStart
  else if c.peek == '\x7b' then flowStart .flowMappingStart
  else if c.peek == ']' then flowEnd .flowSequenceEnd
  else if c.peek == '\x7d' then flowEnd .flowMappingEnd
  else if c.peek == ',' then flowEntry
  else if c.peek == '-' && isGap (c.peekAt 1) then blockEntry
  else if c.peek == '?' && (s.inFlow || isGap (c.peekAt 1)) then key
  else if c.peek == ':' && (s.inFlow || isGap (c.peekAt 1)) then value
  else if c.peek == '*' then anchor "an alias" .alias
  else if c.peek == '&' then anchor "an anchor" .anchor
  else if c.peek == '!' then tag
  else if c.peek == '|' && !s.inFlow then blockScalar false
  else if c.peek == '>' && !s.inFlow then blockScalar true
  else if c.peek == '\'' then quotedScalar true
  else if c.peek == '"' then quotedScalar false
  else if startsPlain s.inFlow c.peek (c.peekAt 1) then plainScalar
  else
    fail (.met "character that cannot start any token")
      (some (.scanning "for the next token", c.mark))
  return true

/-- Read tokens up to the end of the text. -/
def all : Nat → Scan Unit
  | 0 => pure ()
  | n + 1 => do if ← next then all n

end Scan

/-- Characters that a text may hold. -/
def isAllowed (c : Char) : Bool :=
  let n := c.toNat
  n == 0x09 || n == 0x0A || n == 0x0D || (0x20 ≤ n && n ≤ 0x7E) || n == 0x85 ||
    (0xA0 ≤ n && n ≤ 0xD7FF) || (0xE000 ≤ n && n ≤ 0xFFFD) || 0x10000 ≤ n

/-- The bytes in front of the first character that no text may hold. -/
def controlCharacter? (before : Nat) : List Char → Option Nat
  | [] => none
  | c :: rest => if isAllowed c then controlCharacter? (before + c.utf8Size) rest else some before

/-- The tokens of a text, and the fault at which they break off. -/
def tokens (cs : List Char) : List Token × Option Fault :=
  match controlCharacter? 0 cs with
  | some offset => ([], some (.controlCharacter offset))
  | none =>
    match (Scan.all (cs.length + 1)).run (Scanner.ofChars cs) with
    | (.ok _, s) => (s.tokens.toList, none)
    | (.error f, s) =>
      let pending := (s.keys.filterMap id).map (·.number)
      (s.tokens.toList.take (pending.foldl min s.tokens.size), some f)

end LogHygiene.Yaml
