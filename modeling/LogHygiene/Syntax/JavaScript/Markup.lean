import LogHygiene.Syntax.JavaScript.TypeExpression

/-!
# JavaScript: elements in the style of a web page

Between the tags of an element everything is text, apart from braces, further tags and named characters; a
comment sign in the text is text as well. An ampersand that names no character fits nowhere.
-/

set_option autoImplicit false

namespace LogHygiene.Syntax.JavaScript

/-! ## Text -/

/-- Past between one and `most` glyphs that `p` holds of, and the semicolon behind them. -/
def endOfEntity (p : Char → Bool) (most : Nat) (r : Reading) : Option Reading :=
  let s := r.passWhile (fun g => p g.char)
  let n := s.pos.byte - r.pos.byte
  if 0 < n && n ≤ most && s.peek == ';' then some s.step else none

/-- Past the named or numbered character that starts here. -/
def entityEnd (r : Reading) : Option Reading :=
  if r.peek != '&' then none
  else if r.peekSecond == '#' then
    let s := r.steps 2
    if s.peek == 'x' || s.peek == 'X' then endOfEntity isHexDigit 6 s.step
    else endOfEntity Char.isDigit 5 s
  else endOfEntity Char.isAlpha 30 r.step

/-- Past the text of an attribute and the quote that closes it. Line ends may stand in it; an ampersand
that could name a character has to. -/
def passQuoted (quote : Char) : Nat → Reading → Option Reading
  | 0, _ => none
  | n + 1, r =>
    match r.peek? with
    | none => none
    | some c =>
      if c == quote then some r.step
      else if c == '&' then
        match entityEnd r with
        | some s => passQuoted quote n s
        | none =>
          if r.step.rest.isEmpty || r.peekSecond == '#' || r.peekSecond.isAlpha then none
          else passQuoted quote n (r.steps 2)
      else passQuoted quote n r.step

/-- The text of an attribute in quotes. -/
def quotedText : Rule Node := do
  let r ← ahead
  match passQuoted r.peek r.budget r.step with
  | some s =>
    Rule.goTo s
    Rule.node .string r.pos []
  | none => Rule.stuckAt r.pos.byte

/-! ## Names -/

/-- A name, in which hyphens may stand if it is spelled in plain letters. -/
def hyphenated (kind : Kind) : Rule Node := do
  let r ← ahead
  match nameAt r with
  | none => Rule.stuckAt r.pos.byte
  | some (cs, r') =>
    let plain (c : Char) : Bool := c.isAlphanum || c == '_' || c == '$'
    if r'.peek == '-' && cs.all plain then
      Rule.goTo (r'.passWhile (fun g => plain g.char || g.char == '-'))
    else Rule.goTo r'
    Rule.node kind r.pos []

/-- A name, or one behind the name of its namespace. -/
def spacedName (kind : Kind) : Rule Node := do
  let r ← ahead
  let first ← hyphenated kind
  if ← trySign ":" then
    let second ← hyphenated .identifier
    Rule.node .clause r.pos [first.withKind .identifier, second]
  else pure first

/-- The name of an element: a member of something, or a name as in `spacedName`. -/
def tagName : Rule Node := do
  let r ← ahead
  match nameAt r with
  | some (_, r') =>
    Rule.goTo r'
    if r'.peek != '-' && (← atSign ".") then
      let first ← Rule.node .identifier r.pos []
      Rule.iterate (fun n => do
        if ← trySign "." then
          let p ← name .propertyName
          return some (← Rule.node .member n.span.start [n.withRole .object, p.withRole .property])
        else pure none) first
    else
      Rule.goTo r
      spacedName .identifier
  | none => Rule.stuckAt r.pos.byte

/-! ## Elements -/

/-- Something in braces inside an element: an expression, a spread or nothing. -/
def embedded (inner : Inner) : Rule Node := do
  let r ← ahead
  sign "\x7b"
  let children ←
    if ← atSign "\x7d" then pure []
    else if ← atSign "..." then List.singleton <$> argument inner
    else List.singleton <$> inner .expressions
  sign "\x7d"
  Rule.node .clause r.pos children

/-- An attribute; `element` reads an element that stands as its value. -/
def tagAttribute (inner : Inner) (element : Rule Node) : Rule Node := do
  let r ← ahead
  if r.peek == '\x7b' then embedded inner
  else
    let n ← spacedName .propertyName
    if ← trySign "=" then
      let c ← nextChar
      let value ←
        if c == '"' || c == '\'' then quotedText
        else if c == '\x7b' then embedded inner
        else element
      Rule.node .clause r.pos [n, value]
    else Rule.node .clause r.pos [n]

/-- Whether characters between two tags are text. Blanks behind a line end are none. -/
def isText : List Char → Bool
  | [] => false
  | c :: cs => c != '\n' || !cs.all isPlainGap

/-- What stands between two tags. Text never starts right behind a fault: the words there are those of
the code around. -/
def content (inner : Inner) (element : Rule Node) : Rule (List Node) := Rule.rowOf do
  let here ← Rule.reading
  let behindFault := here.mended == some here.pos.byte
  let s := if behindFault then here.passWhile isGap else
    here.upToFault (here.passWhile (fun g => !(['<', '>', '\x7b', '\x7d', '&'].contains g.char)))
  if !behindFault && isText (here.charsUpTo s) then Rule.take here s else Rule.goTo s
  let now ← Rule.reading
  match s.passFault, entityEnd s with
  | some s', _ =>
    Rule.goTo { s' with pieces := now.pieces }
    pure (some [])
  | none, some s' =>
    Rule.goTo { s' with pieces := now.pieces }
    return some [← Rule.node .token s.pos []]
  | none, none =>
    if s.peek == '\x7b' then return some [← embedded inner]
    else if s.startsWith ['<', '/'] then pure none
    else if s.peek == '<' then return some [← element]
    else Rule.stuck

/-- A tag that closes an element. It may leave out the name. -/
def closingTag : Rule (List Node) := do
  sign "</"
  let named ← if ← atSign ">" then pure [] else List.singleton <$> tagName
  sign ">"
  pure named

/-- An element or a fragment, at most `n` deep. -/
def element (d : Dialect) (inner : Inner) : Nat → Rule Node
  | 0 => Rule.stuck
  | n + 1 => do
    let r ← ahead
    sign "<"
    if ← trySign ">" then
      let opening ← Rule.node .clause r.pos []
      let children ← content inner (element d inner n)
      let closing ← closingTag
      Rule.node .expression r.pos (opening :: children ++ closing)
    else
      let tag ← tagName
      let types ←
        if ← Rule.onlyIf d.types (atSign "<") then List.singleton <$> typeArguments inner else pure []
      let attributes ← Rule.rowOf do
        let c ← nextChar
        if c == '>' || c == '/' then pure none
        else return some [← tagAttribute inner (element d inner n)]
      if ← trySign "/>" then Rule.node .expression r.pos (tag :: types ++ attributes)
      else
        sign ">"
        let opening ← Rule.node .clause r.pos (tag :: types ++ attributes)
        let children ← content inner (element d inner n)
        let closing ← closingTag
        Rule.node .expression r.pos (opening :: children ++ closing)

end LogHygiene.Syntax.JavaScript
