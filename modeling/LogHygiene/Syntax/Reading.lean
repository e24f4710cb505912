import LogHygiene.Syntax.Node

/-!
# Reading a grammar off a text

A **rule** reads a stretch of text and answers with what it read and the place after it, or says that it
is **stuck**. A rule that is stuck consumes nothing, so another rule can be tried at the same place;
the furthest place at which any rule was stuck is kept through all of that, since it is where the
text stops making sense.

Four decisions carry everything else:

* **The place is the end of the last word.** Blanks and comments before the next word are passed only
  when that word is taken. So a node ends where its last word ends, and whether a line ends here can
  always be asked of the text itself.
* **Trivia are kept apart.** Comments that were passed are gathered in the reading, and hung into the
  finished tree by `Node.adoptAll`.
* **What is unfinished is known in pieces.** Every word that is taken is a piece, and every node that is
  finished takes the place of its pieces. So where a rule is stuck, the pieces say what had been put
  together, and how it could be taken apart again.
* **A repair is part of the input.** A word that the text lacks, or a stretch that fits no rule, is
  written into `Repairs` before reading; the rules then read the repaired text and mark the places.
  Reading itself never guesses.
-/

set_option autoImplicit false

namespace LogHygiene.Syntax

/-- A stretch that is passed over because it fits no rule. -/
structure Fault where
  /-- the node that takes its place, with what could be made out in the stretch -/
  tree : Node
  /-- whether the word behind the stretch is a keyword wherever it is spelled like one -/
  strict : Bool
  deriving Repr, Inhabited

/-- Where the text departs from the grammar. -/
structure Repairs where
  /-- words that the text lacks, and the offset at which each is read -/
  missing : List (Nat × String) := []
  /-- stretches that are passed over -/
  faults : List Fault := []
  /-- a word that counts as a name even where a keyword could stand -/
  plain : Option Nat := none
  deriving Repr, Inhabited

/-- Repairs without those inside a stretch; a word that is missing right before it stays. -/
def Repairs.outside (rs : Repairs) (start stop : Nat) : Repairs :=
  { rs with
    missing := rs.missing.filter (fun (n, _) => n ≤ start || stop < n)
    faults := rs.faults.filter (fun f => f.tree.start < start || stop ≤ f.tree.start) }

/-! ## Pieces -/

/-- Something that was put together: a node, or a row of nodes that no node holds yet. A piece whose end
could still grow knows the pieces it is made of, latest first. -/
inductive Piece where
  | mk (nodes : List Node) (parts : List Piece)
  deriving Repr, Inhabited

namespace Piece

/-- The nodes of a piece. -/
def nodes : Piece → List Node
  | mk ns _ => ns

/-- What a piece that could still grow is made of. -/
def parts : Piece → List Piece
  | mk _ ps => ps

/-- The first byte of a piece. -/
def start (p : Piece) : Nat := (p.nodes.head?.map Node.start).getD 0

/-- The place behind a piece. -/
def stop (p : Piece) : Position := (p.nodes.getLast?.map (·.span.stop)).getD .zero

/-- The piece as one that can grow no more. -/
def settled (p : Piece) : Piece := mk p.nodes []

mutual

/-- The nodes of a piece, taken apart as far as it goes, latest first. -/
def finest : Piece → List Node
  | mk ns [] => ns.reverse
  | mk _ (p :: ps) => finest p ++ finestOfAll ps

/-- The nodes of a row of pieces, taken apart as far as it goes. -/
def finestOfAll : List Piece → List Node
  | [] => []
  | p :: ps => finest p ++ finestOfAll ps

end

end Piece

/-- A place between pieces. -/
structure Cut where
  /-- the pieces before it, latest first -/
  before : List Piece
  /-- the nodes behind it in order -/
  behind : List Node
  /-- how many pieces these nodes come from -/
  count : Nat
  deriving Repr, Inhabited

mutual

/-- The places inside a piece, where `outer` stands before it and `count` pieces with the nodes `behind`
come behind it. -/
def Piece.cuts (outer : List Piece) (behind : List Node) (count : Nat) : Piece → List Cut
  | .mk ns parts =>
    (Piece.cutsAmong outer behind count parts).filter
      (fun c => (c.behind.head?.map Node.start) != (ns.head?.map Node.start))

/-- The places between and inside pieces, the latest first. Behind a place everything is put together
as far as it goes. -/
def Piece.cutsAmong (outer : List Piece) (behind : List Node) (count : Nat) : List Piece → List Cut
  | [] => []
  | p :: ps =>
    Piece.cuts (ps ++ outer) behind count p ++
      ⟨ps ++ outer, p.nodes ++ behind, count + 1⟩ ::
        Piece.cutsAmong outer (p.nodes ++ behind) (count + 1) ps

end

/-- The end of what stands before a place. -/
def Cut.place (c : Cut) : Position := (c.before.head?.map Piece.stop).getD .zero

/-- How far reading got, and what had been put together by then. -/
structure Edge where
  /-- the offset of the word at which a rule was stuck -/
  offset : Nat := 0
  /-- the end of the word before -/
  stop : Nat := 0
  /-- what had been put together, latest first -/
  pieces : List Piece := []
  /-- how far in the innermost block stands -/
  depth : Nat := 0
  deriving Repr, Inhabited

/-- The further one of two edges, the first if neither is. -/
def Edge.further (a b : Edge) : Edge := if a.offset < b.offset then b else a

/-! ## Readings -/

/-- A place in a text, with what was gathered on the way there. -/
structure Reading where
  rest : List Glyph
  pos : Position
  /-- trivia and faults passed so far, latest first -/
  trivia : List Node
  /-- what has been put together so far, latest first -/
  pieces : List Piece := []
  /-- the open levels of indentation, innermost first -/
  indents : List Nat
  /-- the furthest place at which a rule was stuck -/
  furthest : Edge := {}
  /-- more than the number of steps any loop over this text can take -/
  budget : Nat
  repairs : Repairs
  /-- where the last repair was made -/
  mended : Option Nat := none
  /-- whether the text was cut off, so that its end is no end of a line -/
  cut : Bool := false
  /-- whether a bracket is open that has to be closed before anything can end with its line -/
  enclosed : Bool := false
  deriving Inhabited

namespace Reading

/-- The top of a file. -/
def ofSource (source : Bytes) (repairs : Repairs) : Reading :=
  let gs := source.glyphs
  { rest := gs, pos := .zero, trivia := [], indents := [0], budget := gs.length + 2, repairs }

/-- The next character; the replacement character at an undecodable byte. -/
def peek? (r : Reading) : Option Char := r.rest.head?.map Glyph.char

/-- The next character, or NUL at the end. -/
def peek (r : Reading) : Char := (r.peek?).getD '\x00'

/-- The character after the next. -/
def peekSecond (r : Reading) : Char := ((r.rest[1]?).map Glyph.char).getD '\x00'

/-- Past one glyph. -/
def step (r : Reading) : Reading :=
  match r.rest with
  | [] => r
  | g :: rest => { r with rest, pos := r.pos.advance g }

/-- Past `n` glyphs. -/
def steps (r : Reading) : Nat → Reading
  | 0 => r
  | n + 1 => r.step.steps n

/-- The glyphs and the place after the longest run that `p` holds of. -/
def runEnd (p : Glyph → Bool) : List Glyph → Position → List Glyph × Position
  | [], pos => ([], pos)
  | g :: rest, pos => if p g then runEnd p rest (pos.advance g) else (g :: rest, pos)

/-- Past the longest run of glyphs that `p` holds of. -/
def passWhile (p : Glyph → Bool) (r : Reading) : Reading :=
  let (rest, pos) := runEnd p r.rest r.pos
  { r with rest, pos }

/-- Whether the text goes on with these characters. -/
def startsWith (r : Reading) (cs : List Char) : Bool :=
  match cs, r.rest with
  | [], _ => true
  | c :: cs, g :: gs => g.char == c && startsWith { r with rest := gs } cs
  | _ :: _, [] => false

/-- The first glyphs of a row, as many as fit into a number of bytes. -/
def takeBytes : List Glyph → Nat → List Glyph
  | [], _ => []
  | g :: gs, n => if n < g.width then [] else g :: takeBytes gs (n - g.width)

/-- The characters from here up to the place of a later reading. -/
def charsUpTo (r later : Reading) : List Char :=
  (takeBytes r.rest (later.pos.byte - r.pos.byte)).map Glyph.char

/-- Note a piece of trivia that reaches from one reading to another. -/
def withTrivia (r : Reading) (kind : Kind) (start : Position) : Reading :=
  { r with trivia := .mk kind .none ⟨start, r.pos⟩ [] :: r.trivia }

/-- Past the glyphs up to an offset. -/
def upTo (r : Reading) (offset : Nat) : Reading :=
  let rec go : List Glyph → Position → List Glyph × Position
    | [], pos => ([], pos)
    | g :: gs, pos => if offset < pos.byte + g.width then (g :: gs, pos) else go gs (pos.advance g)
  let (rest, pos) := go r.rest r.pos
  { r with rest, pos }

/-- The reading of the text before an offset, cut off there. -/
def before (r : Reading) (offset : Nat) : Reading :=
  { r with rest := takeBytes r.rest (offset - r.pos.byte), cut := true }

/-- The fault that stands here, if there is one. -/
def fault? (r : Reading) : Option Fault :=
  r.repairs.faults.find? (fun f => f.tree.start == r.pos.byte && f.tree.start < f.tree.stop)

/-- Past the fault that stands here, if there is one. -/
def passFault (r : Reading) : Option Reading :=
  r.fault?.map fun f =>
    { r.upTo f.tree.stop with trivia := f.tree :: r.trivia, mended := some f.tree.stop }

/-- The earlier of a later place and the first fault on the way there. -/
def upToFault (r later : Reading) : Reading :=
  let starts := (r.repairs.faults.map (·.tree.start)).filter
    (fun n => r.pos.byte ≤ n && n < later.pos.byte)
  match starts.min? with
  | some n => r.upTo n
  | none => later

/-- Take a word that the text lacks and repairs put here. -/
def takeMissing (word : String) (r : Reading) : Option Reading :=
  let gap := (r.pos.byte, word)
  if r.repairs.missing.contains gap then
    some { r.withTrivia .missing r.pos with
      repairs := { r.repairs with missing := r.repairs.missing.erase gap }
      mended := some r.pos.byte }
  else none

/-- Whether repairs put a name here. -/
def lacksName (r : Reading) : Bool := r.repairs.missing.contains (r.pos.byte, "")

/-- How the text looks in front of a name that it lacks: what comes next is nothing that any rule asks for, and takes
no room. -/
def gap (r : Reading) : Reading := { r with rest := [⟨'\x01', 0⟩] }

/-- Whether a repair stands between the last word and a later place, so that nothing ends there. -/
def isJoined (r later : Reading) : Bool :=
  later.mended.any (fun m => r.pos.byte ≤ m && m ≤ later.pos.byte)

/-- Whether the word that starts here counts as a name. -/
def isPlain (r : Reading) : Bool := r.repairs.plain == some r.pos.byte

/-- Whether the word at a later place stands behind a fault that leaves keywords no other reading. -/
def isStrict (r later : Reading) : Bool :=
  r.repairs.faults.any fun f =>
    f.strict && r.pos.byte ≤ f.tree.start && f.tree.stop ≤ later.pos.byte

/-- The pieces, of which the latest can grow no more. -/
def settledPieces (r : Reading) : List Piece :=
  match r.pieces with
  | p :: rest => p.settled :: rest
  | [] => []

/-- The reading with one more piece. -/
def push (n : Node) (r : Reading) : Reading :=
  { r with pieces := .mk [n] [] :: r.settledPieces }

/-- The reading with nodes put together from the pieces behind a place. What was put together can grow
if the last of the pieces can, or if `grows` says so. Nodes that take no room are no piece. -/
def gather (grows : Bool) (start : Position) (nodes : List Node) (r : Reading) : Reading :=
  if start.byte == r.pos.byte then r
  else
    let behind (p : Piece) : Bool := start.byte ≤ p.start
    let parts := match r.pieces.takeWhile behind with
      | [p] => p.parts
      | p :: ps => if grows || !p.parts.isEmpty then p :: ps else []
      | [] => []
    { r with pieces := .mk nodes parts :: r.pieces.dropWhile behind }

/-- How things stand if the word at an offset fits no rule. -/
def edge (r : Reading) (offset : Nat) : Edge :=
  { offset, stop := min r.pos.byte offset, pieces := r.pieces, depth := r.indents.headD 0 }

end Reading

/-- How reading ends: with a result and the place after it, or stuck. -/
inductive Outcome (α : Type) where
  | done (value : α) (after : Reading)
  | stuck (furthest : Edge)

/-- A piece of grammar. -/
def Rule (α : Type) := Reading → Outcome α

namespace Rule

variable {α β : Type}

instance : Monad Rule where
  pure a := fun r => .done a r
  bind p f := fun r =>
    match p r with
    | .done a r' => f a r'
    | .stuck e => .stuck e

/-- Stuck at the place `at` of the text. -/
def stuckAt (offset : Nat) : Rule α := fun r => .stuck (r.furthest.further (r.edge offset))

/-- Stuck here. -/
def stuck : Rule α := fun r => .stuck (r.furthest.further (r.edge r.pos.byte))

/-- Read `p`, or `q` from the same place when `p` is stuck. -/
def orElse (p : Rule α) (q : Unit → Rule α) : Rule α := fun r =>
  match p r with
  | .done a r' => .done a r'
  | .stuck e => q () { r with furthest := r.furthest.further e }

instance : OrElse (Rule α) := ⟨orElse⟩

/-- As `orElse`; but when both came as far, `q` says what had been put together. -/
def orElseAsFar (p q : Rule α) : Rule α := fun r =>
  match p r with
  | .done a r' => .done a r'
  | .stuck e =>
    match q r with
    | .done a r' => .done a { r' with furthest := r'.furthest.further e }
    | .stuck e' => .stuck (e'.further e)

/-- The reading at this place. -/
def reading : Rule Reading := fun r => .done r r

/-- Go to a place that was worked out. -/
def goTo (r : Reading) : Rule Unit := fun old =>
  .done () { r with furthest := r.furthest.further old.furthest }

/-- Read `p` with brackets open around it or with none. -/
def within (enclosed : Bool) (p : Rule α) : Rule α := fun r =>
  match p { r with enclosed } with
  | .done a r' => .done a { r' with enclosed := r.enclosed }
  | .stuck e => .stuck e

/-- Read `p` between brackets, where nothing ends with its line. -/
def enclosed (p : Rule α) : Rule α := within true p

/-- Read `p` where things can end with their lines again. -/
def exposed (p : Rule α) : Rule α := within false p

/-- Go on only if `b` holds. -/
def require (b : Bool) : Rule Unit := if b then pure () else stuck

/-- Ask `p` only if `b` holds. -/
def onlyIf (b : Bool) (p : Rule Bool) : Rule Bool := if b then p else pure false

/-- `p`, or nothing when it is stuck. -/
def optional (p : Rule α) : Rule (Option α) :=
  (some <$> p) <|> pure none

/-- The rows of results of `p`, as long as it goes on; at most `n` times. -/
def manyUpTo (p : Rule (Option α)) : Nat → Rule (List α)
  | 0 => stuck
  | n + 1 => do
    match ← p with
    | none => pure []
    | some a => do
      let rest ← manyUpTo p n
      pure (a :: rest)

/-- Repeat `p` until it answers `none`. -/
def many (p : Rule (Option α)) : Rule (List α) := fun r => manyUpTo p r.budget r

/-- Repeat `p` on a growing value until it answers `none`; at most `n` times. -/
def iterateUpTo (p : α → Rule (Option α)) : Nat → α → Rule α
  | 0, _ => stuck
  | n + 1, a => do
    match ← p a with
    | none => pure a
    | some a' => iterateUpTo p n a'

/-- Repeat `p` on a growing value until it answers `none`. -/
def iterate (p : α → Rule (Option α)) (a : α) : Rule α := fun r => iterateUpTo p r.budget a r

/-- Take a word that reaches from one place to another. -/
def take (r after : Reading) : Rule Unit := do
  goTo after
  fun now => .done () (now.push (.mk .token .none ⟨r.pos, after.pos⟩ []))

/-- The node of `kind` that reaches from `start` to here. -/
def node (kind : Kind) (start : Position) (children : List Node) : Rule Node := fun r =>
  let n : Node := .mk kind .none ⟨start, r.pos⟩ children
  .done n (r.gather false start [n])

/-- The node of `kind` that reaches from `start` to here, if nothing is added to it. -/
def phrase (kind : Kind) (start : Position) (children : List Node) : Rule Node := fun r =>
  let n : Node := .mk kind .none ⟨start, r.pos⟩ children
  .done n (r.gather true start [n])

/-- Say that what was put together last can grow no more. -/
def settle : Rule Unit := fun r => .done () { r with pieces := r.settledPieces }

/-- Put what stands between `start` and here into one row. -/
def row (grows : Bool) (start : Position) : Rule Unit := fun r =>
  let behind := r.pieces.takeWhile (fun p => start.byte ≤ p.start)
  .done () (r.gather grows start (behind.reverse.flatMap Piece.nodes))

/-- Rows of results, as long as `next` reads one; the pieces they are read from become one row. -/
def rowOf (next : Rule (Option (List α))) : Rule (List α) := do
  let start ← reading
  let groups ← many do
    match ← next with
    | none => pure none
    | some ns =>
      row false start.pos
      pure (some ns)
  pure groups.flatten

/-- A word that the text lacks, where repairs put it. -/
def missing (kind : Kind) : Rule Node := fun r =>
  let n : Node := .mk kind .none ⟨r.pos, r.pos⟩ []
  .done n (r.push n)

end Rule

end LogHygiene.Syntax
