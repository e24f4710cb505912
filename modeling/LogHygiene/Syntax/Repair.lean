import LogHygiene.Syntax.Mending

/-!
# Mending broken text

A text that no rule fits is read with **repairs** that make it fit. Two kinds are weighed. A *missing*
word closes what is open. A *fault* takes the place of a stretch: some of the pieces understood last,
some of the words behind them, or both.

**The word that decides.** A fault ends in front of a word that can go on from the place where the fault
starts. For each such word only one start is considered, the nearest; so the stretch in front of it is
as short as it can be.

**A race.** Where a reading is stuck, the ways past the place start one after the other: a missing word
first, then a fault in front of each of the words behind the place. All that are under way take the
words in step. One that is stuck again drops out while others go on; one that costs much more than
another gives up after a while; and no new ones start when a cheaper one has come as far. What gets
through to the end, or furthest, is where reading goes on.
-/

set_option autoImplicit false

namespace LogHygiene.Syntax

namespace Mending

/-! ## What repairs cost -/

/-- What any repair costs. -/
def repairCost : Nat := 500

/-- What a word costs that the text lacks. -/
def missingCost : Nat := repairCost + 110

/-- What a fault costs: each piece in it, each byte and each line it reaches into. -/
def faultCost (pieces : List Node) : Nat :=
  match pieces.head?, pieces.getLast? with
  | some first, some last =>
    repairCost + 100 * pieces.length + (last.stop - first.start) +
      30 * (last.span.stop.row - first.span.start.row)
  | _, _ => repairCost

/-- What it has cost so far to pass over words. A single unknown word counts for its length only. -/
def passingCost (words : List Node) : Nat :=
  match words with
  | [w] => if w.kind == .error then faultCost words - 100 else faultCost words
  | _ => faultCost words

/-- One way gives up when another is cheaper and has gone on for some nodes: the difference, once for
each of these, may not come to more than this. -/
def patience : Nat := 1800

/-! ## Attempts -/

/-- A reading with repairs. -/
structure Attempt where
  repairs : Repairs
  cost : Nat
  /-- where the last repair starts -/
  start : Nat
  /-- nodes that the last repair made or that count as made since the one before it -/
  weight : Nat
  /-- how many words were passed over before this attempt took one -/
  born : Nat
  /-- how many nodes there were before the last fault -/
  base : Nat := 0
  /-- the tree, or where the reading is stuck -/
  outcome : Except Edge Node

namespace Attempt

/-- Whether the reading took the word at an offset. -/
def passes (a : Attempt) (offset : Nat) : Bool :=
  match a.outcome with
  | .ok _ => true
  | .error e => offset < e.offset

/-- Whether the text was read to its end. -/
def isDone (a : Attempt) : Bool :=
  match a.outcome with
  | .ok _ => true
  | .error _ => false

/-- The text that the last repair passes over. -/
def passedText (source : Bytes) (a : Attempt) : String :=
  (a.repairs.faults.head?.map (·.tree.text source)).getD ""

/-- Whether `a` is preferred to `b`. Of two that cost the same and pass over the same words, as either
`=` of `x = = 1`, the one that starts later; of other such pairs the one that starts first. -/
def beats (source : Bytes) (a b : Attempt) : Bool :=
  a.cost < b.cost ||
    (a.cost == b.cost &&
      if a.passedText source == b.passedText source then b.start < a.start else a.start < b.start)

/-- The preferred one of some attempts. -/
def best? (source : Bytes) : List Attempt → Option Attempt
  | [] => none
  | a :: rest =>
    match best? source rest with
    | none => some a
    | some b => if a.beats source b then some a else some b

/-- Roughly the nodes made since the last repair, when `n` words behind the place were taken or passed
over. -/
def nodesAfter (a : Attempt) (n : Nat) : Nat := a.weight + (n - a.born) * 4 / 3

end Attempt

/-- Read a text with repairs. -/
def read (m : Mending) (source : Bytes) (repairs : Repairs) : Except Edge Node :=
  match m.file (Reading.ofSource source repairs) with
  | .done n after => .ok (n.adoptAll after.trivia.reverse)
  | .stuck furthest => .error furthest

/-- The attempt without repairs. -/
def plainAttempt (m : Mending) (source : Bytes) : Attempt :=
  { repairs := {}, cost := 0, start := 0, weight := 0, born := 0, outcome := m.read source {} }

/-! ## The place where a reading is stuck -/

/-- What is known about the place where a reading is stuck. -/
structure Impasse where
  /-- what was put together before the place, latest first -/
  pieces : List Piece
  /-- the end of the last piece -/
  edge : Position
  /-- roughly how many nodes there are before the place -/
  size : Nat
  /-- the words behind the place -/
  words : List Node
  /-- how many of these can follow a fault -/
  reach : Nat

namespace Impasse

/-- The nodes before the place, taken apart as far as it goes, latest first. -/
def nodes (i : Impasse) : List Node := Piece.finestOfAll i.pieces

end Impasse

/-- How many words stand before the first one that opens a deeper block. -/
def wordsBeforeBlock (depth : Nat) : Nat → List Node → Nat
  | _, [] => 0
  | row, w :: rest =>
    if row < w.span.start.row && depth < w.span.start.column then 0
    else 1 + wordsBeforeBlock depth w.span.stop.row rest

/-- Roughly the nodes of pieces: the words before their end, with strings as four nodes each, and
whatever holds other nodes. -/
def nodeCount (m : Mending) (text : Reading) (stop : Nat) (pieces : List Piece) : Nat :=
  let nodes := Node.preorderAll (Piece.finestOfAll pieces)
  let strings := nodes.filter (·.kind == .string)
  let words := m.words text.budget ({ text with repairs := {} }.before stop)
  let outside := words.filter fun w => !strings.any (fun s => s.start ≤ w.start && w.stop ≤ s.stop)
  outside.length + 4 * strings.length + (nodes.filter (fun n => !n.children.isEmpty)).length

/-- Look around the place where a reading is stuck. -/
def impasse (m : Mending) (text : Reading) (e : Edge) : Impasse :=
  let ends := (text.repairs.faults.map (·.tree.stop)) ++ (text.repairs.missing.map (·.1))
  let edge := (ends.filter (· ≤ e.offset)).foldl max e.stop
  let edge := (text.upTo edge).pos
  let words := m.words text.budget { text.upTo e.offset with repairs := {} }
  let reach := match words with
    | w :: rest => if m.layout then 1 + wordsBeforeBlock e.depth w.span.stop.row rest else words.length
    | [] => 0
  { pieces := e.pieces, edge, words, reach, size := m.nodeCount text edge.byte e.pieces }

/-- Put a fault among nodes, or into the node around it. -/
def insertFault (f : Node) : List Node → List Node
  | [] => [f]
  | n :: rest =>
    if f.start ≤ n.start then f :: n :: rest
    else if f.start < n.stop then f.adopt n :: rest
    else n :: insertFault f rest

/-- Nodes before an edge, with the faults among them. -/
def withFaults (text : Reading) (edge : Nat) (ns : List Node) : List Node :=
  match ns.head? with
  | none => ns
  | some first =>
    (text.repairs.faults.filter (fun f => first.start ≤ f.tree.start && f.tree.stop ≤ edge)).foldl
      (fun ns f => insertFault f.tree ns) ns

/-! ## The ways past it -/

/-- The fault right in front of an offset, if no piece stands between. -/
def faultUpTo (a : Attempt) (i : Impasse) (start : Nat) : Option Fault :=
  a.repairs.faults.find? fun f =>
    f.tree.stop ≤ start && i.nodes.all (fun n => n.stop ≤ f.tree.start || start ≤ n.start)

/-- The attempt with one more fault. It grows together with a fault right in front of it. -/
def withFault (m : Mending) (source : Bytes) (a : Attempt) (i : Impasse)
    (passed : Nat) (pieces : List Node) : Option Attempt := do
  let start := (← pieces.head?).start
  let joined := faultUpTo a i start
  let pieces := (joined.map (·.tree.children)).getD [] ++ pieces
  let first ← pieces.head?
  let last ← pieces.getLast?
  let spared := (joined.map (fun f => faultCost f.tree.children)).getD 0
  let rest := a.repairs.outside first.start last.stop
  let fault : Fault := ⟨.mk .error .none ⟨first.span.start, last.span.stop⟩ pieces, 0 < passed⟩
  let repairs := { rest with faults := fault :: rest.faults }
  some { repairs, cost := a.cost - spared + faultCost pieces, start := first.start,
         weight := if joined.isSome then passed else passed + 1, born := passed, base := i.size,
         outcome := m.read source repairs }

/-- How many pieces a fault may take back. -/
def memory : Nat := 15

/-- Whether repairs let the word `target` be taken, or the text be read to its end. A word that was
found where the reading is stuck was no keyword there; so it is taken as a name. -/
def helps (m : Mending) (source : Bytes) (b : Attempt) (asName : Bool) (target : Option Node) : Bool :=
  match target with
  | some w =>
    b.passes w.start &&
      (!asName || !m.keywords.contains (w.text source) ||
        match m.read source { b.repairs with plain := some w.start } with
        | .ok _ => true
        | .error e => w.start < e.offset)
  | none => b.isDone

/-- Whether a way that would cost so much is not worth a start next to one under way, which made `n`
nodes more or less. -/
def Attempt.outdoes (rival : Attempt) (n cost : Nat) : Bool :=
  rival.cost < cost && patience < (cost - rival.cost) * (1 + rival.nodesAfter n)

/-- The fault in front of the word `target`, or of the end of the text, with the words `skipped` in it:
the shortest that lets the word be taken. It starts at no place that `closed` holds of, and where
one of the `rivals` is under way, at no place too far back. -/
def faultBefore (m : Mending) (source : Bytes) (a : Attempt) (text : Reading) (i : Impasse)
    (rivals : List Attempt) (closed : Cut → Bool) (skipped : List Node) (target : Option Node) :
    Option Attempt :=
  let here : Cut := ⟨i.pieces, [], 0⟩
  let far := Piece.cutsAmong [] [] 0 i.pieces
  let all := if skipped.isEmpty then far else here :: far
  let stop := (skipped.getLast?.map (·.span.stop)).getD i.edge
  let spent := a.cost + passingCost skipped
  all.findSome? fun c =>
    let cost := spent + 100 * (c.count + 1) + (stop.byte - c.place.byte) + 30 * (stop.row - c.place.row)
    if memory < c.count || closed c || rivals.any (·.outdoes skipped.length cost) then none
    else do
      let b ← m.withFault source a i skipped.length (withFaults text i.edge.byte c.behind ++ skipped)
      if m.helps source b skipped.isEmpty target then some b else none

/-- The missing word at the place, if one helps: a name or something that closes. -/
def missingWord (m : Mending) (source : Bytes) (a : Attempt) (i : Impasse) : Option Attempt :=
  ("" :: m.closers).findSome? fun word =>
    let repairs := { a.repairs with missing := (i.edge.byte, word) :: a.repairs.missing }
    let b : Attempt :=
      { repairs, cost := a.cost + missingCost, start := i.edge.byte, weight := i.size - a.base + 1,
        born := 0, base := a.base, outcome := m.read source repairs }
    if m.helps source b true i.words.head? then some b else none

/-! ## Places of one sort -/

/-- What a node is as far as it decides what can come behind it. -/
def sortOf : Kind → Kind
  | .call | .member | .identifier | .string | .parenthesized | .awaited | .typeCast | .typeCheck
  | .nonNull | .construction | .assignment | .tuple | .list | .subscript | .objectPattern
  | .arrayPattern => .expression
  | .importStatement | .importFrom | .importFuture | .exportStatement | .expressionStatement
  | .lexicalDeclaration | .variableDeclaration | .functionDeclaration | .classDeclaration
  | .decorated => .statement
  | k => k

/-- Whether the same can come behind two rows of pieces, latest first, before the words `v` and `w`. -/
def isAlike (m : Mending) (v w : String) : List Piece → List Piece → Bool
  | p :: ps, q :: qs =>
    let sort (p : Piece) : Option Kind := p.nodes.getLast?.map (sortOf ·.kind)
    sort p == sort q && p.start == q.start && ps.map Piece.start == qs.map Piece.start &&
      (sort p != some .expression || m.grip v == m.grip w)
  | _, _ => false

/-- What is put together in front of the word at an offset, when repairs let it be taken. -/
def piecesBefore (m : Mending) (source : Bytes) (repairs : Repairs) (offset : Nat) : List Piece :=
  match m.file ((Reading.ofSource source repairs).before offset) with
  | .stuck e => e.pieces
  | .done _ _ => []

/-- Whether a fault from a place on would leave a missing word's place: then the missing word is all
that is tried. -/
def isTakenBy (m : Mending) (source : Bytes) (i : Impasse) (missing : Option Attempt) : Cut → Bool :=
  match missing, i.words.head? with
  | some b, some w =>
    let pieces := m.piecesBefore source b.repairs w.start
    fun c => m.isAlike ((c.behind.head?.map (·.text source)).getD "") (w.text source) c.before pieces
  | _, _ => fun _ => false

/-- Whether a word opens something that the reader of words remembers. -/
def opensString (m : Mending) (source : Bytes) (w : Node) : Bool :=
  m.layout && ["'", "\""].any (fun q => q.toList.isSuffixOf (w.text source).toList)

/-- Those of the ways under way that do not give up, when `n` words were taken or passed over. -/
def persisting (n : Nat) (going : List Attempt) : List Attempt :=
  going.filter fun b =>
    !going.any (fun c => c.cost < b.cost && patience < (b.cost - c.cost) * (1 + c.nodesAfter n))

/-- Go on from the word with the index `k`. `passing` says whether words are still passed over. The
first two words are passed over and looked at before any way goes on, the others behind the ways that
took them. -/
def race (m : Mending) (source : Bytes) (a : Attempt) (text : Reading) (i : Impasse)
    (closed : Cut → Bool) : Nat → Nat → Bool → List Attempt → Option Attempt
  | 0, _, _, running => Attempt.best? source running
  | n + 1, k, passing, running =>
    match i.words[k]? with
    | none =>
      let last :=
        if passing then (m.faultBefore source a text i [] (fun _ => false) i.words none).toList else []
      let arriving := running ++ last
      (Attempt.best? source (arriving.filter (·.isDone))).or (Attempt.best? source arriving)
    | some w =>
      let taken := running.filter (·.passes w.start)
      let rivals := if k == 0 then running else if k == 1 then [] else taken
      let starting :=
        if passing && k < i.reach then
          let closed := if k == 0 then closed else fun _ => false
          (m.faultBefore source a text i rivals closed (i.words.take k) (some w)).toList
        else []
      let going := persisting (k + 1) (taken ++ starting)
      let cost := a.cost + passingCost (i.words.take (k + 1))
      let next := a.cost + passingCost (i.words.take k) + 100 + (w.stop - w.start)
      let passing := passing && (k == 0 || !going.any (·.cost < cost)) &&
        !(rivals ++ if k == 0 then starting else []).any (·.outdoes k next) &&
        !(!starting.isEmpty && m.opensString source w)
      if going.isEmpty && !passing then Attempt.best? source (running ++ starting)
      else m.race source a text i closed n (k + 1) passing going

/-- The way past the place where an attempt is stuck. -/
def wayPast (m : Mending) (source : Bytes) (a : Attempt) (e : Edge) : Option Attempt :=
  let text := Reading.ofSource source a.repairs
  let i := m.impasse text e
  let missing := m.missingWord source a i
  m.race source a text i (m.isTakenBy source i missing) (i.words.length + 1) 0 true missing.toList

/-- Follow an attempt to the end of the text, past at most `n` places. -/
def follow (m : Mending) (source : Bytes) : Nat → Attempt → Attempt
  | 0, a => a
  | n + 1, a =>
    match a.outcome with
    | .ok _ => a
    | .error e =>
      match m.wayPast source a e with
      | some b => m.follow source n b
      | none => a

/-- The tree of a text of which nothing fits: one fault. -/
def unreadable (m : Mending) (source : Bytes) : Node :=
  let text := Reading.ofSource source {}
  let whole : Span := ⟨.zero, (text.upTo source.length).pos⟩
  let pieces := m.words text.budget text
  let inside : Span := match pieces.head?, pieces.getLast? with
    | some first, some last => ⟨first.span.start, last.span.stop⟩
    | _, _ => whole
  .mk .file .none whole [.mk .error .none inside pieces]

/-- How many places are mended before a text is given up. -/
def places : Nat := 100

/-- The tree of a text, mended where it has to be. -/
def tree (m : Mending) (source : Bytes) : Node :=
  match (m.follow source places (m.plainAttempt source)).outcome with
  | .ok n => n
  | .error _ => m.unreadable source

end Mending

end LogHygiene.Syntax
