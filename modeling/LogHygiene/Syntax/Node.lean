import LogHygiene.Text.Utf8

/-!
# Syntax trees

One tree type serves every language this library reads. A node says **what** it is (`Kind`), **which
part of its parent** it plays (`Role`), **where** it stands (`Span`) and what it is made of. The kinds
and roles name only the distinctions that some rule draws; everything else a grammar may contain is
an `expression`, a `statement` or a `clause`, and what matters of it is its span and its children.

Comments are nodes too. A grammar rule never begins or ends with one, so where a comment belongs
follows from spans alone: it is a child of the innermost node that reaches over it on both sides.
`Node.adopt` puts trivia in their place by that rule, which lets the readers build the tree of the
words first and hang the comments into it afterwards.
-/

set_option autoImplicit false

namespace LogHygiene.Syntax

/-- A place in a file: bytes before it, line ends before it, bytes since the last line end. -/
structure Position where
  byte : Nat
  row : Nat
  column : Nat
  deriving DecidableEq, Repr, Inhabited

namespace Position

/-- The top of a file. -/
def zero : Position := ⟨0, 0, 0⟩

/-- The place just after a glyph. -/
def advance (p : Position) (g : Glyph) : Position :=
  if g.char == '\n' then ⟨p.byte + g.width, p.row + 1, 0⟩
  else ⟨p.byte + g.width, p.row, p.column + g.width⟩

end Position

/-- A stretch of a file, from `start` up to `stop`. -/
structure Span where
  start : Position
  stop : Position
  deriving DecidableEq, Repr, Inhabited

/-- What a node is, as far as some rule tells it apart. -/
inductive Kind where
  /-- the whole file -/
  | file
  | call
  /-- `object.property` -/
  | member
  | identifier
  /-- the name after the dot of a member -/
  | propertyName
  | string
  | parenthesized
  | awaited
  /-- `e as T` -/
  | typeCast
  /-- `e satisfies T` -/
  | typeCheck
  /-- `e!` -/
  | nonNull
  | construction
  | importStatement
  /-- `from m import n` -/
  | importFrom
  /-- `from __future__ import n` -/
  | importFuture
  | aliasedImport
  | exportStatement
  | expressionStatement
  /-- `let` and `const` -/
  | lexicalDeclaration
  /-- `var` -/
  | variableDeclaration
  | declarator
  | functionDeclaration
  | classDeclaration
  /-- a declaration under decorators -/
  | decorated
  | assignment
  | importClause
  | namespaceImport
  | namedImports
  | importSpecifier
  | objectPattern
  | arrayPattern
  | pairPattern
  /-- a name in an object pattern that binds the property of that name -/
  | shorthandPattern
  | patternList
  | tuplePattern
  | listPattern
  | comment
  /-- a line that starts with `#!` -/
  | hashBang
  /-- a comment in the style of a web page -/
  | markupComment
  /-- a backslash at the end of a line -/
  | lineContinuation
  | tuple
  | list
  /-- `key: value` in an object -/
  | pair
  | subscript
  /-- `*e` -/
  | splat
  | expression
  | statement
  | clause
  /-- punctuation and keywords -/
  | token
  /-- text that fits no rule -/
  | error
  /-- a word that a rule needs and the text lacks -/
  | missing
  /-- a line end that a rule needs and the text lacks -/
  | absent
  deriving DecidableEq, Repr, Inhabited

namespace Kind

/-- Words and punctuation are part of the tree but have no name of their own. -/
def isNamed : Kind → Bool
  | token | missing | absent => false
  | _ => true

/-- Whether the kind marks a place where the text breaks the grammar. -/
def isFault : Kind → Bool
  | error | missing => true
  | _ => false

end Kind

/-- The part that a node plays in its parent. -/
inductive Role where
  | none
  | name
  | alias
  | source
  | declaration
  | definition
  | value
  | left
  | right
  | callee
  | arguments
  | object
  | property
  | constructor
  | moduleName
  deriving DecidableEq, Repr, Inhabited

/-- A syntax tree. -/
inductive Node where
  | mk (kind : Kind) (role : Role) (span : Span) (children : List Node)
  deriving Repr, Inhabited

namespace Node

def kind : Node → Kind
  | mk k _ _ _ => k

def role : Node → Role
  | mk _ r _ _ => r

def span : Node → Span
  | mk _ _ s _ => s

def children : Node → List Node
  | mk _ _ _ cs => cs

/-- The first byte of the node. -/
def start (n : Node) : Nat := n.span.start.byte

/-- The byte after the last one of the node. -/
def stop (n : Node) : Nat := n.span.stop.byte

/-- The same node in another part. -/
def withRole (r : Role) : Node → Node
  | mk k _ s cs => mk k r s cs

/-- The same node under another kind. -/
def withKind (k : Kind) : Node → Node
  | mk _ r s cs => mk k r s cs

/-- The children that are no mere words or punctuation. -/
def namedChildren (n : Node) : List Node := n.children.filter (·.kind.isNamed)

/-- The first child in a given part. -/
def child? (n : Node) (r : Role) : Option Node := n.children.find? (·.role == r)

/-- All children in a given part. -/
def childrenIn (n : Node) (r : Role) : List Node := n.children.filter (·.role == r)

/-- The text of a node. -/
def text (source : Bytes) (n : Node) : String := source.textBetween n.start n.stop

mutual

/-- The tree in document order: a node before its children, an earlier child before a later one. -/
def preorder : Node → List Node
  | mk k r s cs => mk k r s cs :: preorderAll cs

/-- The nodes of a row of trees in document order. -/
def preorderAll : List Node → List Node
  | [] => []
  | n :: rest => preorder n ++ preorderAll rest

end

/-- Whether some node of the tree marks a fault. -/
def hasFault (n : Node) : Bool := n.preorder.any (fun m => m.kind.isFault || m.kind == .absent)

/-- Whether trivia at `t` lies inside `s` with text of `s` on both sides, the right side possibly
empty of width. -/
def reachesOver (s t : Span) : Bool := s.start.byte < t.start.byte && t.stop.byte ≤ s.stop.byte

mutual

/-- Hang one piece of trivia into a tree that reaches over it. -/
def adopt (t : Node) : Node → Node
  | mk k r s cs => mk k r s (adoptAmong t cs)

/-- Hang one piece of trivia into the row of children: into the child that reaches over it, else
between the children where its place is. -/
def adoptAmong (t : Node) : List Node → List Node
  | [] => [t]
  | c :: rest =>
    if t.stop ≤ c.start then t :: c :: rest
    else if reachesOver c.span t.span then adopt t c :: rest
    else c :: adoptAmong t rest

end

/-- Hang trivia into a tree, in the order given. -/
def adoptAll (ts : List Node) (n : Node) : Node := ts.foldl (fun tree t => adopt t tree) n

end Node

end LogHygiene.Syntax
