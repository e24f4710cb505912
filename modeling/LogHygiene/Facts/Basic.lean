import LogHygiene.Logger.Statement
import LogHygiene.Syntax.Traversal

/-!
# Facts: what the rules know about a file

Reading a file yields its **facts**: the calls that log without a logger, the loggers that exist at
the top of the file, the names that are taken there, and the place where new lines may go. The
detector and the fixer see a file only through these.
-/

set_option autoImplicit false

namespace LogHygiene

open Syntax

/-- The convention that an ad-hoc logging call follows. -/
inductive CallKind where
  | print
  | console
  deriving DecidableEq, Repr, Inhabited

/-- The name of a convention in reports. -/
def CallKind.label : CallKind → String
  | print => "print"
  | console => "console"

/-- One ad-hoc logging call. -/
structure CallSite where
  kind : CallKind
  method : Option String
  level : Level
  /-- what is called; a fix replaces exactly this -/
  callee : Span
  calleeText : String
  call : Span
  deriving DecidableEq, Repr, Inhabited

/-- The line of a call, counted from one. -/
def CallSite.line (c : CallSite) : Nat := c.call.start.row + 1

/-- The column of a call in bytes, counted from one. -/
def CallSite.column (c : CallSite) : Nat := c.call.start.column + 1

/-- The calls of a row, sorted by where they start; of calls that start together only the first. -/
def CallSite.inOrder (calls : List CallSite) : List CallSite :=
  let sorted := calls.mergeSort (fun a b => a.call.start.byte ≤ b.call.start.byte)
  let rec dedup : List CallSite → List CallSite
    | [] => []
    | c :: rest => match dedup rest with
      | [] => [c]
      | d :: tail => if c.call.start.byte == d.call.start.byte then c :: tail else c :: d :: tail
  dedup sorted

/-- The structured loggers at the top level of a file. -/
structure LoggerFacts where
  hasImport : Bool := false
  hasInstance : Bool := false
  /-- loggers, in the order in which they come up -/
  names : List String := []
  /-- those of them that are created in this file -/
  instantiated : List String := []
  /-- the backend import from which a logger can be created -/
  binding : Option Binding := none
  deriving DecidableEq, Repr, Inhabited

namespace LoggerFacts

/-- A list with `x` at its end, unless it is in the list. -/
def insertNew (xs : List String) (x : String) : List String :=
  if xs.contains x then xs else xs ++ [x]

/-- Note a logger that was imported. -/
def addName (f : LoggerFacts) (name : String) : LoggerFacts :=
  { f with hasInstance := true, names := insertNew f.names name }

/-- Note a logger that is created here. -/
def addInstance (f : LoggerFacts) (name : String) : LoggerFacts :=
  let f := f.addName name
  { f with instantiated := insertNew f.instantiated name }

/-- The logger that rewritten calls use: one created here, else one imported. -/
def preferred? (f : LoggerFacts) : Option String := f.instantiated.head?.or f.names.head?

end LoggerFacts

/-- The place where new lines go. -/
structure Insertion where
  byte : Nat
  /-- the line, counted from one, that the first new line will have -/
  line : Nat
  /-- the place is not at the start of a line, so a line end goes first -/
  needsLeadingNewline : Bool
  /-- code follows on the line, so no line end goes last -/
  midLine : Bool
  deriving DecidableEq, Repr, Inhabited

namespace Insertion

/-- The top of the file. -/
def top : Insertion := ⟨0, 1, false, false⟩

/-- The place below the line that holds the offset `stop`. -/
def belowLine (source : Bytes) (stop : Nat) : Insertion :=
  match (source.drop stop).findIdx? (· == 10) with
  | some n => ⟨stop + n + 1, source.lineOf (stop + n + 1), false, false⟩
  | none => ⟨source.length, source.lineOf source.length + 1, true, false⟩

/-- The place behind a statement that `following` siblings come after. When another statement starts on
its last line, that is the end of the statement itself. -/
def behind (source : Bytes) (statement : Node) (following : List Node) : Insertion :=
  let row := statement.span.stop.row
  match (following.filter (·.kind.isNamed)).dropWhile (·.kind == .comment) with
  | next :: _ =>
    if next.span.start.row == row then ⟨statement.stop, row + 2, true, true⟩
    else belowLine source statement.stop
  | [] => belowLine source statement.stop

end Insertion

/-- Everything that is known about a file. -/
structure FileFacts where
  path : String
  family : Family
  calls : List CallSite
  logger : LoggerFacts
  /-- the names bound at the top level -/
  declared : List String
  insertion : Insertion
  style : ModuleStyle
  /-- where the text first breaks the grammar -/
  fault : Option Span
  deriving DecidableEq, Repr, Inhabited

end LogHygiene
