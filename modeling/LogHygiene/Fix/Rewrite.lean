import LogHygiene.Fix.Change
import LogHygiene.Logger.Naming

/-!
# How a file is rewritten

Each call is given the logger's method instead of what it called; nothing else of it is touched. A file
without a logger first gets one: the lines that set it up go to the insertion place, and everything
behind that place moves down by as many lines.

Every edit is recorded as a change, and the place of a change is worked out for the text after the fix
without looking at that text: a call behind the insertion place moves down, and one that shared the
line of the insertion place is shifted by the line that now stands in front of it.
-/

set_option autoImplicit false

namespace LogHygiene

/-- A line that is put into a file. -/
structure NewLine where
  kind : ChangeKind
  text : String
  deriving DecidableEq, Repr, Inhabited

/-- The logger that rewritten calls use, and the lines that set it up. -/
structure LoggerSetup where
  name : String
  lines : List NewLine
  deriving DecidableEq, Repr, Inhabited

namespace LoggerSetup

/-- The logger that a file has, or a new one from a backend that the file imports, or a new one from
the configured backend. -/
def choose (shown : String) (family : Family) (s : FamilySettings) (x : FileFacts) : LoggerSetup :=
  match x.logger.preferred? with
  | some name => ⟨name, []⟩
  | none =>
    let name := newLoggerName family s x.declared shown
    match x.logger.binding with
    | some b => ⟨name, [⟨.loggerAdded, instanceStatement family b name⟩]⟩
    | none =>
      let b := Binding.fresh s.backend
      ⟨name, [⟨.importAdded, importStatement family x.style b.backend⟩,
        ⟨.loggerAdded, instanceStatement family b name⟩]⟩

/-- The text that goes to an insertion place. -/
def block (u : LoggerSetup) (i : Insertion) : String :=
  (if i.needsLeadingNewline then "\n" else "") ++ "\n".intercalate (u.lines.map NewLine.text) ++
    (if i.midLine then "" else "\n")

/-- The edit that inserts the lines, if there are any. -/
def edits (u : LoggerSetup) (i : Insertion) : List Edit :=
  if u.lines.isEmpty then [] else [.insert i.byte (Bytes.ofText (u.block i))]

/-- The changes that the lines are, the first one on the given line. -/
def changesFrom : Nat → List NewLine → List Change
  | _, [] => []
  | line, l :: rest => ⟨line, 1, "", l.text, l.kind⟩ :: changesFrom (line + 1) rest

/-- The expression that takes the place of what a call calls. -/
def callee (u : LoggerSetup) (family : Family) (c : CallSite) : String :=
  u.name ++ "." ++ c.level.method family

/-- The edit of a call. -/
def callEdit (u : LoggerSetup) (family : Family) (c : CallSite) : Edit :=
  ⟨c.callee.start.byte, c.callee.stop.byte, Bytes.ofText (u.callee family c)⟩

/-- Whether a call moves because of the lines that are put in. -/
def moves (u : LoggerSetup) (i : Insertion) (c : CallSite) : Bool :=
  !u.lines.isEmpty && i.byte ≤ c.callee.start.byte

/-- The width of the last line that is put in. -/
def lastWidth (u : LoggerSetup) : Nat :=
  match u.lines.getLast? with
  | some l => l.text.utf8ByteSize
  | none => 0

/-- The change that rewriting a call is. -/
def callChange (u : LoggerSetup) (family : Family) (i : Insertion) (c : CallSite) : Change :=
  let row := c.callee.start.row
  let moved := u.moves i c
  let joins := moved && i.midLine && row + 2 == i.line
  { line := row + 1 + (if moved then u.lines.length else 0)
    column := if joins then u.lastWidth + (c.callee.start.byte - i.byte) + 1
      else c.callee.start.column + 1
    old := c.calleeText
    new := u.callee family c
    kind := .callRewrite }

end LoggerSetup

/-- A way to rewrite a file. -/
structure Rewrite where
  edits : List Edit
  changes : List Change
  deriving DecidableEq, Repr, Inhabited

/-- How a file with these facts is rewritten so that the given calls use a logger. -/
def Rewrite.plan (shown : String) (family : Family) (s : FamilySettings) (x : FileFacts)
    (calls : List CallSite) : Rewrite :=
  let u := LoggerSetup.choose shown family s x
  let i := x.insertion
  { edits := u.edits i ++ calls.map (u.callEdit family)
    changes := (LoggerSetup.changesFrom i.line u.lines ++ calls.map (u.callChange family i)).mergeSort
      Change.before }

end LogHygiene
