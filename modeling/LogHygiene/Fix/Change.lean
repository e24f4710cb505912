import LogHygiene.Analysis
import LogHygiene.Edit

/-!
# What is reported about fixing one file

A `FixReport` shows a file before and after, and each change by its place in the text **after** the fix.
A fix that failed changed nothing: its report has no changes, and it has the cause, once in words and once
as a sort. A report starts as `unchanged`; `fail` is how it comes to be one of a failure.
-/

set_option autoImplicit false

namespace LogHygiene

/-- What a change does. -/
inductive ChangeKind where
  | callRewrite
  | importAdded
  | loggerAdded
  deriving DecidableEq, Repr, Inhabited

/-- The name of a kind of change in reports. -/
def ChangeKind.label : ChangeKind → String
  | callRewrite => "call_rewrite"
  | importAdded => "import_added"
  | loggerAdded => "logger_instance_added"

/-- A change, with its place in the fixed text, lines and columns counted from one. -/
structure Change where
  line : Nat
  column : Nat
  old : String
  new : String
  kind : ChangeKind
  deriving DecidableEq, Repr, Inhabited

namespace Change

/-- Whether a change comes before another in the fixed text, or with it. -/
def before (a b : Change) : Bool := a.line < b.line || (a.line == b.line && a.column ≤ b.column)

/-- The record of a change. -/
def toJson (c : Change) : Json :=
  .obj [("line", .nat c.line), ("column", .nat c.column), ("old", .str c.old), ("new", .str c.new),
    ("type", .str c.kind.label)]

end Change

/-- What sort of thing kept a file from being fixed. -/
inductive FixFailureKind where
  | parse
  | regeneration
  | unsupportedLanguage
  | io
  | externalInterpreter
  deriving DecidableEq, Repr, Inhabited

/-- The name of a sort of failure in reports. -/
def FixFailureKind.label : FixFailureKind → String
  | parse => "parse"
  | regeneration => "regeneration"
  | unsupportedLanguage => "unsupported_language"
  | io => "io"
  | externalInterpreter => "external_interpreter"

/-- What kept a file from being fixed. -/
inductive FixFault where
  | noGrammar (path : String)
  | unreadable (path : String) (fault : FileFault)
  | notText (path : String)
  | syntaxError (shown : String) (at_ : Syntax.Position)
  /-- a call that runs before any place where its logger could be set up -/
  | callTooEarly (shown : String) (at_ : Syntax.Position) (line : Nat)
  | edits (fault : EditFault)
  /-- the fixed text breaks the grammar -/
  | brokenResult (shown : String) (at_ : Syntax.Position)
  | rejected (fault : CheckFault)
  | unwritable (path : String) (fault : FileFault)
  deriving DecidableEq, Repr, Inhabited

namespace FixFault

/-- The sort of a fault. -/
def kind : FixFault → FixFailureKind
  | noGrammar _ => .unsupportedLanguage
  | unreadable _ _ | notText _ | unwritable _ _ => .io
  | syntaxError _ _ => .parse
  | callTooEarly _ _ _ | edits _ | brokenResult _ _ => .regeneration
  | rejected _ => .externalInterpreter

/-- The fault in words. -/
def message : FixFault → String
  | noGrammar path => "no analyzer for " ++ path
  | unreadable path fault => "reading " ++ path ++ ": " ++ fault.message
  | notText path => path ++ " is not valid UTF-8"
  | syntaxError shown p => syntaxErrorWords shown p
  | callTooEarly shown p line =>
    s!"call at {shown}:{p.row + 1}:{p.column + 1} runs before the logger could be declared at line {line}"
  | edits fault => fault.message
  | brokenResult shown p => "regenerated source does not parse: " ++ syntaxErrorWords shown p
  | rejected fault => fault.message
  | unwritable path fault => "writing " ++ path ++ ": " ++ fault.message

end FixFault

/-- What is reported about fixing a file. -/
structure FixReport where
  path : String
  success : Bool
  changes : List Change
  original : Bytes
  fixed : Bytes
  /-- the fixed text is on the disk -/
  written : Bool
  error : Option String
  errorKind : Option FixFailureKind
  deriving DecidableEq, Repr, Inhabited

namespace FixReport

/-- A file with nothing to do. -/
def unchanged (path : String) (content : Bytes) : FixReport :=
  { path, success := true, changes := [], original := content, fixed := content, written := false,
    error := none, errorKind := none }

/-- A file that could not be looked at. -/
def failed (path : String) (f : FixFault) : FixReport :=
  { unchanged path [] with success := false, error := some f.message, errorKind := some f.kind }

/-- Put a cause of failure in the place of everything that was planned. -/
def fail (r : FixReport) (f : FixFault) : FixReport :=
  { r with
    success := false
    changes := []
    fixed := r.original
    written := false
    error := some f.message
    errorKind := some f.kind }

/-- Whether there is anything to write. -/
def hasChanges (r : FixReport) : Bool := !r.changes.isEmpty

/-- The number of calls that were rewritten. -/
def callsRewritten (r : FixReport) : Nat := r.changes.countP (·.kind == .callRewrite)

/-- The record of a report. -/
def toJson (r : FixReport) : Json :=
  .obj ([("file_path", .str r.path), ("success", .bool r.success),
      ("changes", .arr (r.changes.map Change.toJson)),
      ("original_content", .str ((r.original.text?).getD "")),
      ("fixed_content", .str ((r.fixed.text?).getD "")), ("written", .bool r.written)] ++
    Json.optional "error" r.error ++ Json.optional "error_kind" (r.errorKind.map FixFailureKind.label))

end FixReport

end LogHygiene
