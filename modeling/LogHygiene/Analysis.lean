import LogHygiene.Exclusion
import LogHygiene.Facts.Basic
import LogHygiene.Json.Decode
import LogHygiene.SyntaxCheck.Verdict

/-!
# What is reported about one file

An `Analysis` says for one file whether it is exempt, which calls violate the policy, what loggers it
has, and what kept it from being analyzed. Analyses are stored between runs, so every one can be written
as a record and read back; a record in a store may say anything, which is why the fields are free of one
another. `Analysis.ofFault` and its neighbours build the ones that a run reports.
-/

set_option autoImplicit false

namespace LogHygiene

/-- A call that should go through a structured logger. -/
structure Violation where
  path : String
  line : Nat
  column : Nat
  kind : CallKind
  method : Option String
  level : Level
  severity : Severity
  message : String
  deriving DecidableEq, Repr, Inhabited

/-- The violation that a call is. -/
def Violation.ofCall (path : String) (severity : Severity) (c : CallSite) : Violation where
  path := path
  line := c.line
  column := c.column
  kind := c.kind
  method := c.method
  level := c.level
  severity := severity
  message :=
    "unstructured " ++ c.kind.label ++ " call \x60" ++ c.calleeText ++
      "\x60; use a structured logger at level " ++ c.level.label

/-- Whether a violation comes before another of its file, or with it. -/
def Violation.before (a b : Violation) : Bool :=
  a.line < b.line || (a.line == b.line && a.column ≤ b.column)

/-- What sort of thing kept a file from being analyzed. -/
inductive FailureKind where
  | parse
  | unsupportedLanguage
  | io
  | externalInterpreter
  deriving DecidableEq, Repr, Inhabited

/-- The name of a sort of failure in reports. -/
def FailureKind.label : FailureKind → String
  | parse => "parse"
  | unsupportedLanguage => "unsupported_language"
  | io => "io"
  | externalInterpreter => "external_interpreter"

/-- Every sort of failure. -/
def FailureKind.all : List FailureKind := [parse, unsupportedLanguage, io, externalInterpreter]

/-- Where a text breaks the grammar, in words. -/
def syntaxErrorWords (shown : String) (at_ : Syntax.Position) : String :=
  s!"syntax error at {shown}:{at_.row + 1}:{at_.column + 1}"

/-- What kept a file from being analyzed. -/
inductive AnalysisFault where
  | noGrammar (path : String)
  | unreadable (path : String) (fault : FileFault)
  | syntaxError (shown : String) (at_ : Syntax.Position)
  | rejected (fault : CheckFault)
  deriving DecidableEq, Repr, Inhabited

namespace AnalysisFault

/-- The sort of a fault. -/
def kind : AnalysisFault → FailureKind
  | noGrammar _ => .unsupportedLanguage
  | unreadable _ _ => .io
  | syntaxError _ _ => .parse
  | rejected _ => .externalInterpreter

/-- The fault in words. -/
def message : AnalysisFault → String
  | noGrammar path => "no analyzer for " ++ path
  | unreadable path fault => "reading " ++ path ++ ": " ++ fault.message
  | syntaxError shown p => syntaxErrorWords shown p
  | rejected fault => fault.message

end AnalysisFault

/-- What is reported about a file. -/
structure Analysis where
  path : String := ""
  family : Option Family := none
  excluded : Bool := false
  exemption : Option Exemption := none
  violations : List Violation := []
  hasImport : Bool := false
  hasInstance : Bool := false
  loggerNames : List String := []
  error : Option String := none
  errorKind : Option FailureKind := none
  deriving DecidableEq, Repr, Inhabited

namespace Analysis

/-- A file about which there is nothing to say. -/
def clean (path : String) (family : Option Family) : Analysis := { path, family }

/-- A file that is exempt. -/
def exempt (path : String) (family : Family) (why : Exemption) : Analysis :=
  { path, family := some family, excluded := true, exemption := some why }

/-- Put a fault in the place of the violations. What is known about loggers stays. -/
def fail (a : Analysis) (f : AnalysisFault) : Analysis :=
  { a with violations := [], error := some f.message, errorKind := some f.kind }

/-- A file that could not be analyzed. -/
def ofFault (path : String) (family : Option Family) (f : AnalysisFault) : Analysis :=
  (clean path family).fail f

/-- Whether something kept the file from being analyzed. -/
def hasError (a : Analysis) : Bool := a.error.isSome

end Analysis

/-! ## As a record -/

namespace Violation

/-- The record of a violation. -/
def toJson (v : Violation) : Json :=
  .obj ([("file_path", .str v.path), ("line", .nat v.line), ("column", .nat v.column),
      ("kind", .str v.kind.label)] ++
    Json.optional "method" v.method ++
    [("level", .str v.level.label), ("severity", .str v.severity.label),
      ("message", .str v.message)])

/-- How a violation is read. -/
def recordType : Json.RecordType Violation where
  name := "Violation"
  fields := ["file_path", "line", "column", "kind", "method", "level", "severity", "message"]
  required := ["file_path", "line", "column", "kind", "level", "severity", "message"]
  read name v j :=
    match name with
    | "file_path" => j.toText.map fun x => { v with path := x }
    | "line" => (j.toNatural "usize").map fun x => { v with line := x }
    | "column" => (j.toNatural "usize").map fun x => { v with column := x }
    | "kind" =>
      (j.toOneOf [.print, .console] CallKind.label).map fun x => { v with kind := x }
    | "method" => (j.toOption Json.toText).map fun x => { v with method := x }
    | "level" =>
      (j.toOneOf [.info, .warn, .error, .debug] Level.label).map fun x => { v with level := x }
    | "severity" => (j.toOneOf Severity.all Severity.label).map fun x => { v with severity := x }
    | _ => j.toText.map fun x => { v with message := x }

/-- A violation of which nothing was read. -/
def blank : Violation := ⟨"", 0, 0, .print, none, .info, .error, ""⟩

/-- Read a violation. -/
def ofJson (j : Json) : Except Mismatch Violation := recordType.decode blank j

end Violation

namespace Analysis

/-- The record of an analysis. What there is nothing to say about is left out. -/
def toJson (a : Analysis) : Json :=
  .obj ([("file_path", .str a.path)] ++
    Json.optional "language" (a.family.map Family.label) ++
    [("excluded", .bool a.excluded)] ++
    Json.optional "exclusion_reason" (a.exemption.map Exemption.label) ++
    [("violations", .arr (a.violations.map Violation.toJson)),
     ("has_logger_import", .bool a.hasImport), ("has_logger_instance", .bool a.hasInstance),
     ("logger_names", .texts a.loggerNames)] ++
    Json.optional "error" a.error ++
    Json.optional "error_kind" (a.errorKind.map FailureKind.label))

/-- How an analysis is read. -/
def recordType : Json.RecordType Analysis where
  name := "FileAnalysisResult"
  fields := ["file_path", "language", "excluded", "exclusion_reason", "violations",
    "has_logger_import", "has_logger_instance", "logger_names", "error", "error_kind"]
  required := ["file_path", "excluded", "violations", "has_logger_import", "has_logger_instance",
    "logger_names"]
  read name a j :=
    match name with
    | "file_path" => j.toText.map fun x => { a with path := x }
    | "language" =>
      (j.toOption (Json.toOneOf Family.all Family.label)).map fun x => { a with family := x }
    | "excluded" => j.toBool.map fun x => { a with excluded := x }
    | "exclusion_reason" =>
      (j.toOption (Json.toOneOf Exemption.all Exemption.label)).map
        fun x => { a with exemption := x }
    | "violations" => (j.toList Violation.ofJson).map fun x => { a with violations := x }
    | "has_logger_import" => j.toBool.map fun x => { a with hasImport := x }
    | "has_logger_instance" => j.toBool.map fun x => { a with hasInstance := x }
    | "logger_names" => (j.toList Json.toText).map fun x => { a with loggerNames := x }
    | "error" => (j.toOption Json.toText).map fun x => { a with error := x }
    | _ =>
      (j.toOption (Json.toOneOf FailureKind.all FailureKind.label)).map
        fun x => { a with errorKind := x }

/-- Read an analysis. -/
def ofJson (j : Json) : Except Mismatch Analysis := recordType.decode {} j

end Analysis

end LogHygiene
