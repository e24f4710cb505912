import LogHygiene.Config.Settings
import LogHygiene.Yaml.Reader

/-!
# Settings from a document

Every field of the document may be missing or null, and then the default stays; a field that nothing
knows is refused, so that a misspelt setting never goes unnoticed. Only the outside program of a family
must be given whole: it has no default but its absence.
-/

set_option autoImplicit false

namespace LogHygiene

open Yaml Reader

/-- A row of texts. -/
def textList : Reader (List String) := list (text "a string")

namespace SyntaxCheck

/-- An outside program of which the command may not have been read yet. -/
structure Draft where
  command : Option String
  args : List String
  timeoutMs : Nat
  onAnalyze : Bool
  deriving Inhabited

/-- The fields of an outside program. -/
def fieldNames : List String := ["command", "args", "timeout_ms", "on_analyze"]

/-- Read one field. -/
def readField (name : String) (c : Draft) : Reader Draft := fun d trail pos => do
  match name with
  | "command" => do
    let (v, pos) ← text "a string" d trail pos
    pure ({ c with command := some v }, pos)
  | "args" => do
    let (v, pos) ← textList d trail pos
    pure ({ c with args := v }, pos)
  | "timeout_ms" => do
    let (v, pos) ← natural "u64" d trail pos
    pure ({ c with timeoutMs := v }, pos)
  | _ => do
    let (v, pos) ← bool d trail pos
    pure ({ c with onAnalyze := v }, pos)

/-- An outside program. -/
def reader : Reader SyntaxCheck :=
  record "struct SyntaxCheckConfig" fieldNames ⟨none, [], defaultTimeoutMs, false⟩ readField
    fun c => match c.command with
      | some command => .ok ⟨command, c.args, c.timeoutMs, c.onAnalyze⟩
      | none => .error (.missingField "command")

end SyntaxCheck

namespace FamilySettings

/-- The fields of the settings of a family. -/
def fieldNames : List String :=
  ["enabled", "severity", "auto_fix", "test_patterns", "cli_patterns", "logger_backend",
   "logger_name", "naming", "strip_segments", "logger_suffix", "disable_next_line_markers",
   "syntax_check"]

/-- Read one field. -/
def readField (name : String) (s : FamilySettings) : Reader FamilySettings :=
  match name with
  | "enabled" => into bool (fun v => { s with enabled := v }) s
  | "severity" => into (oneOf Severity.all Severity.label) (fun v => { s with severity := v }) s
  | "auto_fix" => into bool (fun v => { s with autoFix := v }) s
  | "test_patterns" => into textList (fun v => { s with testPatterns := v }) s
  | "cli_patterns" => into textList (fun v => { s with cliPatterns := v }) s
  | "logger_backend" => into (oneOf Backend.all Backend.module) (fun v => { s with backend := v }) s
  | "logger_name" => into (text "a string") (fun v => { s with loggerName := v }) s
  | "naming" => into (oneOf Naming.all Naming.label) (fun v => { s with naming := v }) s
  | "strip_segments" => into textList (fun v => { s with stripSegments := v }) s
  | "logger_suffix" => into (text "a string") (fun v => { s with loggerSuffix := v }) s
  | "disable_next_line_markers" => into textList (fun v => { s with markers := v }) s
  | _ => into SyntaxCheck.reader (fun v => { s with syntaxCheck := some v }) s

/-- The settings of a family, over those it has. -/
def reader (s : FamilySettings) : Reader FamilySettings :=
  record "struct RawLanguageConfig" fieldNames s readField .ok

end FamilySettings

namespace CacheSettings

/-- The fields of the settings for stored results. -/
def fieldNames : List String := ["enabled", "directory", "ttl_hours"]

/-- Read one field. -/
def readField (name : String) (s : CacheSettings) : Reader CacheSettings :=
  match name with
  | "enabled" => into bool (fun v => { s with enabled := v }) s
  | "directory" => into (text "path string") (fun v => { s with directory := v }) s
  | _ => into (natural "u64") (fun v => { s with ttlHours := v }) s

/-- The settings for stored results, over those there are. -/
def reader (s : CacheSettings) : Reader CacheSettings :=
  record "struct RawCacheConfig" fieldNames s readField .ok

end CacheSettings

namespace Config

/-- The fields of a document of settings. -/
def fieldNames : List String :=
  ["include", "exclude", "concurrency", "cache", "javascript", "python"]

/-- Read one field. -/
def readField (name : String) (c : Config) : Reader Config :=
  match name with
  | "include" => into textList (fun v => { c with includes := v }) c
  | "exclude" => into textList (fun v => { c with excludes := v }) c
  | "concurrency" => into (natural "usize") (fun v => { c with concurrency := v }) c
  | "cache" => into c.cache.reader (fun v => { c with cache := v }) c
  | "javascript" => into c.javascript.reader (fun v => { c with javascript := v }) c
  | _ => into c.python.reader (fun v => { c with python := v }) c

/-- Settings, over the defaults. -/
def reader : Reader Config := record "struct RawConfig" fieldNames default readField .ok

end Config

end LogHygiene
