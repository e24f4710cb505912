import LogHygiene.Config.Reader
import LogHygiene.Glob
import LogHygiene.Logger.Identifier
import LogHygiene.Text.Blank

/-!
# Which settings are accepted

A document can be well formed and its values still make no sense: a pattern that is none, a logger name
that no file could bind, a time of zero. `Config.check` names the first such setting, in the order in
which settings are listed. `Config.ofText` reads a document and accepts only settings that pass.
-/

set_option autoImplicit false

namespace LogHygiene

/-- Why there are no settings to work under. -/
inductive ConfigFault where
  /-- the file that holds them cannot be read -/
  | unreadable (path reason : String)
  /-- the document in that file cannot be understood -/
  | malformed (path : String) (issue : Yaml.Issue)
  | badGlob (field pattern : String) (fault : GlobFault)
  | refused (field reason : String)
  deriving DecidableEq, Repr, Inhabited

/-- The fault in words. -/
def ConfigFault.message : ConfigFault → String
  | unreadable path reason => "reading config " ++ path ++ ": " ++ reason
  | malformed path issue => "invalid config " ++ path ++ ": " ++ issue.message
  | badGlob field pattern fault =>
    "invalid glob " ++ Text.quoted pattern ++ " in " ++ field ++ ": error parsing glob '" ++ pattern
      ++ "': " ++ fault.words
  | refused field reason => field ++ ": " ++ reason

/-- Demand a property of a field. -/
def require (holds : Bool) (field reason : String) : Except ConfigFault Unit :=
  if holds then .ok () else .error (.refused field reason)

/-- Demand that every pattern of a field can be read. -/
def requireGlobs (field : String) (patterns : List String) : Except ConfigFault Unit :=
  match Glob.firstFault? patterns with
  | some (pattern, fault) => .error (.badGlob field pattern fault)
  | none => .ok ()

/-- Whether a text says anything. -/
def isSpoken (s : String) : Bool := s.toList.any (!Text.isBlank ·)

namespace SyntaxCheck

/-- Accept an outside program that can be started and has time to answer. -/
def check (field : String) (c : SyntaxCheck) : Except ConfigFault Unit := do
  require (isSpoken c.command) (field ++ ".command") "command must not be empty"
  require (c.timeoutMs != 0) (field ++ ".timeout_ms") "timeout must be greater than zero"

end SyntaxCheck

namespace FamilySettings

/-- Accept settings that make sense for a family. -/
def check (family : Family) (s : FamilySettings) : Except ConfigFault Unit := do
  let section_ := family.label
  let field (name : String) : String := section_ ++ "." ++ name
  requireGlobs (field "test_patterns") s.testPatterns
  requireGlobs (field "cli_patterns") s.cliPatterns
  require (s.backend.family == family) (field "logger_backend")
    ("backend " ++ Text.quoted s.backend.module ++ " cannot be used for " ++ section_ ++ " sources")
  require (family.isIdentifier s.loggerName) (field "logger_name")
    (Text.quoted s.loggerName ++ " is not a valid " ++ section_ ++ " identifier")
  require (family.isIdentifierTail s.loggerSuffix) (field "logger_suffix")
    (Text.quoted s.loggerSuffix ++ " must only contain identifier characters")
  require (s.markers.all isSpoken) (field "disable_next_line_markers") "markers must not be empty"
  match s.syntaxCheck with
  | some c => c.check (field "syntax_check")
  | none => .ok ()

end FamilySettings

namespace Config

/-- Accept settings that make sense. -/
def check (c : Config) : Except ConfigFault Unit := do
  require (c.concurrency != 0) "concurrency" "must be at least 1"
  require (c.cache.ttlHours != 0) "cache.ttl_hours" "must be at least 1"
  requireGlobs "include" c.includes
  requireGlobs "exclude" c.excludes
  c.javascript.check .javascript
  c.python.check .python

/-- The settings that a document describes, over the defaults. `path` is where the document is said to
be. A document without anything in it describes the defaults. -/
def ofText (path text : String) : Except ConfigFault Config := do
  let c ← if isSpoken text then (Yaml.Reader.run reader text).mapError (.malformed path)
    else .ok default
  c.check
  pure c

/-- Where a document is said to be that is in no file. -/
def inlinePath : String := "<inline>"

/-- The names of the files in which a project keeps its settings, the preferred one first. -/
def fileNames : List String := ["logsweep.yaml", ".logsweep.yaml", "logsweep.yml"]

end Config

end LogHygiene
