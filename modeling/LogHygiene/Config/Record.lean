import LogHygiene.Config.Settings
import LogHygiene.Json.Basic
import LogHygiene.Sha256

/-!
# Settings as a record, and their fingerprint

All settings are written out, defaults included, in one fixed order of fields. The **fingerprint** is the
digest of that text, so stored results are found again only under settings that are the same in every
field.
-/

set_option autoImplicit false

namespace LogHygiene

/-- The record of an outside program. -/
def SyntaxCheck.toJson (c : SyntaxCheck) : Json :=
  .obj [("command", .str c.command), ("args", .texts c.args), ("timeout_ms", .nat c.timeoutMs),
    ("on_analyze", .bool c.onAnalyze)]

/-- The record of the settings of a family. -/
def FamilySettings.toJson (s : FamilySettings) : Json :=
  .obj
    [("enabled", .bool s.enabled), ("severity", .str s.severity.label),
     ("auto_fix", .bool s.autoFix), ("test_patterns", .texts s.testPatterns),
     ("cli_patterns", .texts s.cliPatterns), ("logger_backend", .str s.backend.module),
     ("logger_name", .str s.loggerName), ("naming", .str s.naming.label),
     ("strip_segments", .texts s.stripSegments), ("logger_suffix", .str s.loggerSuffix),
     ("disable_next_line_markers", .texts s.markers),
     ("syntax_check", (s.syntaxCheck.map SyntaxCheck.toJson).getD .null)]

/-- The record of the settings for stored results. -/
def CacheSettings.toJson (s : CacheSettings) : Json :=
  .obj [("enabled", .bool s.enabled), ("directory", .str s.directory), ("ttl_hours", .nat s.ttlHours)]

namespace Config

/-- The record of all settings. -/
def toJson (c : Config) : Json :=
  .obj
    [("include", .texts c.includes), ("exclude", .texts c.excludes),
     ("concurrency", .nat c.concurrency), ("cache", c.cache.toJson),
     ("javascript", c.javascript.toJson), ("python", c.python.toJson)]

/-- The digest of all settings, in hexadecimal. -/
def fingerprint (c : Config) : String := Sha256.hex (Bytes.ofText c.toJson.compact)

end Config

end LogHygiene
