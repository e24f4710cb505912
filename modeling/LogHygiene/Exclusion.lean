import LogHygiene.Config.Settings
import LogHygiene.Glob

/-!
# Files that are exempt

Tests and command line entry points may print. Whether a file is one of them is decided by its path and
the patterns of its family, before the file is opened; a file that is both counts as a test. A file that
no grammar reads is never exempt here: it has no family whose patterns could say so.
-/

set_option autoImplicit false

namespace LogHygiene

/-- Why a file is exempt. -/
inductive Exemption where
  | testFile
  | cliFile
  deriving DecidableEq, Repr, Inhabited

namespace Exemption

/-- The name of a reason in reports. -/
def label : Exemption → String
  | testFile => "test_file"
  | cliFile => "cli_file"

/-- Every reason. -/
def all : List Exemption := [testFile, cliFile]

/-- Why the file at a path relative to the root is exempt under the settings of its family, if it
is. -/
def ofRelative? (s : FamilySettings) (relative : String) : Option Exemption :=
  if Glob.anyAccepts s.testPatterns relative then some testFile
  else if Glob.anyAccepts s.cliPatterns relative then some cliFile
  else none

/-- Why a file is exempt, if it is. -/
def ofPath? (c : Config) (root path : String) : Option Exemption :=
  (Grammar.ofPath? path).bind fun g =>
    ofRelative? (c.settings g.family) (Path.relative root path)

end Exemption

end LogHygiene
