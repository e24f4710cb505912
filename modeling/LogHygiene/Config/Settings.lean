import LogHygiene.Logger.Statement

/-!
# Settings

A project is enforced under one `Config`: which files, how many at a time, where results are kept, and
for each family of languages what counts as exempt, what is reported and how a logger is set up. Every
setting has a default, and the defaults below are the documented ones.
-/

set_option autoImplicit false

namespace LogHygiene

/-- How bad a violation is, in reports. -/
inductive Severity where
  | error
  | warning
  | info
  deriving DecidableEq, Repr, Inhabited

/-- The name of a severity. -/
def Severity.label : Severity → String
  | error => "error"
  | warning => "warning"
  | info => "info"

/-- Every severity. -/
def Severity.all : List Severity := [error, warning, info]

/-- How a new logger gets its name. -/
inductive Naming where
  /-- the configured name, in every file -/
  | fixed
  /-- a name made from the path of the file -/
  | module
  deriving DecidableEq, Repr, Inhabited

/-- The name of a way of naming. -/
def Naming.label : Naming → String
  | fixed => "fixed"
  | module => "module"

/-- Every way of naming. -/
def Naming.all : List Naming := [fixed, module]

/-- An outside program that judges whether a text is a valid program. It gets the text on its standard
input and accepts it by leaving with status zero. -/
structure SyntaxCheck where
  command : String
  args : List String
  timeoutMs : Nat
  /-- also asked about files that are only analyzed -/
  onAnalyze : Bool
  deriving DecidableEq, Repr, Inhabited

/-- How long an outside program may take when nothing is said about it. -/
def SyntaxCheck.defaultTimeoutMs : Nat := 10000

/-- The settings of one family. -/
structure FamilySettings where
  enabled : Bool
  severity : Severity
  autoFix : Bool
  testPatterns : List String
  cliPatterns : List String
  backend : Backend
  loggerName : String
  naming : Naming
  /-- directories that do not go into a name made from a path -/
  stripSegments : List String
  loggerSuffix : String
  /-- what a comment says to silence the line below it -/
  markers : List String
  syntaxCheck : Option SyntaxCheck
  deriving DecidableEq, Repr, Inhabited

/-- Directories whose names say nothing about what is in them. -/
def hollowSegments : List String := ["src", "lib", "libs", "utils", "helpers", "common", "shared"]

/-- The settings that a family starts from. -/
def FamilySettings.default : Family → FamilySettings
  | .javascript =>
    { enabled := true, severity := .error, autoFix := true
      testPatterns := ["**/*.test.*", "**/*.spec.*", "**/__tests__/**", "**/test/**",
        "**/tests/**", "**/__mocks__/**"]
      cliPatterns := ["**/cli.*", "**/cli/**", "**/bin/**", "**/scripts/**"]
      backend := .pino, loggerName := "logger", naming := .fixed
      stripSegments := hollowSegments, loggerSuffix := "Logger"
      markers := ["eslint-disable-next-line", "logsweep-disable-next-line"]
      syntaxCheck := none }
  | .python =>
    { enabled := true, severity := .error, autoFix := true
      testPatterns := ["**/test_*.py", "**/*_test.py", "**/tests/**", "**/conftest.py"]
      cliPatterns := ["**/cli.py", "**/__main__.py", "**/cli/**", "**/scripts/**"]
      backend := .logging, loggerName := "logger", naming := .fixed
      stripSegments := hollowSegments, loggerSuffix := "Logger"
      markers := ["logsweep: disable-next-line", "noqa: T201"]
      syntaxCheck := none }

/-- Where results are kept between runs, and for how long. -/
structure CacheSettings where
  enabled : Bool
  /-- seen from the root of the project -/
  directory : String
  ttlHours : Nat
  deriving DecidableEq, Repr, Inhabited

/-- All settings of a project. -/
structure Config where
  includes : List String
  excludes : List String
  /-- how many files are worked on at a time -/
  concurrency : Nat
  cache : CacheSettings
  javascript : FamilySettings
  python : FamilySettings
  deriving DecidableEq, Repr, Inhabited

namespace Config

/-- The settings of a project that says nothing. -/
def default : Config :=
  { includes := ["**/*.\x7b" ++ ",".intercalate registeredExtensions ++ "\x7d"]
    excludes := []
    concurrency := 4
    cache := ⟨true, ".logsweep-cache", 24⟩
    javascript := .default .javascript
    python := .default .python }

/-- The settings of a family. -/
def settings (c : Config) : Family → FamilySettings
  | .javascript => c.javascript
  | .python => c.python

end Config

end LogHygiene
