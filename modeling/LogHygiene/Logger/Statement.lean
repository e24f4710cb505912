import LogHygiene.Language

/-!
# Structured loggers: backends, levels and the statements that set one up

A logger comes from a **backend**, a package of its family. A file reaches it through a **binding**: a
local name for the package itself or for a factory taken out of it. Two templates per backend set a
logger up: one imports the package, the other creates the logger from a binding.
-/

set_option autoImplicit false

namespace LogHygiene

/-- A package that provides structured loggers. -/
inductive Backend where
  | pino
  | winston
  | logging
  | structlog
  deriving DecidableEq, Repr, Inhabited

namespace Backend

/-- The name under which the package is imported. -/
def module : Backend → String
  | pino => "pino"
  | winston => "winston"
  | logging => "logging"
  | structlog => "structlog"

/-- The family whose files can use the package. -/
def family : Backend → Family
  | pino | winston => .javascript
  | logging | structlog => .python

/-- Every backend. -/
def all : List Backend := [pino, winston, logging, structlog]

/-- The backend of a family that a module name means. -/
def ofModule? (family : Family) (module : String) : Option Backend :=
  all.find? (fun b => b.family == family && b.module == module)

end Backend

/-- How severe a message is. -/
inductive Level where
  | info
  | warn
  | error
  | debug
  deriving DecidableEq, Repr, Inhabited

namespace Level

/-- The name of a level in reports. -/
def label : Level → String
  | info => "info"
  | warn => "warn"
  | error => "error"
  | debug => "debug"

/-- The method of a logger that writes at a level. -/
def method (family : Family) : Level → String
  | info => "info"
  | warn => match family with
    | .javascript => "warn"
    | .python => "warning"
  | error => "error"
  | debug => "debug"

end Level

/-- What a local name for a backend stands for. -/
inductive BindingKind where
  | module
  | factory
  deriving DecidableEq, Repr, Inhabited

/-- A backend under a local name. -/
structure Binding where
  backend : Backend
  name : String
  kind : BindingKind
  deriving DecidableEq, Repr, Inhabited

/-- The binding that a freshly inserted import makes. -/
def Binding.fresh (backend : Backend) : Binding := ⟨backend, backend.module, .module⟩

/-- How a file takes in other modules. -/
inductive ModuleStyle where
  | es
  | commonJs
  deriving DecidableEq, Repr, Inhabited

/-- The statement that imports a backend into a file of a family. -/
def importStatement (family : Family) (style : ModuleStyle) (backend : Backend) : String :=
  let m := backend.module
  match family, style with
  | .python, _ => "import " ++ m
  | .javascript, .es => "import " ++ m ++ " from '" ++ m ++ "';"
  | .javascript, .commonJs => "const " ++ m ++ " = require('" ++ m ++ "');"

/-- The expression that names the factory behind a binding. -/
def Binding.factory (family : Family) (b : Binding) : String :=
  match family, b.kind, b.backend with
  | .javascript, .module, .winston => b.name ++ ".createLogger"
  | .javascript, _, _ => b.name
  | .python, .factory, _ => b.name
  | .python, .module, .structlog => b.name ++ ".get_logger"
  | .python, .module, _ => b.name ++ ".getLogger"

/-- The statement that creates the logger `name` from a binding. -/
def instanceStatement (family : Family) (b : Binding) (name : String) : String :=
  match family with
  | .javascript => "const " ++ name ++ " = " ++ b.factory family ++ "();"
  | .python => name ++ " = " ++ b.factory family ++ "(__name__)"

end LogHygiene
