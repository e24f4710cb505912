import LogHygiene.Facts.Basic
import LogHygiene.Facts.LoggerName
import LogHygiene.Text.Blank

/-!
# Facts of a JavaScript or TypeScript file

A call counts when it calls a severity method of the global `console` by name. Loggers, imports and
names are looked for among the statements at the top level only, and a declaration behind `export` is
looked at as if `export` were not there.
-/

set_option autoImplicit false

namespace LogHygiene.Facts.JavaScript

open Syntax Text

/-- Methods of `console` and the levels they stand for. -/
def consoleLevels : List (String × Level) :=
  [("log", .info), ("info", .info), ("warn", .warn), ("error", .error), ("debug", .debug),
   ("trace", .debug)]

/-- Packages that provide structured loggers. -/
def loggerModules : List String :=
  ["pino", "winston", "bunyan", "loglevel", "log4js", "consola", "tslog"]

/-- Names of files that hold a project's own logger. -/
def loggerSegments : List String := ["logger", "log", "logging", "loggers"]

/-- Callees that return a logger. -/
def loggerFactories : List String :=
  ["pino", "winston.createLogger", "bunyan.createLogger", "log4js.getLogger", "log.getLogger",
   "loglevel.getLogger", "createLogger", "getLogger", "consola.create", "consola.withTag"]

/-- The call site that a node is, if it is one. -/
def callSite? (source : Bytes) (n : Node) : Option CallSite := do
  if n.kind != .call then none
  let callee ← n.child? .callee
  if callee.kind != .member then none
  let object ← callee.child? .object
  let property ← callee.child? .property
  if object.kind != .identifier || property.kind != .propertyName then none
  if object.text source != "console" then none
  let method := property.text source
  let level ← consoleLevels.lookup method
  pure ⟨.console, some method, level, callee.span, callee.text source, n.span⟩

/-- The calls of a file. -/
def calls (source : Bytes) (tree : Node) : List CallSite :=
  CallSite.inOrder (tree.preorder.filterMap (callSite? source))

/-! ## Values -/

/-- The value inside wrappers that do not change it, at most `n` wrappers deep. -/
def unwrap : Nat → Node → Node
  | 0, node => node
  | n + 1, node =>
    if [Kind.awaited, .parenthesized, .typeCast, .typeCheck, .nonNull].contains node.kind then
      match node.namedChildren with
      | inner :: _ => unwrap n inner
      | [] => node
    else node

/-- The value inside all its wrappers. -/
def unwrapped (source : Bytes) (n : Node) : Node := unwrap (source.length + 1) n

/-- What a string says. -/
def stringValue? (source : Bytes) (n : Node) : Option String :=
  if n.kind == .string then
    some (String.ofList (trimWhile (fun c => c == '\'' || c == '"') (n.text source).toList))
  else none

/-- The module that `require` is asked for, if the node asks. -/
def requireSource? (source : Bytes) (n : Node) : Option String := do
  if n.kind != .call then none
  let callee ← n.child? .callee
  if callee.kind != .identifier || callee.text source != "require" then none
  let args ← n.child? .arguments
  let first ← args.namedChildren.head?
  stringValue? source first

/-- The name of the package that a module path starts with. -/
def packageOf (module : String) : String :=
  let parts := Path.parts module
  if module.toList.head? == some '@' then "/".intercalate (parts.take 2) else parts.headD module

/-- Whether a module provides loggers: a known package, or a file of the project that is named like
one. -/
def isLoggerModule (module : String) : Bool :=
  let last := (Path.parts module).getLastD module
  loggerModules.contains (packageOf module) ||
    loggerSegments.contains (String.ofList (last.toList.takeWhile (· != '.')))

/-! ## The top level -/

/-- What the top level of a file declares. -/
structure Scope where
  logger : LoggerFacts := {}
  declared : List String := []
  hasImport : Bool := false
  hasRequire : Bool := false
  exportsCommonJs : Bool := false
  deriving DecidableEq, Repr, Inhabited

/-- Note a name that is bound at the top level. -/
def Scope.declare (s : Scope) (name : String) : Scope :=
  { s with declared := s.declared.insert name }

/-- Note a module that provides loggers. -/
def Scope.noteModule (s : Scope) (module : String) : Scope :=
  if isLoggerModule module then { s with logger := { s.logger with hasImport := true } } else s

/-- What a name taken out of a backend's package stands for. `imported` is the name in the package, or
nothing for the package itself. -/
def bindingKind? (backend : Backend) : Option String → Option BindingKind
  | none => some .module
  | some n =>
    match backend with
    | .winston => if n == "createLogger" then some .factory else none
    | .pino => if n == "pino" || n == "default" then some .factory else none
    | _ => none

/-- Note a name that is bound to a module or to something in it. What comes from a backend's package is
never a logger yet. -/
def Scope.bind (s : Scope) (module name : String) (imported : Option String) : Scope :=
  let s := s.declare name
  match Backend.ofModule? .javascript module with
  | some backend =>
    let made := (bindingKind? backend imported).map (fun kind => (⟨backend, name, kind⟩ : Binding))
    { s with logger := { s.logger with binding := s.logger.binding.or made } }
  | none =>
    if looksLikeLogger name then
      { s with logger := { s.logger with hasImport := true }.addName name }
    else s

/-- What an import specifier binds. -/
def visitSpecifier (source : Bytes) (module : String) (s : Scope) (n : Node) : Scope :=
  if n.kind != .importSpecifier then s
  else match n.child? .name with
    | none => s
    | some imported =>
      let name := (n.child? .alias).getD imported
      s.bind module (name.text source) (some (imported.text source))

/-- What a part of an import clause binds. -/
def visitImportPart (source : Bytes) (module : String) (s : Scope) (n : Node) : Scope :=
  match n.kind with
  | .identifier => s.bind module (n.text source) none
  | .namespaceImport =>
    match n.namedChildren with
    | name :: _ => s.bind module (name.text source) none
    | [] => s
  | .namedImports => n.namedChildren.foldl (visitSpecifier source module) s
  | _ => s

/-- What an import statement adds. -/
def visitImport (source : Bytes) (s : Scope) (n : Node) : Scope :=
  let s := { s with hasImport := true }
  match (n.child? .source).bind (stringValue? source) with
  | none => s
  | some module =>
    let clauses := n.namedChildren.filter (·.kind == .importClause)
    (clauses.flatMap Node.namedChildren).foldl (visitImportPart source module) (s.noteModule module)

/-- The names that a pattern binds, in order, at most `n` deep. -/
def boundNames (source : Bytes) : Nat → Node → List String
  | 0, _ => []
  | n + 1, node =>
    match node.kind with
    | .identifier | .shorthandPattern => [node.text source]
    | .pairPattern => ((node.child? .value).map (boundNames source n)).getD []
    | _ => node.namedChildren.flatMap (boundNames source n)

/-- The names that a declarator binds. -/
def declaredNames (source : Bytes) (name : Node) : List String :=
  match name.kind with
  | .identifier | .objectPattern | .arrayPattern => boundNames source (source.length + 1) name
  | _ => []

/-- Whether an expression creates a logger. -/
def createsLogger (source : Bytes) (logger : LoggerFacts) (value : Node) : Bool :=
  match value.kind with
  | .call =>
    match value.child? .callee with
    | none => false
    | some callee =>
      match requireSource? source callee with
      | some module => isLoggerModule module
      | none =>
        let text := withoutBlanks (callee.text source)
        if loggerFactories.contains text then true
        else if logger.binding.any (fun b => text == b.factory .javascript) then true
        else if callee.kind == .member then
          match callee.child? .object, callee.child? .property with
          | some object, some property =>
            property.text source == "child" && logger.names.contains (object.text source)
          | _, _ => false
        else false
  | .construction =>
    match value.child? .constructor with
    | some c =>
      let text := c.text source
      text == "Logger" || ".Logger".toList.isSuffixOf text.toList
    | none => false
  | _ => false

/-- What a declarator adds. -/
def visitDeclarator (source : Bytes) (s : Scope) (n : Node) : Scope :=
  match n.child? .name with
  | none => s
  | some name =>
    let names := declaredNames source name
    let s := names.foldl Scope.declare s
    match (n.child? .value).map (unwrapped source) with
    | none => s
    | some value =>
      let plain := name.kind == .identifier
      match requireSource? source value with
      | some module =>
        let s := { s with hasRequire := true }.noteModule module
        names.foldl (fun s x => s.bind module x (if plain then none else some x)) s
      | none =>
        if plain && createsLogger source s.logger value then
          { s with logger := s.logger.addInstance (name.text source) }
        else s

/-- What a statement at the top level adds. -/
def visit (source : Bytes) (s : Scope) (child : Node) : Scope :=
  let statement :=
    if child.kind == .exportStatement then (child.child? .declaration).getD child else child
  match statement.kind with
  | .importStatement => visitImport source s statement
  | .lexicalDeclaration | .variableDeclaration =>
    (statement.namedChildren.filter (·.kind == .declarator)).foldl (visitDeclarator source) s
  | .functionDeclaration | .classDeclaration =>
    match statement.child? .name with
    | some name => s.declare (name.text source)
    | none => s
  | .expressionStatement =>
    let text := (statement.text source).toList
    if "module.exports".toList.isPrefixOf text || "exports.".toList.isPrefixOf text then
      { s with exportsCommonJs := true }
    else s
  | _ => s

/-- What the top level of a file declares. -/
def scope (source : Bytes) (tree : Node) : Scope :=
  tree.namedChildren.foldl (visit source) {}

/-! ## Where imports end -/

/-- Whether a statement is nothing but a string. -/
def isDirective (n : Node) : Bool :=
  match n.namedChildren with
  | [c] => c.kind == .string
  | _ => false

/-- Whether a statement is nothing but a call of `require`. -/
def isBareRequire (source : Bytes) (n : Node) : Bool :=
  match n.namedChildren with
  | c :: _ => (requireSource? source c).isSome
  | [] => false

/-- Whether a value is what `require` gives, or a member of it. -/
def isRequired (source : Bytes) (value : Node) : Bool :=
  let v := unwrapped source value
  (requireSource? source v).isSome ||
    (v.kind == .member && (v.child? .object).any (fun o => (requireSource? source o).isSome))

/-- Whether a declaration binds nothing but what `require` gives. -/
def isRequireDeclaration (source : Bytes) (n : Node) : Bool :=
  let ds := n.namedChildren.filter (·.kind == .declarator)
  !ds.isEmpty && ds.all (fun d => (d.child? .value).any (isRequired source))

/-- The last statements of the head of a file, each with what follows it. -/
structure Head where
  opening : Option (Node × List Node) := none
  imports : Option (Node × List Node) := none

/-- Walk over the head of a file: comments, directives and imports. -/
def head (source : Bytes) (h : Head) : List Node → Head
  | [] => h
  | n :: rest =>
    match n.kind with
    | .comment => head source h rest
    | .hashBang => head source { h with opening := some (n, rest) } rest
    | .importStatement => head source { h with imports := some (n, rest) } rest
    | .expressionStatement =>
      if h.imports.isNone && isDirective n then
        head source { h with opening := some (n, rest) } rest
      else if isBareRequire source n then head source { h with imports := some (n, rest) } rest
      else h
    | .lexicalDeclaration | .variableDeclaration =>
      if isRequireDeclaration source n then head source { h with imports := some (n, rest) } rest
      else h
    | _ => h

/-- Where new lines go: behind the imports, else behind what has to stay at the top. -/
def insertion (source : Bytes) (tree : Node) : Insertion :=
  let h := head source {} tree.children
  match h.imports.or h.opening with
  | some (n, following) => Insertion.behind source n following
  | none => .top

/-- How a file takes in modules. Only files of the plain dialect ask for them with `require`. -/
def style (path : String) (grammar : Grammar) (s : Scope) : ModuleStyle :=
  if grammar == .javascript &&
      (Path.extension? path == some "cjs" || (!s.hasImport && (s.hasRequire || s.exportsCommonJs)))
  then .commonJs else .es

/-- The facts of a JavaScript or TypeScript file. -/
def facts (path : String) (grammar : Grammar) (source : Bytes) (tree : Node) : FileFacts :=
  let s := scope source tree
  { path, family := .javascript, calls := calls source tree, logger := s.logger,
    declared := s.declared, insertion := insertion source tree, style := style path grammar s,
    fault := tree.firstFault? }

end LogHygiene.Facts.JavaScript
