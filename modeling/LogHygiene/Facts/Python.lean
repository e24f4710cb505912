import LogHygiene.Facts.Basic
import LogHygiene.Facts.LoggerName
import LogHygiene.Text.Blank

/-!
# Facts of a Python file

A call counts when its callee, without blanks, is in `printCalls`. Loggers, imports and names are
looked for among the statements at the top level only.
-/

set_option autoImplicit false

namespace LogHygiene.Facts.Python

open Syntax Text

/-- Callees that log without a logger: the convention, the method and the level. -/
def printCalls : List (String × CallKind × Option String × Level) :=
  [("print", .print, none, .info),
   ("pprint", .print, some "pprint", .debug),
   ("pprint.pprint", .print, some "pprint", .debug),
   ("sys.stdout.write", .console, some "stdout.write", .info),
   ("sys.stderr.write", .console, some "stderr.write", .error)]

/-- Packages that provide structured loggers. -/
def loggerModules : List String := ["logging", "structlog", "loguru"]

/-- Callees that return a logger. -/
def loggerFactories : List String :=
  ["logging.getLogger", "structlog.get_logger", "structlog.getLogger",
   "structlog.stdlib.get_logger", "getLogger", "get_logger",
   "loguru.logger.bind"]

/-- The call site that a node is, if it is one. -/
def callSite? (source : Bytes) (n : Node) : Option CallSite := do
  if n.kind != .call then none
  let callee ← n.child? .callee
  let text := callee.text source
  let (kind, method, level) ← printCalls.lookup (withoutBlanks text)
  pure ⟨kind, method, level, callee.span, text, n.span⟩

/-- The calls of a file. -/
def calls (source : Bytes) (tree : Node) : List CallSite :=
  CallSite.inOrder (tree.preorder.filterMap (callSite? source))

/-! ## The top level -/

/-- What the top level of a file declares. -/
structure Scope where
  logger : LoggerFacts := {}
  declared : List String := []
  deriving DecidableEq, Repr, Inhabited

/-- Note a name that is bound at the top level. -/
def Scope.declare (s : Scope) (name : String) : Scope :=
  { s with declared := s.declared.insert name }

/-- Note a package that provides loggers. -/
def Scope.noteModule (s : Scope) (root : String) : Scope :=
  if loggerModules.contains root then { s with logger := { s.logger with hasImport := true } } else s

/-- Note a binding, unless there is one. -/
def Scope.bind (s : Scope) (b : Binding) : Scope :=
  { s with logger := { s.logger with binding := s.logger.binding.or (some b) } }

/-- The text up to the first dot. -/
def rootModule (dotted : String) : String := String.ofList (dotted.toList.takeWhile (· != '.'))

/-- What is imported, and the name it gets if that is another. -/
def importedName (source : Bytes) (n : Node) : String × Option String :=
  if n.kind == .aliasedImport then
    (((n.child? .name).map (·.text source)).getD "", (n.child? .alias).map (·.text source))
  else (n.text source, none)

/-- `import m` binds the first part of `m`, or the alias. -/
def visitImport (source : Bytes) (s : Scope) (n : Node) : Scope :=
  let (dotted, newName) := importedName source n
  let root := rootModule dotted
  let name := newName.getD root
  let s := (s.declare name).noteModule root
  match Backend.ofModule? .python root with
  | some backend =>
    -- `import logging.config as cfg` does not bind `logging`
    if newName.isNone || dotted == root then s.bind ⟨backend, name, .module⟩ else s
  | none => s

/-- `from m import n` binds `n`, or the alias. -/
def visitImportFrom (source : Bytes) (root : String) (s : Scope) (n : Node) : Scope :=
  let (imported, newName) := importedName source n
  let name := newName.getD imported
  let s := s.declare name
  let s := match Backend.ofModule? .python root with
    | some backend =>
      if imported == "getLogger" || imported == "get_logger" then s.bind ⟨backend, name, .factory⟩
      else s
    | none => s
  if (root == "loguru" && imported == "logger") || looksLikeLogger name then
    { s with logger := { s.logger with hasImport := true }.addName name }
  else s

/-- Whether an expression creates a logger. -/
def createsLogger (source : Bytes) (logger : LoggerFacts) (value : Node) : Bool :=
  if value.kind != .call then false
  else match value.child? .callee with
    | none => false
    | some callee =>
      let text := withoutBlanks (callee.text source)
      if loggerFactories.contains text then true
      else if logger.binding.any (fun b => text == b.factory .python) then true
      else if callee.kind == .member then
        match callee.child? .object, callee.child? .property with
        | some object, some property =>
          ["bind", "getChild", "new"].contains (property.text source) &&
            logger.names.contains (object.text source)
        | _, _ => false
      else false

/-- The names that the left side of an assignment binds, at most `n` brackets deep. -/
def boundNames (source : Bytes) : Nat → Node → List String
  | 0, _ => []
  | n + 1, node =>
    if node.kind == .identifier then [node.text source]
    else if [Kind.patternList, .tuplePattern, .listPattern].contains node.kind then
      node.namedChildren.flatMap (boundNames source n)
    else []

/-- What an assignment adds. -/
def visitAssignment (source : Bytes) (s : Scope) (assignment : Node) : Scope :=
  match assignment.child? .left with
  | none => s
  | some left =>
    let s := (boundNames source (source.length + 1) left).foldl Scope.declare s
    if left.kind != .identifier then s
    else if (assignment.child? .right).any (createsLogger source s.logger) then
      { s with logger := s.logger.addInstance (left.text source) }
    else s

/-- What a statement at the top level adds. -/
def visit (source : Bytes) (s : Scope) (child : Node) : Scope :=
  let statement :=
    if child.kind == .decorated then (child.child? .definition).getD child else child
  match statement.kind with
  | .importStatement => (statement.childrenIn .name).foldl (visitImport source) s
  | .importFrom =>
    let root := rootModule (((statement.child? .moduleName).map (·.text source)).getD "")
    (statement.childrenIn .name).foldl (visitImportFrom source root) (s.noteModule root)
  | .functionDeclaration | .classDeclaration =>
    match statement.child? .name with
    | some name => s.declare (name.text source)
    | none => s
  | .expressionStatement =>
    match statement.namedChildren with
    | first :: _ => if first.kind == .assignment then visitAssignment source s first else s
    | [] => s
  | _ => s

/-- What the top level of a file declares. -/
def scope (source : Bytes) (tree : Node) : Scope :=
  tree.namedChildren.foldl (visit source) {}

/-! ## Where imports end -/

/-- Whether a statement is nothing but a string. -/
def isDocstring (n : Node) : Bool :=
  match n.namedChildren with
  | [c] => c.kind == .string
  | _ => false

/-- Whether a comment near the top belongs to the head of the file. -/
def isHeader (source : Bytes) (n : Node) : Bool :=
  let text := (n.text source).toList
  n.span.start.row ≤ 1 &&
    ("#!".toList.isPrefixOf text ||
      (Bytes.indexOf? (Bytes.ofText "coding") (Bytes.ofText (n.text source))).isSome)

/-- The last statement of the head of the file, with what follows it. -/
structure Head where
  opening : Option (Node × List Node) := none
  imports : Option (Node × List Node) := none
  docstring : Bool := false

/-- Walk over the head of a file: comments, the docstring and imports. -/
def head (source : Bytes) (h : Head) : List Node → Head
  | [] => h
  | n :: rest =>
    match n.kind with
    | .comment =>
      if isHeader source n && h.imports.isNone then head source { h with opening := some (n, rest) } rest
      else head source h rest
    | .expressionStatement =>
      if h.imports.isNone && !h.docstring && isDocstring n then
        head source { h with opening := some (n, rest), docstring := true } rest
      else h
    | .importFuture | .importStatement | .importFrom =>
      head source { h with imports := some (n, rest) } rest
    | _ => h

/-- Where new lines go: behind the imports, else behind what has to stay at the top. -/
def insertion (source : Bytes) (tree : Node) : Insertion :=
  let h := head source {} tree.children
  match h.imports.or h.opening with
  | some (n, following) => Insertion.behind source n following
  | none => .top

/-- The facts of a Python file. -/
def facts (path : String) (source : Bytes) (tree : Node) : FileFacts :=
  let s := scope source tree
  { path, family := .python, calls := calls source tree, logger := s.logger,
    declared := s.declared, insertion := insertion source tree, style := .es,
    fault := tree.firstFault? }

end LogHygiene.Facts.Python
