import LogHygiene.Config.Check
import LogHygiene.Path

/-!
# Which files are looked at

Files are named one by one, or found below the root of the project. A file is found if a grammar reads
it, the patterns ask for it and no pattern leaves it out; whole directories are passed over when their
name says that what is in them was not written here, and so is the directory of stored results.

Either way the files come sorted by components and none comes twice.
-/

set_option autoImplicit false

namespace LogHygiene

/-! ## Directory trees -/

/-- What is found below a directory. Links are found but never followed. -/
inductive DirectoryTree where
  | file
  | link
  | directory (entries : List (String × DirectoryTree))
  deriving Repr, Inhabited

namespace Selection

/-! ## Files named one by one -/

/-- Insert a path into a sorted row. It takes the place of one with the same components. -/
def insertSorted (path : String) : List String → List String
  | [] => [path]
  | p :: rest =>
    match Path.compare path p with
    | .lt => path :: p :: rest
    | .eq => path :: rest
    | .gt => p :: insertSorted path rest

/-- Paths seen from the root, sorted by components; of those that are equal, the last. -/
def explicit (root : String) (paths : List String) : List String :=
  paths.foldl (fun sorted p => insertSorted (Path.join root p) sorted) []

/-! ## Files found below the root -/

/-- Directories that are never entered. -/
def deniedDirectories : List String :=
  ["node_modules", ".git", ".hg", ".svn", "dist", "build", "coverage", ".next", "out", "target",
   "vendor", "__pycache__", ".venv", "venv", ".tox", ".mypy_cache", ".pytest_cache"]

/-- What to look for, and where. -/
structure Selector where
  root : String
  includes : List String
  excludes : List String
  cacheDirectory : String
  deriving DecidableEq, Repr, Inhabited

namespace Selector

/-- The selector of a project. Patterns, if there are any, take the place of the configured ones. -/
def ofConfig (root : String) (c : Config) (patterns : List String) : Except ConfigFault Selector := do
  let includes := if patterns.isEmpty then c.includes else patterns
  requireGlobs (if patterns.isEmpty then "include" else "patterns") includes
  requireGlobs "exclude" c.excludes
  pure ⟨root, includes, c.excludes, Path.join root c.cache.directory⟩

/-- Whether a directory below the root is passed over. -/
def denies (s : Selector) (path name : String) : Bool :=
  deniedDirectories.contains name ||
    Path.components path == Path.components s.cacheDirectory

/-- Whether a file is looked for. -/
def accepts (s : Selector) (path : String) : Bool :=
  (Grammar.ofPath? path).isSome &&
    let relative := Path.relative s.root path
    Glob.anyAccepts s.includes relative && !Glob.anyAccepts s.excludes relative

/-- The files below a directory that are looked for. -/
def filesBelow (s : Selector) (path : String) : List (String × DirectoryTree) → List String
  | [] => []
  | (name, .directory entries) :: rest =>
    let below := Path.join path name
    (if s.denies below name then [] else s.filesBelow below entries) ++ s.filesBelow path rest
  | (name, .file) :: rest =>
    let below := Path.join path name
    (if s.accepts below then [below] else []) ++ s.filesBelow path rest
  | (_, .link) :: rest => s.filesBelow path rest

/-- The files at and below a path that are looked for. The top is never passed over. -/
def filesIn (s : Selector) (path : String) : DirectoryTree → List String
  | .file => if s.accepts path then [path] else []
  | .link => []
  | .directory entries => s.filesBelow path entries

/-- The files of a project that are looked for, sorted by components. -/
def collect (s : Selector) (tree : DirectoryTree) : List String :=
  (s.filesIn s.root tree).mergeSort fun a b => Path.compare a b != .gt

end Selector

end Selection

end LogHygiene
