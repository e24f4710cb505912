/-!
# Paths

A path is a text, and it is the text that is shown and hashed. What it names is its **components**:
the parts between slashes, where empty parts and the part `.` do not count, except that a path may
start at the root or with `.`. Paths are ordered and compared by components; nothing is looked up, and
`..` is a component like any other.
-/

set_option autoImplicit false

namespace LogHygiene

/-- One step of a path. -/
inductive Component where
  | root
  | current
  | parent
  | named (name : String)
  deriving DecidableEq, Repr, Inhabited

namespace Component

/-- The place of a kind of component in the order. -/
private def rank : Component → Nat
  | root => 0
  | current => 1
  | parent => 2
  | named _ => 3

/-- Root first, then `.`, then `..`, then names by their bytes. -/
protected def compare (a b : Component) : Ordering :=
  match a, b with
  | named x, named y => compareOfLessAndEq x y
  | _, _ => compare a.rank b.rank

end Component

namespace Path

/-- The parts between slashes. -/
def parts (path : String) : List String :=
  (path.toList.splitOn '/').map String.ofList

/-- Whether the path starts at the root. -/
def isAbsolute (path : String) : Bool := path.toList.head? == some '/'

/-- The component of one part that does not come first. -/
def component? (part : String) : Option Component :=
  if part == "" || part == "." then none
  else if part == ".." then some .parent
  else some (.named part)

/-- The components of a path. -/
def components (path : String) : List Component :=
  let ps := parts path
  if isAbsolute path then .root :: ps.filterMap component?
  else if ps.head? == some "." then .current :: ps.filterMap component?
  else ps.filterMap component?

/-- The order of paths. -/
def compareComponents : List Component → List Component → Ordering
  | [], [] => .eq
  | [], _ :: _ => .lt
  | _ :: _, [] => .gt
  | a :: as, b :: bs => (a.compare b).then (compareComponents as bs)

/-- The order of paths by their components. -/
protected def compare (a b : String) : Ordering :=
  compareComponents (components a) (components b)

/-- The last component, if it is a name. -/
def fileName? (path : String) : Option String :=
  match (components path).getLast? with
  | some (.named n) => some n
  | _ => none

/-- The text behind the last dot of the file name. A dot in front does not count. -/
def extension? (path : String) : Option String := do
  let cs := (← fileName? path).toList
  let back := cs.reverse
  let ext := back.takeWhile (· != '.')
  let stem := (back.dropWhile (· != '.')).drop 1
  if back.contains '.' && !stem.isEmpty then some (String.ofList ext.reverse) else none

/-- `path` seen from the directory `base`; `path` itself if it is absolute. -/
def join (base path : String) : String :=
  if isAbsolute path || base == "" then path
  else if base.toList.getLast? == some '/' then base ++ path
  else base ++ "/" ++ path

/-- Drop `n` components off the parts of a path. -/
def dropComponents : Nat → List String → List String
  | 0, ps => ps
  | _ + 1, [] => []
  | n + 1, p :: ps =>
    if (component? p).isSome then dropComponents n ps else dropComponents (n + 1) ps

/-- Parts without meaning at the two ends. -/
def trimParts (ps : List String) : List String :=
  let hollow (p : String) := (component? p).isNone
  ((ps.dropWhile hollow).reverse.dropWhile hollow).reverse

/-- What is left of a path behind the components of `base`, as it is written in the path. -/
def stripBase? (base path : String) : Option String :=
  let bs := components base
  let cs := components path
  if bs.isPrefixOf cs then
    let hollow (p : String) := (component? p).isNone
    if bs.isEmpty then
      let ps := parts path
      let kept := (ps.reverse.dropWhile hollow).reverse
      some (if kept.all hollow then (if isAbsolute path then "/" else if ps.head? == some "." then "."
        else "") else "/".intercalate kept)
    else
      let named := bs.filter (fun c => c != .root && c != .current)
      some ("/".intercalate (trimParts (dropComponents named.length (parts path))))
  else none

/-- The path relative to a project root, as it is shown and matched: with slashes, and without `./` in
front. A path outside the root is kept as it is. -/
def relative (root path : String) : String :=
  let inside := (stripBase? root path).getD path
  let slashed := inside.toList.map (fun c => if c == '\\' then '/' else c)
  let rec strip : List Char → List Char
    | '.' :: '/' :: rest => strip rest
    | cs => cs
  String.ofList (strip slashed)

end Path

end LogHygiene
