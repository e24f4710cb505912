import LogHygiene.Cache.Key
import LogHygiene.Disk.Fault
import LogHygiene.Selection

/-!
# A disk

A disk holds files, directories and links, each at a **place**: the names on the way from the top. A path
is a text; which place it leads to depends on the disk, since links may stand on the way. `Disk.locate`
follows a path name by name. It is the only definition that knows about links, `.` and `..`, and every
operation goes through it.

What a program writes is stamped with a time of its own: the disk counts, and no two writes get the same
time. Permissions are kept and carried over, but they keep nobody out.
-/

set_option autoImplicit false

namespace LogHygiene

/-- The names from the top to a file. -/
abbrev Place := List String

/-- What is at a place. -/
inductive DiskNode where
  | file (body : Bytes) (mode : Nat) (modified : Instant)
  | directory (mode : Nat)
  | link (target : String)
  deriving DecidableEq, Repr, Inhabited

/-- The permissions of a new file. -/
def newFileMode : Nat := 0o644

/-- The permissions of a new directory. -/
def newDirectoryMode : Nat := 0o755

/-- A disk, as a process sees it. -/
structure Disk where
  /-- everything but the top, which is a directory -/
  nodes : List (Place × DiskNode) := []
  /-- where paths start that do not start at the top -/
  here : Place := []
  /-- the time of the next write -/
  clock : Instant := Instant.of 1700000000 0
  /-- the number of the process -/
  process : Nat := 1000
  /-- how many files the process began to put in place, as far as 64 bits can count -/
  writes : UInt64 := 0
  deriving DecidableEq, Repr, Inhabited

namespace Disk

/-- What is at a place. -/
def node? (d : Disk) (p : Place) : Option DiskNode :=
  if p.isEmpty then some (.directory newDirectoryMode) else d.nodes.lookup p

/-- Put something at a place, instead of what is there. -/
def put (d : Disk) (p : Place) (n : DiskNode) : Disk :=
  { d with nodes := (p, n) :: d.nodes.filter (·.1 != p) }

/-- Take away what is at a place and below it. -/
def erase (d : Disk) (p : Place) : Disk :=
  { d with nodes := d.nodes.filter (!p.isPrefixOf ·.1) }

/-- How many links are followed on one path. -/
def maxLinks : Nat := 40

/-- The length in bytes that no name on a disk exceeds. -/
def maxName : Nat := 255

/-- The length in bytes that no path exceeds. -/
def maxPath : Nat := 4095

/-- Follow the parts of a path from a place. `links` more links may be followed; `whole` says whether
one at the very end is. The place that is found may be empty, but what it is in is a directory. -/
def follow (d : Disk) (whole : Bool) : Nat → Nat → Place → List String → Except FileFault Place
  | 0, _, _, _ => .error .tooManyLinks
  | _ + 1, _, at_, [] => .ok at_
  | n + 1, links, at_, part :: rest =>
    match d.node? at_ with
    | none => .error .notFound
    | some (.directory _) =>
      if part == "" || part == "." then d.follow whole n links at_ rest
      else if part == ".." then d.follow whole n links at_.dropLast rest
      else if part.utf8ByteSize > maxName then .error .nameTooLong
      else
        let there := at_ ++ [part]
        match d.node? there with
        | some (.link target) =>
          if rest.isEmpty && !whole then .ok there
          else match links with
            | 0 => .error .tooManyLinks
            | links + 1 =>
              d.follow whole n links (if Path.isAbsolute target then [] else at_)
                (Path.parts target ++ rest)
        | _ => d.follow whole n links there rest
    | some _ => .error .notDirectory

/-- The number of steps that following a path can take: its own parts, and for each link that may be
followed those of the longest one on the disk. -/
def steps (d : Disk) (path : String) : Nat :=
  let longest := d.nodes.foldl (fun m e => match e.2 with
    | .link target => max m (Path.parts target).length
    | _ => m) 0
  (Path.parts path).length + maxLinks * longest + 2

/-- The place that a path leads to. -/
def locate (d : Disk) (whole : Bool) (path : String) : Except FileFault Place :=
  if path == "" then .error .notFound
  else if path.toList.contains '\x00' then .error .zeroByte
  else if path.utf8ByteSize > maxPath then .error .nameTooLong
  else d.follow whole (d.steps path) maxLinks (if Path.isAbsolute path then [] else d.here)
    (Path.parts path)

/-- What a path leads to, links followed. -/
def visit (d : Disk) (path : String) : Except FileFault (Place × DiskNode) := do
  let p ← d.locate true path
  match d.node? p with
  | some n => pure (p, n)
  | none => .error .notFound

/-! ## Looking -/

/-- The bytes of a file. -/
def read (d : Disk) (path : String) : Except FileFault Bytes := do
  match ← d.visit path with
  | (_, .file body _ _) => pure body
  | _ => .error .isDirectory

/-- When a file was last written. -/
def modified? (d : Disk) (path : String) : Option Instant :=
  match d.visit path with
  | .ok (_, .file _ _ t) => some t
  | .ok (_, .directory _) => some d.clock
  | _ => none

/-- Whether a path leads anywhere, links followed. -/
def isThere (d : Disk) (path : String) : Bool := (d.visit path).toOption.isSome

/-- Whether a path leads to a file. -/
def isFile (d : Disk) (path : String) : Bool :=
  match d.visit path with
  | .ok (_, .file _ _ _) => true
  | _ => false

/-- The permissions of what a path leads to. -/
def mode? (d : Disk) (path : String) : Option Nat :=
  match d.visit path with
  | .ok (_, .file _ m _) => some m
  | .ok (_, .directory m) => some m
  | _ => none

/-- The path without links, `.` and `..`. -/
def canonical (d : Disk) (path : String) : Except FileFault String := do
  let (p, _) ← d.visit path
  pure ("/" ++ "/".intercalate p)

/-- The names in a directory. -/
def entries (d : Disk) (p : Place) : List String :=
  d.nodes.filterMap fun (q, _) => if q.dropLast == p && !q.isEmpty then q.getLast? else none

/-- The names in the directory that a path leads to; none if it leads to no directory. -/
def list (d : Disk) (path : String) : List String :=
  match d.visit path with
  | .ok (p, .directory _) => d.entries p
  | _ => []

/-- What is at and below a place, at most so deep. -/
def treeAt (d : Disk) : Nat → Place → DirectoryTree
  | 0, _ => .directory []
  | n + 1, p =>
    match d.node? p with
    | some (.directory _) => .directory ((d.entries p).map fun e => (e, d.treeAt n (p ++ [e])))
    | some (.file _ _ _) => .file
    | _ => .link

/-- What is at and below a path. A link at its end is followed if it leads to a directory, and it must
lead somewhere. -/
def tree (d : Disk) (path : String) : Except FileFault DirectoryTree := do
  let depth := d.nodes.foldl (fun m e => max m e.1.length) 0 + 2
  let p ← d.locate false path
  match d.node? p with
  | none => .error .notFound
  | some (.link _) =>
    match ← d.visit path with
    | (q, .directory _) => pure (d.treeAt depth q)
    | _ => pure .link
  | some _ => pure (d.treeAt depth p)

/-! ## Writing -/

/-- The disk after time went by. -/
def tick (d : Disk) : Disk := { d with clock := d.clock + 1 }

/-- The directory that a new file at a path is put into, and its place. -/
def placeFor (d : Disk) (path : String) : Except FileFault Place := do
  let p ← d.locate false path
  match d.node? p.dropLast with
  | some (.directory _) => pure p
  | _ => .error .notFound

/-- The permissions that a file at a place has when it was written: its own if it was there before. -/
def modeAt (d : Disk) (p : Place) : Nat :=
  match d.node? p with
  | some (.file _ mode _) => mode
  | _ => newFileMode

/-- Write the file at a place, or make it. -/
def fill (d : Disk) (p : Place) (body : Bytes) : Disk :=
  (d.put p (.file body (d.modeAt p) d.clock)).tick

/-- Write into the file that a path leads to; make it if it is not there. -/
def overwrite (d : Disk) (path : String) (body : Bytes) : Except FileFault Disk := do
  let p ← d.locate true path
  match d.node? p with
  | some (.directory _) => .error .isDirectory
  | _ => pure (d.fill p body)

/-- Remove a file or a link. -/
def remove (d : Disk) (path : String) : Except FileFault Disk := do
  let p ← d.locate false path
  match d.node? p with
  | none => .error .notFound
  | some (.directory _) => .error .isDirectory
  | some _ => pure (d.erase p)

/-- Remove whatever is at a path. -/
def removeAll (d : Disk) (path : String) : Except FileFault Disk := do
  let p ← d.locate false path
  match d.node? p with
  | none => .error .notFound
  | some _ => pure (d.erase p)

/-- Make the directories on the way of a path that are not there. -/
def makeParts (d : Disk) (before : String) : List String → Except FileFault Disk
  | [] => .ok d
  | part :: rest => do
    let path := before ++ part
    let again := path ++ "/"
    if part == "" || part == "." || part == ".." then d.makeParts again rest
    else
      let p ← d.locate true path
      match d.node? p with
      | some (.directory _) => d.makeParts again rest
      | some _ => .error (if rest.isEmpty then .exists else .notDirectory)
      | none => (d.put p (.directory newDirectoryMode)).makeParts again rest

/-- Make a directory and those on the way to it, as far as they are not there. -/
def makeDirectory (d : Disk) (path : String) : Except FileFault Disk :=
  if path == "" then .ok d else d.makeParts "" (Path.parts path)

/-- Put a link to `target` at a path where nothing is. -/
def makeLink (d : Disk) (path target : String) : Except FileFault Disk := do
  let p ← d.placeFor path
  match d.node? p with
  | none => pure (d.put p (.link target))
  | some _ => .error .exists

/-- Change the permissions of what a path leads to. -/
def changeMode (d : Disk) (path : String) (mode : Nat) : Except FileFault Disk := do
  match ← d.visit path with
  | (p, .file body _ t) => pure (d.put p (.file body mode t))
  | (p, _) => pure (d.put p (.directory mode))

/-- Change the time at which the file that a path leads to was written. -/
def stamp (d : Disk) (path : String) (modified : Instant) : Except FileFault Disk := do
  match ← d.visit path with
  | (p, .file body mode _) => pure (d.put p (.file body mode modified))
  | _ => pure d

/-- Every file at or below a path whose directories, links not followed, satisfy `enters`. -/
def filesBelow (d : Disk) (enters : Place → Bool) (p : Place) : List (Place × Bytes) :=
  d.nodes.filterMap fun (q, n) =>
    match n with
    | .file body _ _ =>
      let inner := q.drop p.length
      if p.isPrefixOf q && (List.range inner.length).all (fun k => enters (p ++ inner.take k)) then
        some (q, body)
      else none
    | _ => none

end Disk

end LogHygiene
