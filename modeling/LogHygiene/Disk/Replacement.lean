import LogHygiene.Disk.Basic

/-!
# Putting a file in place

A text never goes straight into the file that it is for. It is written to a **scratch file** in the same
directory, which gets the permissions of the old file and then takes its name over in one step; so what
stands at the path is the old file or the new one and never a part of either. Whatever goes wrong on the
way, the scratch file is removed again, if it can be.

Each step can fail, and `Mishaps` says which do. Without mishaps this is how a `World` answers a request
to replace a file.

**The name of a scratch file is not looked for.** It holds the number of the process and that of the write,
which goes up by one each time, whatever comes of the write. A file that has this name already is opened
as the scratch file, through a link if it is one: its text is lost, and it is moved away or removed in the end.
-/

set_option autoImplicit false

namespace LogHygiene

/-- A step on the way to a file that is in place. -/
inductive ReplaceStep where
  | create
  | write
  | sync
  /-- look up the permissions of the old file -/
  | inspect
  | permit
  | rename
  /-- remove the scratch file when another step failed -/
  | discard
  deriving DecidableEq, Repr, Inhabited

/-- What goes wrong while a file is put in place. -/
structure Mishaps where
  fault : ReplaceStep → Option FileFault := fun _ => none
  /-- how many bytes reach the scratch file when writing it fails -/
  reached : Nat := 0

/-- The name of a scratch file for the file `name`. -/
def scratchName (process : Nat) (serial : UInt64) (name : String) : String :=
  "." ++ name ++ "." ++ toString process ++ "." ++ toString serial ++ ".tmp"

namespace Disk

/-- Take away what is at a place, and nothing below it. -/
def clear (d : Disk) (p : Place) : Disk := { d with nodes := d.nodes.filter (·.1 != p) }

/-- The place of a numbered scratch file for the file at a place. -/
def scratchAt (d : Disk) (p : Place) (serial : UInt64) : Place :=
  p.dropLast ++ [scratchName d.process serial (p.getLastD "")]

/-- Whether the name of a scratch file makes it, or the path to it, longer than a disk can hold. -/
def isTooLong (path : String) (p scratch : Place) : Bool :=
  let name := (scratch.getLastD "").utf8ByteSize
  maxName < name || maxPath < path.utf8ByteSize + name - (p.getLastD "").utf8ByteSize

/-- Go on with a disk unless a step fails, and leave the disk as it is then. -/
def pass (d : Disk) (m : Mishaps) (step : ReplaceStep) : Except (FileFault × Disk) Disk :=
  match m.fault step with
  | some f => .error (f, d)
  | none => .ok d

/-- The place that is opened at a place: the same one, or where a link there leads. -/
def behind (d : Disk) (p : Place) : Except FileFault Place :=
  let name := p.getLastD ""
  d.follow true (d.steps name) maxLinks p.dropLast [name]

/-- Open a scratch file, which makes it or empties it. Answers what was opened with the disk. -/
def openScratch (d : Disk) (m : Mishaps) (scratch : Place) : Except (FileFault × Disk) (Place × Disk) := do
  let ready ← d.pass m .create
  match ready.behind scratch with
  | .error f => .error (f, ready)
  | .ok opened =>
    match ready.node? opened with
    | some (.directory _) => .error (.isDirectory, ready)
    | _ => pure (opened, ready.fill opened [])

/-- Write a text into the file that was opened. -/
def fillScratch (d : Disk) (m : Mishaps) (opened : Place) (body : Bytes) :
    Except (FileFault × Disk) Disk := do
  let reaching := if (m.fault .write).isSome then body.take m.reached else body
  let filled ← (d.fill opened reaching).pass m .write
  filled.pass m .sync

/-- Give the file that was opened the permissions of the one that the path leads to, if there is one. -/
def permitScratch (d : Disk) (m : Mishaps) (path : String) (opened : Place) :
    Except (FileFault × Disk) Disk :=
  match if (m.fault .inspect).isSome then none else d.mode? path, d.node? opened with
  | some mode, some (.file body _ modified) => do
    pure ((← d.pass m .permit).put opened (.file body mode modified))
  | _, _ => .ok d

/-- Let a scratch file take over a place, at which no directory may be. -/
def renameScratch (d : Disk) (m : Mishaps) (p scratch : Place) : Except (FileFault × Disk) Disk := do
  let ready ← d.pass m .rename
  match ready.node? p, ready.node? scratch with
  | some (.directory _), _ => .error (.isDirectory, ready)
  | _, some n => pure ((ready.clear scratch).put p n)
  | _, none => .error (.notFound, ready)

/-- The steps from a name for the scratch file to the file in place. -/
def settle (d : Disk) (m : Mishaps) (path : String) (p scratch : Place) (body : Bytes) :
    Except (FileFault × Disk) Disk := do
  let (opened, made) ← d.openScratch m scratch
  let filled ← made.fillScratch m opened body
  let permitted ← filled.permitScratch m path opened
  permitted.renameScratch m p scratch

/-- Remove a scratch file, if that goes well. A directory is not removed. -/
def discard (d : Disk) (m : Mishaps) (scratch : Place) : Disk :=
  match m.fault .discard, d.node? scratch with
  | some _, _ => d
  | none, some (.directory _) => d
  | none, _ => d.clear scratch

/-- Count a write. -/
def count (d : Disk) : Disk := { d with writes := d.writes + 1 }

/-- Put a new file where the path leads, in one step, instead of the file or link that is there. The
permissions of the file that the path led to are kept. Answers what went wrong, if anything did, and the
disk afterwards. -/
def replace (m : Mishaps) (d : Disk) (path : String) (body : Bytes) : Option FileFault × Disk :=
  match d.placeFor path with
  | .error f => (some f, d.count)
  | .ok p =>
    let scratch := d.scratchAt p d.writes
    if isTooLong path p scratch then (some .nameTooLong, d.count)
    else
      match d.count.settle m path p scratch body with
      | .ok d => (none, d)
      | .error (f, d) => (some f, d.discard m scratch)

end Disk

end LogHygiene
