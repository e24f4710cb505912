import LogHygiene.Disk.Replacement
import LogHygiene.Procedure
import LogHygiene.Shell.Run

/-!
# A world

A world answers every request from what it holds: a disk and a clock. How well that goes is said by
`Conditions`: which reads fail, what goes wrong when a file is put in place, and what outside programs
say about a text. In a calm world nothing fails but what the disk does not allow, and programs are the
ones that `Shell` knows. Under any conditions, what a program says about a text depends on the text alone.
-/

set_option autoImplicit false

namespace LogHygiene

/-- How things go outside. -/
structure Conditions where
  /-- what keeps the file at a path from being read, whatever the disk holds -/
  unreadable : String → Option FileFault := fun _ => none
  /-- what goes wrong when a file is put in place -/
  mishaps : Mishaps := {}
  /-- what outside programs do when they get a text -/
  program : SyntaxCheck → Bytes → Attempt := Shell.attempt

/-- All of the outside that a run can see. -/
structure World where
  disk : Disk := {}
  /-- the seconds since the epoch -/
  now : Nat := 1760000000
  /-- whether runs are asked to stop -/
  aborted : Bool := false
  deriving Inhabited

namespace World

/-- Keep the disk that an operation leaves, or say what went wrong. -/
def keep (w : World) : Except FileFault Disk → Option FileFault × World
  | .ok disk => (none, { w with disk })
  | .error f => (some f, w)

/-- Answer a request under some conditions. -/
def answerUnder (c : Conditions) (q : Request) (w : World) : q.Answer × World :=
  match q with
  | .now => (w.now, w)
  | .uptime => (1000 * w.now, w)
  | .isAborted => (w.aborted, w)
  | .read path => ((c.unreadable path).elim (w.disk.read path) .error, w)
  | .modified path => (w.disk.modified? path, w)
  | .isThere path => (w.disk.isThere path, w)
  | .isFile path => (w.disk.isFile path, w)
  | .list path => (w.disk.list path, w)
  | .tree path => (w.disk.tree path, w)
  | .canonical path => (w.disk.canonical path, w)
  | .replace path body =>
    let (fault, disk) := w.disk.replace c.mishaps path body
    (fault, { w with disk })
  | .overwrite path body => w.keep (w.disk.overwrite path body)
  | .remove path => w.keep (w.disk.remove path)
  | .makeDirectory path => w.keep (w.disk.makeDirectory path)
  | .judge check source => (c.program check source, w)

/-- Answer a request when all is calm. -/
def answer (q : Request) (w : World) : q.Answer × World := answerUnder {} q w

/-- Carry a procedure out in this world. -/
def carryOut {α : Type} (w : World) (p : Procedure α) : α × World := p.run answer w

end World

end LogHygiene
