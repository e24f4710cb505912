import LogHygiene.Disk.Basic
import LogHygiene.SyntaxCheck.Verdict

/-!
# Procedures: what is done to the outside

Everything this library does to files, clocks and other programs it does by **requests**. A procedure is
a row of requests in which each one may depend on the answers to those before it; it says nothing about
how they are answered. One answerer is a `World`; others can refuse requests, or answer those of several
procedures in turns, since every procedure can be stopped and continued between any two requests.
-/

set_option autoImplicit false

namespace LogHygiene

/-- Something that is asked of the outside. -/
inductive Request where
  /-- the seconds since the epoch -/
  | now
  /-- milliseconds on a clock that is never set -/
  | uptime
  /-- whether the run was asked to stop -/
  | isAborted
  | read (path : String)
  | modified (path : String)
  | isThere (path : String)
  | isFile (path : String)
  | list (path : String)
  | tree (path : String)
  | canonical (path : String)
  /-- put a file in place in one step -/
  | replace (path : String) (body : Bytes)
  /-- write into a file -/
  | overwrite (path : String) (body : Bytes)
  | remove (path : String)
  | makeDirectory (path : String)
  /-- run an outside program over a text -/
  | judge (check : SyntaxCheck) (source : Bytes)
  deriving DecidableEq, Repr, Inhabited

/-- What a request is answered with. A write is answered with what went wrong, if anything did. -/
abbrev Request.Answer : Request → Type
  | now => Nat
  | uptime => Nat
  | isAborted => Bool
  | read _ => Except FileFault Bytes
  | modified _ => Option Instant
  | isThere _ => Bool
  | isFile _ => Bool
  | list _ => List String
  | tree _ => Except FileFault DirectoryTree
  | canonical _ => Except FileFault String
  | replace _ _ => Option FileFault
  | overwrite _ _ => Option FileFault
  | remove _ => Option FileFault
  | makeDirectory _ => Option FileFault
  | judge _ _ => Attempt

/-- A row of requests that ends in a value. -/
inductive Procedure (α : Type) where
  | done (value : α)
  | ask (request : Request) (next : request.Answer → Procedure α)

namespace Procedure

variable {α β σ : Type}

/-- One procedure after another. -/
protected def bind : Procedure α → (α → Procedure β) → Procedure β
  | done a, f => f a
  | ask q next, f => ask q fun answer => (next answer).bind f

instance : Monad Procedure where
  pure := done
  bind := Procedure.bind

/-- The procedure that makes one request and ends in its answer. -/
def request (q : Request) : Procedure q.Answer := ask q done

/-- Carry a procedure out: every request is answered from a state, which may change. -/
def run (answer : (q : Request) → σ → q.Answer × σ) : Procedure α → σ → α × σ
  | done a, s => (a, s)
  | ask q next, s =>
    let (reply, s) := answer q s
    (next reply).run answer s

/-- Do the same for each of a row of things, one after another. -/
def each (f : α → Procedure β) : List α → Procedure (List β)
  | [] => done []
  | a :: rest => do
    let b ← f a
    let more ← each f rest
    pure (b :: more)

end Procedure

end LogHygiene
