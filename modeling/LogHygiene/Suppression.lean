import LogHygiene.Facts.Basic

/-!
# Suppression comments

A marker inside a comment silences the calls on the line below it. Which line that is follows from where
the **marker** stands, not the comment: in a comment over several lines every marker has its own line,
but only the one that comes first in the comment is looked at, and of two that start at the same place
the one that is configured first.
-/

set_option autoImplicit false

namespace LogHygiene

open Syntax

/-- A marker found in a comment. -/
structure Suppression where
  marker : String
  /-- the line of the marker, counted from one -/
  line : Nat
  deriving DecidableEq, Repr, Inhabited

namespace Suppression

/-- The line whose calls are silenced. -/
def target (s : Suppression) : Nat := s.line + 1

/-- The marker that comes first in a text, with its offset; the earlier one of the list on ties. -/
def firstMarker? (text : Bytes) : List String → Option (Nat × String)
  | [] => none
  | m :: rest =>
    match Bytes.indexOf? (Bytes.ofText m) text, firstMarker? text rest with
    | none, other => other
    | some at_, none => some (at_, m)
    | some at_, some (other, m') => if other < at_ then some (other, m') else some (at_, m)

/-- The suppression that a node carries, if it is a comment with a marker. -/
def ofNode? (source : Bytes) (markers : List String) (n : Node) : Option Suppression :=
  if n.kind != .comment then none
  else
    let text := Bytes.ofText (n.text source)
    (firstMarker? text markers).map fun (offset, m) =>
      ⟨m, n.span.start.row + 1 + Bytes.newlines (text.take offset)⟩

/-- The suppressions found so far, and that of another node if it carries one. -/
def note (source : Bytes) (markers : List String) (found : Array Suppression) (n : Node) :
    Array Suppression :=
  match ofNode? source markers n with
  | some s => found.push s
  | none => found

/-- Every suppression of a file, in document order. -/
def all (source : Bytes) (markers : List String) (tree : Node) : List Suppression :=
  if markers.isEmpty then []
  else (Cursor.walk.fold (fun found c => note source markers found c.node) #[] (.top tree)).toList

/-- The calls that no suppression silences. -/
def active (suppressions : List Suppression) (calls : List CallSite) : List CallSite :=
  calls.filter fun c => !suppressions.any (fun s => s.target == c.line)

end Suppression

end LogHygiene
