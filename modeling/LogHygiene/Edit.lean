import LogHygiene.Text.Utf8

/-!
# Edits

An edit replaces a stretch of a file by a text; an insertion replaces the empty stretch. Edits are
given all at once and speak about the file as it was, so their order in the list matters only where
several of them insert at one place.

Edits are refused as a whole when one of them does not fit the file or when two of them overlap, and
the first rule looks at every edit before the second looks at any pair.

Applying edits is defined twice. `splice` copies the file once, from left to right, and is what runs.
`spliceFromBack` carries the edits out one at a time, the last one first, which is what applying them
*means*: an edit that comes later in the file never moves the place of an earlier one.
-/

set_option autoImplicit false

namespace LogHygiene

/-- Replace the bytes from `start` up to `stop` by `text`. -/
structure Edit where
  start : Nat
  stop : Nat
  text : Bytes
  deriving DecidableEq, Repr, Inhabited

/-- Why edits cannot be applied. -/
inductive EditFault where
  | overlap (firstStop secondStart : Nat)
  | outOfBounds (start stop length : Nat)
  | splitsCharacter (offset : Nat)
  deriving DecidableEq, Repr, Inhabited

/-- The fault in words. -/
def EditFault.message : EditFault → String
  | overlap a b => s!"edits overlap at bytes {a} and {b}"
  | outOfBounds a b n => s!"edit {a}..{b} is outside the {n} byte source"
  | splitsCharacter n => s!"edit at byte {n} splits a UTF-8 character"

namespace Edit

/-- Put `text` into the file at an offset. -/
def insert (offset : Nat) (text : Bytes) : Edit := ⟨offset, offset, text⟩

/-- Whether one edit may come before another: by where it starts, then by where it stops. -/
def before (a b : Edit) : Bool := a.start < b.start || (a.start == b.start && a.stop ≤ b.stop)

/-- The edits from the front of the file to its back; those at one place keep their order. -/
def inOrder (edits : List Edit) : List Edit := edits.mergeSort before

/-- What keeps an edit from fitting a file, if anything does. -/
def misfit? (source : Bytes) (e : Edit) : Option EditFault :=
  if e.start > e.stop || e.stop > source.length then
    some (.outOfBounds e.start e.stop source.length)
  else if !source.isBoundary e.start then some (.splitsCharacter e.start)
  else if !source.isBoundary e.stop then some (.splitsCharacter e.stop)
  else none

/-- The first two neighbours in a row of edits that overlap. -/
def overlap? : List Edit → Option EditFault
  | a :: b :: rest => if b.start < a.stop then some (.overlap a.stop b.start) else overlap? (b :: rest)
  | _ => none

/-- The file from `cursor` on, with ordered edits carried out. -/
def splice (source : Bytes) : Nat → List Edit → Bytes
  | cursor, [] => source.drop cursor
  | cursor, e :: rest => source.slice cursor e.start ++ e.text ++ splice source e.stop rest

/-- The file with one edit carried out. -/
def carryOut (source : Bytes) (e : Edit) : Bytes :=
  source.take e.start ++ e.text ++ source.drop e.stop

/-- The file with ordered edits carried out one at a time, from the last to the first. -/
def spliceFromBack (source : Bytes) (edits : List Edit) : Bytes :=
  edits.foldr (fun e s => carryOut s e) source

/-- The fault of a row of edits, if there is one. -/
def fault? (source : Bytes) (ordered : List Edit) : Option EditFault :=
  (ordered.findSome? (misfit? source)).or (overlap? ordered)

/-- The file with all edits carried out. -/
def applyAll (source : Bytes) (edits : List Edit) : Except EditFault Bytes :=
  let ordered := inOrder edits
  match fault? source ordered with
  | some f => .error f
  | none => .ok (splice source 0 ordered)

end Edit

end LogHygiene
