import LogHygiene.Json.Basic
import LogHygiene.Mismatch

/-!
# Reading values out of JSON

A decoder turns a JSON value into something with meaning, or says how the value fails to fit. A record
may be written as an object, whose unknown fields do not count, or as an array of its fields in order;
either way it is read field by field into a value that stands for the fields not read yet.
-/

set_option autoImplicit false

namespace LogHygiene.Json

variable {α : Type}

/-- What a value is, for a message. -/
def found : Json → Found
  | null => .kind "null"
  | bool b => .bool b
  | int n => .integer n
  | real x => .real (x.render .scientific)
  | str s => .text s
  | arr _ => .kind "sequence"
  | obj _ => .kind "map"

/-- The message that something else was expected. -/
def refuse (expected : String) (j : Json) : Except Mismatch α :=
  .error (.wrongType j.found expected)

/-- Read a truth value. -/
def toBool : Json → Except Mismatch Bool
  | bool b => .ok b
  | j => j.refuse "a boolean"

/-- Read a text. -/
def toText : Json → Except Mismatch String
  | str s => .ok s
  | j => j.refuse "a string"

/-- A number that is too large for its type is seen as the nearest one with a fraction. -/
def asReal (n : Int) : Found :=
  match Double.ofDecimal? ⟨n < 0, n.natAbs, 0⟩ with
  | some x => .real (x.render .scientific)
  | none => .integer n

/-- Read a natural number of 64 bits. -/
def toNatural (expected : String) : Json → Except Mismatch Nat
  | int n =>
    if 0 ≤ n && n.toNat < Nat.pow 2 64 then .ok n.toNat
    else if n < 0 && n.natAbs ≤ Nat.pow 2 63 then .error (.wrongValue (.integer n) expected)
    else .error (.wrongType (asReal n) expected)
  | j => j.refuse expected

/-- Read a row. -/
def toList (decode : Json → Except Mismatch α) : Json → Except Mismatch (List α)
  | arr items => items.mapM decode
  | j => j.refuse "a sequence"

/-- Read a value that may be null. -/
def toOption (decode : Json → Except Mismatch α) : Json → Except Mismatch (Option α)
  | null => .ok none
  | j => (decode j).map some

/-- Read one of several values by its name: the name as a text, or as the only field of an object that
holds null. -/
def toOneOf (all : List α) (label : α → String) (j : Json) : Except Mismatch α :=
  let pick (name : String) : Except Mismatch α :=
    match all.find? (fun a => label a == name) with
    | some a => .ok a
    | none => .error (.unknownVariant name (all.map label))
  match j with
  | str s => pick s
  | obj [(name, rest)] => do
    let a ← pick name
    match rest with
    | null => pure a
    | other => other.refuse "unit"
  | obj _ => .error (.wrongValue (.kind "map") "map with a single key")
  | other => other.refuse "string or map"

/-- How a record is read. -/
structure RecordType (α : Type) where
  name : String
  /-- the fields, in the order in which they are declared -/
  fields : List String
  /-- the fields that must be there -/
  required : List String
  /-- read a field into the record -/
  read : String → α → Json → Except Mismatch α

namespace RecordType

variable (t : RecordType α)

/-- What is expected where a record is. -/
def expected : String := "struct " ++ t.name

/-- What is expected of an array that holds a record. -/
def expectedLength : String :=
  t.expected ++ " with " ++ toString t.fields.length ++
    (if t.fields.length == 1 then " element" else " elements")

/-- Read the fields of an object; answers also with their names. -/
def readFields : List String → α → List (String × Json) → Except Mismatch (List String × α)
  | seen, a, [] => .ok (seen, a)
  | seen, a, (name, j) :: rest =>
    if !t.fields.contains name then readFields seen a rest
    else if seen.contains name then .error (.duplicateField name)
    else do
      let a ← t.read name a j
      readFields (name :: seen) a rest

/-- Read the items of an array as the fields of a record, in order. -/
def readItems (length : Nat) : List String → α → List Json → Except Mismatch α
  | [], a, [] => .ok a
  | [], _, _ :: _ => .error (.wrongLength length "fewer elements in array")
  | name :: names, a, [] =>
    if t.required.contains name then .error (.wrongLength length t.expectedLength)
    else readItems length names a []
  | name :: names, a, j :: rest => do
    let a ← t.read name a j
    readItems length names a rest

/-- Read a record, over the values that its fields have when they are not given. -/
def decode (start : α) : Json → Except Mismatch α
  | obj fields => do
    let (seen, a) ← t.readFields [] start fields
    match t.required.find? (!seen.contains ·) with
    | some name => .error (.missingField name)
    | none => .ok a
  | arr items => t.readItems items.length t.fields start items
  | j => j.refuse t.expected

end RecordType

end LogHygiene.Json
