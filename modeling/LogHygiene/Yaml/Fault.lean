/-!
# Places in a YAML text, and what can be wrong with one

A fault has a place, and often says what was being read when it was met and where that began. In
messages lines and columns count from one; the very start of a text is never named, since a message
about a text as a whole would look like one about its first character.
-/

set_option autoImplicit false

namespace LogHygiene.Yaml

/-- A place: characters before it, lines before it, characters before it on its line. -/
structure Mark where
  index : Nat
  line : Nat
  column : Nat
  deriving DecidableEq, Repr, Inhabited

namespace Mark

/-- The start of a text. -/
def start : Mark := ⟨0, 0, 0⟩

/-- Whether the place is named in messages. -/
def isNamed (m : Mark) : Bool := m.line != 0 || m.column != 0

/-- The place in words. -/
def words (m : Mark) : String := s!"line {m.line + 1} column {m.column + 1}"

/-- What is put behind a message about this place. -/
def suffix (m : Mark) : String := if m.isNamed then " at " ++ m.words else ""

end Mark

/-- What is wrong. -/
inductive Problem where
  /-- something had to stand here -/
  | missing (what : String)
  /-- something had to be found on the way here -/
  | notFound (what : String)
  /-- something stands here that must not -/
  | met (what : String)
  /-- something that has no place here -/
  | misplaced (what : String)
  | unclosedTag
  | noEscapedByte
  deriving DecidableEq, Repr, Inhabited

/-- The problem in words. -/
def Problem.words : Problem → String
  | missing what => "did not find expected " ++ what
  | notFound what => "could not find expected " ++ what
  | met what => "found " ++ what
  | misplaced what => what ++ " are not allowed in this context"
  | unclosedTag => "did not find the expected '>'"
  | noEscapedByte => "did not find URI escaped octet"

/-- What was being read when a fault was met. -/
inductive Activity where
  | scanning (what : String)
  | parsing (what : String)
  deriving DecidableEq, Repr, Inhabited

/-- The activity in words. -/
def Activity.words : Activity → String
  | scanning what => "while scanning " ++ what
  | parsing what => "while parsing " ++ what

/-- A fault of a text. -/
inductive Fault where
  | grammar (problem : Problem) (place : Mark) (context : Option (Activity × Mark))
  /-- a character that no text may hold, and the bytes in front of it -/
  | controlCharacter (offset : Nat)
  /-- a reference to a name that nothing bears -/
  | unknownAnchor (place : Mark)
  deriving DecidableEq, Repr, Inhabited

namespace Fault

/-- The end of a message about a fault met at `place`: what was being read, and where that began. -/
def contextWords (place : Mark) : Option (Activity × Mark) → String
  | none => ""
  | some (activity, began) =>
    let there := began.isNamed && (began.line != place.line || began.column != place.column)
    ", " ++ activity.words ++ (if there then began.suffix else "")

/-- The fault in words. -/
def message : Fault → String
  | grammar problem place context => problem.words ++ place.suffix ++ contextWords place context
  | controlCharacter offset =>
    "control characters are not allowed" ++
      (if offset == 0 then "" else " at position " ++ toString offset)
  | unknownAnchor place => "unknown anchor" ++ place.suffix

end Fault

end LogHygiene.Yaml
