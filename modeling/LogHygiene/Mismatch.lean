import LogHygiene.Text.Quoted

/-!
# How a document fails to fit what is expected of it

Settings and stored results are read from documents. A document can be well formed and still not say
what is expected, and the ways in which that happens are the same for every kind of document. The
wording is in one place, `Mismatch.message`; where in the document it happened is for the reader of
that kind of document to say.
-/

set_option autoImplicit false

namespace LogHygiene

/-- What a document holds where something else was expected. -/
inductive Found where
  | bool (b : Bool)
  | integer (n : Int)
  /-- an integer that needs a wider type, which is named -/
  | wide (n : Int) (type : String)
  /-- a number with a fraction, as it is written -/
  | real (text : String)
  | text (s : String)
  /-- something that is called by its kind alone -/
  | kind (name : String)
  deriving DecidableEq, Repr, Inhabited

/-- What was found, in words. -/
def Found.words : Found → String
  | bool b => "boolean \x60" ++ (if b then "true" else "false") ++ "\x60"
  | integer n => "integer \x60" ++ toString n ++ "\x60"
  | wide n type => "integer \x60" ++ toString n ++ "\x60 as " ++ type
  | real written => "floating point \x60" ++ written ++ "\x60"
  | text s => "string " ++ Text.quoted s
  | kind name => name

/-- A way not to fit. -/
inductive Mismatch where
  | wrongType (found : Found) (expected : String)
  | wrongValue (found : Found) (expected : String)
  | wrongLength (length : Nat) (expected : String)
  | unknownField (name : String) (fields : List String)
  | unknownVariant (name : String) (variants : List String)
  | missingField (name : String)
  | duplicateField (name : String)
  deriving DecidableEq, Repr, Inhabited

namespace Mismatch

/-- A name between marks. -/
def ticked (name : String) : String := "\x60" ++ name ++ "\x60"

/-- The names of which one was expected. -/
def choice : List String → String
  | [a] => ticked a
  | [a, b] => ticked a ++ " or " ++ ticked b
  | names => "one of " ++ ", ".intercalate (names.map ticked)

/-- A mismatch in words. -/
def message : Mismatch → String
  | wrongType found expected => "invalid type: " ++ found.words ++ ", expected " ++ expected
  | wrongValue found expected => "invalid value: " ++ found.words ++ ", expected " ++ expected
  | wrongLength n expected => "invalid length " ++ toString n ++ ", expected " ++ expected
  | unknownField name fields => "unknown field " ++ ticked name ++ ", expected " ++ choice fields
  | unknownVariant name variants =>
    "unknown variant " ++ ticked name ++ ", expected " ++ choice variants
  | missingField name => "missing field " ++ ticked name
  | duplicateField name => "duplicate field " ++ ticked name

end Mismatch

end LogHygiene
