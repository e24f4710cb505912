import LogHygiene.Number.Double

/-!
# JSON values and their text

A value keeps the fields of an object as a row, in order and with repetitions, because both show: what
is written comes out in the order it was put in, and a text with a field given twice is not the same
as one with the field given once.

There is one way to write a value. `compact` leaves no blank anywhere; `pretty` is the same text laid
out over lines, two spaces to a level.
-/

set_option autoImplicit false

namespace LogHygiene

/-- A JSON value. -/
inductive Json where
  | null
  | bool (b : Bool)
  | int (n : Int)
  | real (x : Double)
  | str (s : String)
  | arr (items : List Json)
  | obj (fields : List (String × Json))
  deriving Repr, Inhabited

namespace Json

/-- A natural number. -/
def nat (n : Nat) : Json := .int n

/-- The row of texts. -/
def texts (xs : List String) : Json := .arr (xs.map .str)

/-- A text, or null. -/
def text? : Option String → Json
  | some s => .str s
  | none => .null

/-- A field that is left out when there is nothing to say. -/
def optional (name : String) : Option String → List (String × Json)
  | some s => [(name, .str s)]
  | none => []

/-- One character of a text between quotes: what would end the text or break the line is escaped. -/
def escapeChar (c : Char) : List Char :=
  match c with
  | '"' => ['\\', '"']
  | '\\' => ['\\', '\\']
  | '\x08' => ['\\', 'b']
  | '\x0c' => ['\\', 'f']
  | '\n' => ['\\', 'n']
  | '\r' => ['\\', 'r']
  | '\t' => ['\\', 't']
  | c =>
    if c.toNat < 0x20 then
      ['\\', 'u', '0', '0', Nat.digitChar (c.toNat / 16), Nat.digitChar (c.toNat % 16)]
    else [c]

/-- A text between quotes. -/
def quote (s : String) : List Char := '"' :: s.toList.flatMap escapeChar ++ ['"']

/-- The text of a value that has no parts. -/
def atom : Json → List Char
  | null => "null".toList
  | bool true => "true".toList
  | bool false => "false".toList
  | int n => (toString n).toList
  | real x => (x.render .scientific).toList
  | str s => quote s
  | arr _ => ['[', ']']
  | obj _ => ['\x7b', '\x7d']

/-! ## Without blanks -/

mutual

/-- The text of a value without blanks. -/
def compactChars : Json → List Char
  | arr items => '[' :: compactItems items
  | obj fields => '\x7b' :: compactFields fields
  | other => atom other

/-- The items of an array up to its end. -/
def compactItems : List Json → List Char
  | [] => [']']
  | [j] => compactChars j ++ [']']
  | j :: rest => compactChars j ++ ',' :: compactItems rest

/-- The fields of an object up to its end. -/
def compactFields : List (String × Json) → List Char
  | [] => ['\x7d']
  | [(k, v)] => quote k ++ ':' :: compactChars v ++ ['\x7d']
  | (k, v) :: rest => quote k ++ ':' :: compactChars v ++ ',' :: compactFields rest

end

/-- The text of a value without blanks. -/
def compact (j : Json) : String := String.ofList (compactChars j)

/-! ## Over lines -/

/-- A line end and the blanks of a level. -/
def lineAt (level : Nat) : List Char := '\n' :: List.replicate (2 * level) ' '

mutual

/-- The text of a value over lines; its end stands at `level`. -/
def prettyChars (level : Nat) : Json → List Char
  | arr (j :: rest) => '[' :: lineAt (level + 1) ++ prettyItems level (j :: rest)
  | obj (f :: rest) => '\x7b' :: lineAt (level + 1) ++ prettyFields level (f :: rest)
  | other => atom other

/-- The items of an array up to its end. -/
def prettyItems (level : Nat) : List Json → List Char
  | [] => [']']
  | [j] => prettyChars (level + 1) j ++ lineAt level ++ [']']
  | j :: rest => prettyChars (level + 1) j ++ ',' :: lineAt (level + 1) ++ prettyItems level rest

/-- The fields of an object up to its end. -/
def prettyFields (level : Nat) : List (String × Json) → List Char
  | [] => ['\x7d']
  | [(k, v)] => quote k ++ ':' :: ' ' :: prettyChars (level + 1) v ++ lineAt level ++ ['\x7d']
  | (k, v) :: rest =>
    quote k ++ ':' :: ' ' :: prettyChars (level + 1) v ++ ',' :: lineAt (level + 1)
      ++ prettyFields level rest

end

/-- The text of a value over lines. -/
def pretty (j : Json) : String := String.ofList (prettyChars 0 j)

end Json

end LogHygiene
