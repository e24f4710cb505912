import LogHygiene.Language

/-!
# Names that a logger can have

A logger is a variable of the file it is created in, so its name must be one that the family can bind:
ASCII letters, digits and `_`, with `$` in one of the families, no digit first, and no word that the
language keeps to itself.
-/

set_option autoImplicit false

namespace LogHygiene

namespace Family

/-- The words that cannot be bound. -/
def reserved : Family → List String
  | javascript =>
    ["await", "break", "case", "catch", "class", "const", "continue", "debugger", "default",
     "delete", "do", "else", "enum", "export", "extends", "false", "finally", "for", "function",
     "if", "implements", "import", "in", "instanceof", "interface", "let", "new", "null", "package",
     "private", "protected", "public", "return", "static", "super", "switch", "this", "throw",
     "true", "try", "typeof", "var", "void", "while", "with", "yield", "arguments", "eval"]
  | python =>
    ["False", "None", "True", "and", "as", "assert", "async", "await", "break", "class", "continue",
     "def", "del", "elif", "else", "except", "finally", "for", "from", "global", "if", "import",
     "in", "is", "lambda", "nonlocal", "not", "or", "pass", "raise", "return", "try", "while",
     "with", "yield"]

/-- Whether a character may start a name. -/
def startsName (family : Family) (c : Char) : Bool :=
  c.isAlpha || c == '_' || (family == javascript && c == '$')

/-- Whether a character may stand in a name behind the first. -/
def continuesName (family : Family) (c : Char) : Bool := family.startsName c || c.isDigit

/-- Whether `name` can be bound as a variable. -/
def isIdentifier (family : Family) (name : String) : Bool :=
  (match name.toList with
    | [] => false
    | c :: rest => family.startsName c && rest.all family.continuesName) &&
  !family.reserved.contains name

/-- Whether `text` can stand behind the start of a name. -/
def isIdentifierTail (family : Family) (text : String) : Bool :=
  text.toList.all family.continuesName

end Family

end LogHygiene
