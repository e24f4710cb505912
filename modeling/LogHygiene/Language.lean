import LogHygiene.Path

/-!
# Languages

Two **families** of languages share rules and settings; four **grammars** read them. The extension of a
file decides the grammar, and nothing else does: the content of a file is never asked.
-/

set_option autoImplicit false

namespace LogHygiene

/-- Languages that share detection rules, statement templates and settings. -/
inductive Family where
  | javascript
  | python
  deriving DecidableEq, Repr, Inhabited

namespace Family

/-- Every family, in the order in which they are listed. -/
def all : List Family := [javascript, python]

/-- The name of a family. -/
def label : Family → String
  | javascript => "javascript"
  | python => "python"

/-- The extensions of a family's files. -/
def extensions : Family → List String
  | javascript => ["js", "jsx", "mjs", "cjs", "ts", "mts", "cts", "tsx"]
  | python => ["py"]

end Family

/-- A grammar that reads files. -/
inductive Grammar where
  | javascript
  | typescript
  /-- the typed dialect with markup -/
  | tsx
  | python
  deriving DecidableEq, Repr, Inhabited

namespace Grammar

/-- The grammar for an extension. -/
def ofExtension? (ext : String) : Option Grammar :=
  if ["js", "jsx", "mjs", "cjs"].contains ext then some javascript
  else if ["ts", "mts", "cts"].contains ext then some typescript
  else if ext == "tsx" then some tsx
  else if ext == "py" then some python
  else none

/-- The grammar for a file. -/
def ofPath? (path : String) : Option Grammar := (Path.extension? path).bind ofExtension?

/-- The family that a grammar belongs to. -/
def family : Grammar → Family
  | python => .python
  | _ => .javascript

end Grammar

/-- Every extension that a grammar reads. -/
def registeredExtensions : List String := Family.all.flatMap Family.extensions

end LogHygiene
