import LogHygiene.Facts.JavaScript
import LogHygiene.Facts.Python
import LogHygiene.Syntax.Tree
import LogHygiene.Suppression

/-!
# From a file to its facts
-/

set_option autoImplicit false

namespace LogHygiene

/-- A file that was read. -/
structure ParsedFile where
  path : String
  source : Bytes
  grammar : Grammar
  tree : Syntax.Node

namespace ParsedFile

/-- Read a file with the grammar for its extension, if there is one. -/
def read? (path : String) (source : Bytes) : Option ParsedFile :=
  (Grammar.ofPath? path).map fun g => ⟨path, source, g, g.tree source⟩

/-- The facts of a file. -/
def facts (f : ParsedFile) : FileFacts :=
  match f.grammar with
  | .python => Facts.Python.facts f.path f.source f.tree
  | g => Facts.JavaScript.facts f.path g f.source f.tree

/-- Where the text of a file first breaks the grammar. -/
def fault? (f : ParsedFile) : Option Syntax.Span := f.tree.firstFault?

end ParsedFile

end LogHygiene
