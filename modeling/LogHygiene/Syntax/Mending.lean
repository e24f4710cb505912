import LogHygiene.Syntax.Reading

/-!
# What a grammar offers for mending broken text

Where a text stops making sense, the part before that place is known in pieces, and the part behind it as
words. `Mending` is what a grammar offers to read the text anew once repairs are known, and to take the
words one by one.
-/

set_option autoImplicit false

namespace LogHygiene.Syntax

/-- What a grammar offers for mending broken text. -/
structure Mending where
  /-- a whole file -/
  file : Rule Node
  /-- the word that stands here -/
  word : Rule Node
  /-- whether blocks are told by how far in their lines stand -/
  layout : Bool
  /-- words that are no names where a keyword could stand -/
  keywords : List String
  /-- words that close something and may be missing -/
  closers : List String
  /-- how much of a value in front of a word is put together before the word is taken -/
  grip : String → Nat

namespace Mending

/-- The words from here to the end of the text. -/
def words (m : Mending) : Nat → Reading → List Node
  | 0, _ => []
  | n + 1, r =>
    match m.word r with
    | .stuck _ => []
    | .done w r' => w :: m.words n r'

end Mending

end LogHygiene.Syntax
