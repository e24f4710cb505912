import LogHygiene.Language
import LogHygiene.Syntax.JavaScript.Mending
import LogHygiene.Syntax.Python.Mending
import LogHygiene.Syntax.Repair

/-!
# The tree of a file
-/

set_option autoImplicit false

namespace LogHygiene

open Syntax

namespace Grammar

/-- What files are read and mended with. -/
def mending : Grammar → Mending
  | python => Python.mending
  | javascript => JavaScript.mending { types := false, markup := true }
  | typescript => JavaScript.mending { types := true, markup := false }
  | tsx => JavaScript.mending { types := true, markup := true }

/-- The tree of a file. -/
def tree (g : Grammar) (source : Bytes) : Node := g.mending.tree source

end Grammar

end LogHygiene
