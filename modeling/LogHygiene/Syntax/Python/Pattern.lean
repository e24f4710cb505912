import LogHygiene.Syntax.Python.Literal

/-!
# Python: what values are given to

What stands left of an equals sign is read as a value first, because nothing tells it apart before the
sign comes. `toPattern` says whether it can be given a value, and as what.
-/

set_option autoImplicit false

namespace LogHygiene.Syntax.Python

/-- Whether a name, a member or an element is spread out, and nothing else. -/
def isSpread (children : List Node) : Bool :=
  children.all fun n => [Kind.identifier, .member, .subscript].contains n.kind

/-- What an expression binds when it stands left of `=`. -/
def toPattern : Nat → Node → Option Node
  | 0, _ => none
  | n + 1, .mk kind role span children =>
    let inside (k : Kind) := (children.mapM (toPattern n)).map (.mk k role span)
    match kind with
    | .identifier | .member | .subscript => some (.mk kind role span children)
    | .splat => if isSpread children then some (.mk kind role span children) else none
    | .tuple | .parenthesized => inside .tuplePattern
    | .list => inside .listPattern
    | .patternList => inside .patternList
    | _ => none

/-- What `value` reads, which has to be something that can be given a value. -/
def pattern (value : Rule Node) (e : LineEnd) : Rule Node := do
  let n ← value
  let r ← Rule.reading
  if (toPattern r.budget n).isSome then pure n else stuckAhead e

end LogHygiene.Syntax.Python
