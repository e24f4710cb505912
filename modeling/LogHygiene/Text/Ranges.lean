/-!
# Sets of characters given by ranges

The Unicode properties that names and case need are data, and the data is long. Written as rows
`(low, high, step)` it is short enough to read: a row stands for `low`, `low + step`, … up to `high`,
and a step of two is how scripts with alternating capitals are laid out.
-/

set_option autoImplicit false

namespace LogHygiene.Text

/-- Rows `(low, high, step)`. -/
abbrev Ranges := List (Nat × Nat × Nat)

namespace Ranges

/-- Whether a code point is on one of the rows. -/
def holds (rows : Ranges) (n : Nat) : Bool :=
  rows.any fun (low, high, step) => low ≤ n && n ≤ high && (n - low) % step == 0

end Ranges

/-- Rows `(low, high, step, shift)`: the members of the row and what is added to them. -/
abbrev Shifts := List (Nat × Nat × Nat × Int)

namespace Shifts

/-- The code point that a table sends `n` to, if a row holds it. -/
def image? (rows : Shifts) (n : Nat) : Option Nat :=
  (rows.find? fun (low, high, step, _) => low ≤ n && n ≤ high && (n - low) % step == 0).map
    fun (_, _, _, shift) => (Int.ofNat n + shift).toNat

end Shifts

end LogHygiene.Text
