import LogHygiene.Text.Ranges

/-!
# Blank characters

The Unicode property `White_Space`, dropping the blanks of a text, and trimming the ends of a row of
characters.
-/

set_option autoImplicit false

namespace LogHygiene.Text

/-- The blank characters. -/
def blankRanges : Ranges :=
  [(0x09, 0x0D, 1), (0x20, 0x20, 1), (0x85, 0x85, 1), (0xA0, 0xA0, 1), (0x1680, 0x1680, 1),
   (0x2000, 0x200A, 1), (0x2028, 0x2029, 1), (0x202F, 0x202F, 1), (0x205F, 0x205F, 1),
   (0x3000, 0x3000, 1)]

/-- Whether a character is blank. -/
def isBlank (c : Char) : Bool := blankRanges.holds c.toNat

/-- The text without its blanks. -/
def withoutBlanks (text : String) : String :=
  String.ofList (text.toList.filter (fun c => !isBlank c))

/-- The characters without those at both ends that `p` holds of. -/
def trimWhile (p : Char → Bool) (cs : List Char) : List Char :=
  ((cs.dropWhile p).reverse.dropWhile p).reverse

end LogHygiene.Text
