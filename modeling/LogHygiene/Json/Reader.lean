import LogHygiene.Json.Basic

/-!
# Reading JSON

`Json.ofText?` reads one value and demands that nothing but blanks follows it. A number without point
and power is an integer of any size; a minus in front of a lone zero and everything with a fraction is
a `real`. Arrays and objects nest at most 127 deep.

Each step reads off the front of the text and hands back the rest; the steps share a budget, which the
length of the text bounds.
-/

set_option autoImplicit false

namespace LogHygiene.Json

/-- A blank between the parts of a value. -/
def isSpace (c : Char) : Bool := c == ' ' || c == '\n' || c == '\t' || c == '\r'

/-- The text behind the blanks at its front. -/
def skipSpace (cs : List Char) : List Char := cs.dropWhile isSpace

/-- The value of a hexadecimal digit. -/
def hexValue? (c : Char) : Option Nat :=
  if c.isDigit then some (c.toNat - '0'.toNat)
  else if 'a' ≤ c && c ≤ 'f' then some (c.toNat - 'a'.toNat + 10)
  else if 'A' ≤ c && c ≤ 'F' then some (c.toNat - 'A'.toNat + 10)
  else none

/-- The number that four hexadecimal digits stand for, and the rest. -/
def hexQuad? : List Char → Option (Nat × List Char)
  | a :: b :: c :: d :: rest => do
    let a ← hexValue? a
    let b ← hexValue? b
    let c ← hexValue? c
    let d ← hexValue? d
    pure (((a * 16 + b) * 16 + c) * 16 + d, rest)
  | _ => none

/-- The character that `\u` and the text behind it stand for. A high surrogate needs a low one. -/
def unicodeEscape? (cs : List Char) : Option (Char × List Char) := do
  let (n, rest) ← hexQuad? cs
  if 0xD800 ≤ n && n ≤ 0xDBFF then
    match rest with
    | '\\' :: 'u' :: rest => do
      let (m, rest) ← hexQuad? rest
      if 0xDC00 ≤ m && m ≤ 0xDFFF then
        pure (Char.ofNat ((n - 0xD800) * 0x400 + (m - 0xDC00) + 0x10000), rest)
      else none
    | _ => none
  else if 0xDC00 ≤ n && n ≤ 0xDFFF then none
  else pure (Char.ofNat n, rest)

/-- The character that a letter behind a backslash stands for. -/
def shortEscape? : Char → Option Char
  | '"' => some '"'
  | '\\' => some '\\'
  | '/' => some '/'
  | 'b' => some '\x08'
  | 'f' => some '\x0c'
  | 'n' => some '\n'
  | 'r' => some '\r'
  | 't' => some '\t'
  | _ => none

/-- The characters of a text up to its closing quote, and what follows that. -/
def stringBody? : Nat → List Char → Option (List Char × List Char)
  | 0, _ => none
  | _ + 1, [] => none
  | n + 1, c :: rest =>
    if c == '"' then some ([], rest)
    else if c == '\\' then
      match rest with
      | 'u' :: rest => do
        let (c, rest) ← unicodeEscape? rest
        let (cs, rest) ← stringBody? n rest
        pure (c :: cs, rest)
      | e :: rest => do
        let c ← shortEscape? e
        let (cs, rest) ← stringBody? n rest
        pure (c :: cs, rest)
      | [] => none
    else if c.toNat < 0x20 then none
    else (stringBody? n rest).map fun (cs, rest) => (c :: cs, rest)

/-- Whether digits start with a zero that is not alone. -/
def hasLeadingZero : List Char → Bool
  | '0' :: _ :: _ => true
  | _ => false

/-- A fraction behind a whole number, which may be missing. -/
def fraction? : List Char → Option (List Char × List Char)
  | '.' :: rest =>
    let ds := rest.takeWhile Char.isDigit
    if ds.isEmpty then none else some ('.' :: ds, rest.dropWhile Char.isDigit)
  | rest => some ([], rest)

/-- A power of ten behind a number, which may be missing. -/
def power? : List Char → Option (List Char × List Char)
  | e :: rest =>
    if e == 'e' || e == 'E' then
      let (sign, rest) := match rest with
        | '-' :: rest => (['-'], rest)
        | '+' :: rest => ([], rest)
        | rest => ([], rest)
      let ds := rest.takeWhile Char.isDigit
      if ds.isEmpty then none else some ('e' :: sign ++ ds, rest.dropWhile Char.isDigit)
    else some ([], e :: rest)
  | [] => some ([], [])

/-- A number without its sign. -/
def number? (negative : Bool) (cs : List Char) : Option (Json × List Char) := do
  let whole := cs.takeWhile Char.isDigit
  let rest := cs.dropWhile Char.isDigit
  if whole.isEmpty || hasLeadingZero whole then none
  else
    let (fraction, rest) ← fraction? rest
    let (power, rest) ← power? rest
    if fraction.isEmpty && power.isEmpty && !(negative && whole == ['0']) then
      let n := Int.ofNat (Decimal.digitsValue whole)
      pure (.int (if negative then -n else n), rest)
    else
      let d ← Decimal.ofUnsigned? negative (whole ++ fraction ++ power)
      let x ← Double.ofDecimal? d
      pure (.real x, rest)

/-- What is left of `cs` behind `word`, if it starts so. -/
def after? : List Char → List Char → Option (List Char)
  | [], cs => some cs
  | _ :: _, [] => none
  | w :: ws, c :: cs => if w == c then after? ws cs else none

mutual

/-- A value at the front of a text, inside at most `depth` more arrays and objects. -/
def value? : Nat → Nat → List Char → Option (Json × List Char)
  | 0, _, _ => none
  | n + 1, depth, cs =>
    match skipSpace cs with
    | [] => none
    | c :: rest =>
      if c == '"' then do
        let (s, rest) ← stringBody? n rest
        pure (.str (String.ofList s), rest)
      else if c == '[' then
        if depth == 0 then none
        else match skipSpace rest with
          | ']' :: rest => some (.arr [], rest)
          | rest => do
            let (items, rest) ← items? n (depth - 1) rest
            pure (.arr items, rest)
      else if c == '\x7b' then
        if depth == 0 then none
        else match skipSpace rest with
          | '\x7d' :: rest => some (.obj [], rest)
          | rest => do
            let (fields, rest) ← fields? n (depth - 1) rest
            pure (.obj fields, rest)
      else if c == 'n' then (after? "ull".toList rest).map fun rest => (.null, rest)
      else if c == 't' then (after? "rue".toList rest).map fun rest => (.bool true, rest)
      else if c == 'f' then (after? "alse".toList rest).map fun rest => (.bool false, rest)
      else if c == '-' then number? true rest
      else number? false (c :: rest)

/-- The items of an array up to its end. -/
def items? : Nat → Nat → List Char → Option (List Json × List Char)
  | 0, _, _ => none
  | n + 1, depth, cs => do
    let (j, rest) ← value? n depth cs
    match skipSpace rest with
    | ',' :: rest => do
      let (more, rest) ← items? n depth rest
      pure (j :: more, rest)
    | ']' :: rest => pure ([j], rest)
    | _ => none

/-- The fields of an object up to its end. -/
def fields? : Nat → Nat → List Char → Option (List (String × Json) × List Char)
  | 0, _, _ => none
  | n + 1, depth, cs =>
    match skipSpace cs with
    | '"' :: rest => do
      let (k, rest) ← stringBody? n rest
      match skipSpace rest with
      | ':' :: rest => do
        let (j, rest) ← value? n depth rest
        match skipSpace rest with
        | ',' :: rest => do
          let (more, rest) ← fields? n depth rest
          pure ((String.ofList k, j) :: more, rest)
        | '\x7d' :: rest => pure ([(String.ofList k, j)], rest)
        | _ => none
      | _ => none
    | _ => none

end

/-- How deep arrays and objects may nest. -/
def maxDepth : Nat := 127

/-- The value that a text spells. -/
def ofChars? (cs : List Char) : Option Json :=
  match value? (cs.length + 1) maxDepth cs with
  | some (j, rest) => if (skipSpace rest).isEmpty then some j else none
  | none => none

/-- The value that a text spells. -/
def ofText? (text : String) : Option Json := ofChars? text.toList

end LogHygiene.Json
