import LogHygiene.Text.Utf8

/-!
# Numbers with a fraction

Settings and stored results hold no fractions, so a number with one is never used; it is only named in
the message that refuses it. The name is the shortest decimal that reads back as the same number of
double precision, and this file says what that is in exact arithmetic: a double is `m · 2^e`, reading
rounds to the nearest one with ties to even, and the digits looked for are the fewest whose reading is
the double again.
-/

set_option autoImplicit false

namespace LogHygiene

/-- A finite number of double precision, `mantissa · 2^exponent`. -/
structure Double where
  negative : Bool
  mantissa : Nat
  exponent : Int
  deriving DecidableEq, Repr, Inhabited

/-- A decimal, `digits · 10^exponent`. -/
structure Decimal where
  negative : Bool
  digits : Nat
  exponent : Int
  deriving DecidableEq, Repr, Inhabited

namespace Double

/-- The least exponent. -/
def minExponent : Int := -1074

/-- The greatest exponent of a number whose mantissa has 53 bits. -/
def maxExponent : Int := 971

/-- A quotient rounded to the nearest whole number, a half to the even one. -/
def roundHalfEven (num den : Nat) : Nat :=
  let q := num / den
  let r := num % den
  if 2 * r < den then q
  else if 2 * r > den then q + 1
  else if q % 2 == 0 then q else q + 1

/-- The quotient `num / den` divided by `2^e`. -/
def scaled (num den : Nat) (e : Int) : Nat × Nat :=
  match e with
  | .ofNat n => (num, den * Nat.pow 2 n)
  | .negSucc n => (num * Nat.pow 2 (n + 1), den)

/-- Mantissa and exponent of the double nearest to `num / den`, if that is not too large. -/
def nearest? (num den : Nat) : Option (Nat × Int) :=
  if num == 0 then some (0, minExponent)
  else
    let guess : Int := Int.ofNat (Nat.log2 num) - Int.ofNat (Nat.log2 den) - 53
    let (n₀, d₀) := scaled num den guess
    let e := max minExponent (if n₀ / d₀ < Nat.pow 2 53 then guess else guess + 1)
    let (n, d) := scaled num den e
    let m := roundHalfEven n d
    let (m, e) := if m == Nat.pow 2 53 then (Nat.pow 2 52, e + 1) else (m, e)
    if e > maxExponent then none else some (m, e)

/-- The double nearest to a decimal, if that is not too large. -/
def ofDecimal? (d : Decimal) : Option Double :=
  let size : Int := Int.ofNat (Nat.toDigits 10 d.digits).length + d.exponent
  if d.digits == 0 || size < -400 then some ⟨d.negative, 0, minExponent⟩
  else if size > 400 then none
  else
    let (num, den) := match d.exponent with
      | .ofNat n => (d.digits * Nat.pow 10 n, 1)
      | .negSucc n => (d.digits, Nat.pow 10 (n + 1))
    (nearest? num den).map fun (m, e) => ⟨d.negative, m, e⟩

/-- The two decimals with `n` digits on either side of a positive double, as quotients of the double
and a power of ten: lower neighbour, exponent, remainder and divisor. -/
private def neighbours (x : Double) (n : Nat) : Nat × Int × Nat × Nat :=
  let (num, den) := match x.exponent with
    | .ofNat k => (x.mantissa * Nat.pow 2 k, 1)
    | .negSucc k => (x.mantissa, Nat.pow 2 (k + 1))
  let grid (k : Int) : Nat × Nat := match k with
    | .ofNat k => (num, den * Nat.pow 10 k)
    | .negSucc k => (num * Nat.pow 10 (k + 1), den)
  let size : Int := (Int.ofNat (Nat.log2 num) - Int.ofNat (Nat.log2 den)) * 30103 / 100000
  let at_ (k : Int) : Nat := let (a, b) := grid k; a / b
  let k₀ := size - Int.ofNat n
  let k := if at_ k₀ < Nat.pow 10 n then k₀ else if at_ (k₀ + 1) < Nat.pow 10 n then k₀ + 1 else k₀ + 2
  let (a, b) := grid k
  (a / b, k, a % b, b)

/-- A decimal with `n` digits that reads back as the double, the nearer one of two. -/
private def withDigits? (x : Double) (n : Nat) : Option Decimal :=
  let (low, k, r, d) := neighbours x n
  let reads (c : Nat) : Bool := ofDecimal? ⟨false, c, k⟩ == some { x with negative := false }
  let upper := low + 1
  let nearerLow := 2 * r < d || (2 * r == d && low % 2 == 0)
  let order := if nearerLow then [low, upper] else [upper, low]
  (order.find? reads).map fun c => ⟨x.negative, c, k⟩

/-- Take zeros off the end of the digits. -/
private def trimZeros : Nat → Decimal → Decimal
  | 0, d => d
  | n + 1, d =>
    if d.digits != 0 && d.digits % 10 == 0 then
      trimZeros n { d with digits := d.digits / 10, exponent := d.exponent + 1 }
    else d

/-- The decimal with the fewest digits that reads back as the double. -/
def shortest (x : Double) : Decimal :=
  if x.mantissa == 0 then ⟨x.negative, 0, 0⟩
  else
    let found := (List.range 17).findSome? fun n => withDigits? x (n + 1)
    trimZeros 17 (found.getD ⟨x.negative, 0, 0⟩)

/-- When a number is written with a power of ten behind it. -/
structure Style where
  /-- places before the point up to which a whole number is written out -/
  wholeUpTo : Option Nat
  /-- zeros behind the point before the first digit from which on a power is written -/
  zerosBelow : Option Nat
  deriving Repr

/-- Numbers are always written out. -/
def Style.positional : Style := ⟨none, none⟩

/-- Very large and very small numbers are written with a power of ten. -/
def Style.scientific : Style := ⟨some 16, some 5⟩

/-- The text of a number. A whole number gets `.0`. -/
def render (style : Style) (x : Double) : String :=
  let d := x.shortest
  let ds := Nat.toDigits 10 d.digits
  let n := ds.length
  -- the digits stand before the point up to here
  let point : Int := Int.ofNat n + d.exponent
  let body : List Char :=
    if d.digits == 0 then ['0', '.', '0']
    else
      let large := match style.wholeUpTo with | some k => point > Int.ofNat k | none => false
      let small := match style.zerosBelow with | some k => point ≤ -Int.ofNat k | none => false
      if large || small then
        let mark := (toString (point - 1)).toList
        match ds with
        | [c] => c :: 'e' :: mark
        | c :: rest => c :: '.' :: rest ++ 'e' :: mark
        | [] => []
      else match d.exponent, point with
        | .ofNat k, _ => ds ++ List.replicate k '0' ++ ['.', '0']
        | _, .ofNat 0 => ['0', '.'] ++ ds
        | _, .ofNat k => ds.take k ++ ['.'] ++ ds.drop k
        | _, .negSucc k => ['0', '.'] ++ List.replicate (k + 1) '0' ++ ds
  String.ofList (if x.negative then '-' :: body else body)

end Double

namespace Decimal

/-- The value of a row of digits. -/
def digitsValue (ds : List Char) : Nat := ds.foldl (fun n c => n * 10 + (c.toNat - '0'.toNat)) 0

/-- Read an exponent: digits with a sign or without. -/
def exponent? (cs : List Char) : Option Int :=
  let (negative, ds) := match cs with
    | '-' :: rest => (true, rest)
    | '+' :: rest => (false, rest)
    | rest => (false, rest)
  if ds.isEmpty || !ds.all Char.isDigit then none
  else
    let n := Int.ofNat (digitsValue ds)
    some (if negative then -n else n)

/-- Read digits with a point among them, at their ends or without one, and perhaps an exponent. -/
def ofUnsigned? (negative : Bool) (cs : List Char) : Option Decimal :=
  let whole := cs.takeWhile Char.isDigit
  let rest := cs.dropWhile Char.isDigit
  let (fraction, rest) := match rest with
    | '.' :: rest => (rest.takeWhile Char.isDigit, rest.dropWhile Char.isDigit)
    | rest => ([], rest)
  if whole.isEmpty && fraction.isEmpty then none
  else
    let exponent := match rest with
      | [] => some 0
      | 'e' :: rest => exponent? rest
      | 'E' :: rest => exponent? rest
      | _ => none
    exponent.map fun e =>
      ⟨negative, digitsValue (whole ++ fraction), e - Int.ofNat fraction.length⟩

/-- Read a decimal with a sign or without. -/
def ofChars? : List Char → Option Decimal
  | '-' :: cs => ofUnsigned? true cs
  | '+' :: cs => ofUnsigned? false cs
  | cs => ofUnsigned? false cs

end Decimal

end LogHygiene
