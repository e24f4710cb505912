/-!
# Bytes and the characters they spell

A source file is a list of bytes, and every position a rule reports counts bytes. The grammars read
characters, so a file is first cut into **glyphs**: each carries a character and the number of bytes
it took. A byte that belongs to no UTF-8 sequence is a glyph of its own, one byte wide, so that the
widths of the glyphs always add up to the length of the file and no position is ever lost.

`Bytes.text?` is the strict reading: it answers only for files that are UTF-8 throughout.
-/

set_option autoImplicit false

namespace LogHygiene

/-- The content of a file. -/
abbrev Bytes := List UInt8

/-- A character and the number of bytes that spell it. An undecodable byte is the replacement
character at width one; the real replacement character has width three. -/
structure Glyph where
  char : Char
  width : Nat
  deriving DecidableEq, Repr, Inhabited

namespace Glyph

/-- The glyph of a byte that starts no UTF-8 sequence. -/
def undecodable : Glyph := ⟨'\uFFFD', 1⟩

/-- Whether the glyph stands for a real character. -/
def isScalar (g : Glyph) : Bool := g != undecodable

end Glyph

namespace Bytes

/-- Whether a byte can only continue a sequence. -/
def isContinuation (b : UInt8) : Bool := 0x80 ≤ b && b ≤ 0xBF

/-- The low six bits of a continuation byte. -/
def payload (b : UInt8) : Nat := b.toNat % 64

/-- The glyph that starts with byte `b` when `rest` follows it: the shortest form only, no
surrogates, nothing beyond U+10FFFF. -/
def glyphAt (b : UInt8) (rest : Bytes) : Glyph :=
  if b < 0x80 then ⟨Char.ofNat b.toNat, 1⟩
  else match rest with
    | c₁ :: tail =>
      if !isContinuation c₁ then .undecodable
      else if 0xC2 ≤ b && b ≤ 0xDF then ⟨Char.ofNat (b.toNat % 32 * 64 + payload c₁), 2⟩
      else match tail with
        | c₂ :: tail =>
          if !isContinuation c₂ then .undecodable
          else if 0xE0 ≤ b && b ≤ 0xEF then
            let n := b.toNat % 16 * 4096 + payload c₁ * 64 + payload c₂
            if n < 0x800 || (0xD800 ≤ n && n ≤ 0xDFFF) then .undecodable else ⟨Char.ofNat n, 3⟩
          else match tail with
            | c₃ :: _ =>
              if !isContinuation c₃ then .undecodable
              else if 0xF0 ≤ b && b ≤ 0xF4 then
                let n := b.toNat % 8 * 262144 + payload c₁ * 4096 + payload c₂ * 64 + payload c₃
                if n < 0x10000 || 0x10FFFF < n then .undecodable else ⟨Char.ofNat n, 4⟩
              else .undecodable
            | [] => .undecodable
        | [] => .undecodable
    | [] => .undecodable

/-- The glyphs of a file, after `skip` bytes that belong to a glyph already read. -/
def glyphsFrom : Nat → Bytes → List Glyph
  | _, [] => []
  | skip + 1, _ :: rest => glyphsFrom skip rest
  | 0, b :: rest =>
    let g := glyphAt b rest
    g :: glyphsFrom (g.width - 1) rest

/-- The glyphs of a file, in order. -/
def glyphs (bytes : Bytes) : List Glyph := glyphsFrom 0 bytes

/-- The bytes that spell a text. -/
def ofText (text : String) : Bytes := text.toByteArray.data.toList

/-- The characters of a file that is UTF-8 throughout. -/
def chars? (bytes : Bytes) : Option (List Char) :=
  let gs := bytes.glyphs
  if gs.all Glyph.isScalar then some (gs.map Glyph.char) else none

/-- The text of a file that is UTF-8 throughout. -/
def text? (bytes : Bytes) : Option String := bytes.chars?.map String.ofList

/-- The bytes from offset `start` up to offset `stop`. -/
def slice (bytes : Bytes) (start stop : Nat) : Bytes := (bytes.drop start).take (stop - start)

/-- The text between two offsets; empty when it is not UTF-8. -/
def textBetween (bytes : Bytes) (start stop : Nat) : String :=
  ((bytes.slice start stop).text?).getD ""

/-- Whether an offset falls between two characters of a UTF-8 file, or at one of its ends. -/
def isBoundary (bytes : Bytes) (offset : Nat) : Bool :=
  match bytes[offset]? with
  | some b => !isContinuation b
  | none => offset == bytes.length

/-- The number of line ends in a file. -/
def newlines (bytes : Bytes) : Nat := bytes.count 10

/-- The line, counted from one, that holds an offset. -/
def lineOf (bytes : Bytes) (offset : Nat) : Nat := newlines (bytes.take offset) + 1

/-- The first position at which `needle` occurs, counted in elements. -/
def indexOf? (needle : Bytes) : Bytes → Option Nat
  | [] => if needle.isEmpty then some 0 else none
  | b :: rest =>
    if needle.isPrefixOf (b :: rest) then some 0
    else (indexOf? needle rest).map (· + 1)

end Bytes

end LogHygiene
