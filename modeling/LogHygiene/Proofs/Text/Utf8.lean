import LogHygiene.Text.Utf8

/-!
# UTF-8, read and written

`Bytes.text?` reads strictly and `Bytes.ofText` writes. This module says that they are each other's
inverses, and where a text may be cut.

> **a file is text exactly if it spells some characters** (`text?_eq_some`), **and a place in it is a
> boundary exactly if it lies between two of them** (`isBoundary_spell`).

Both reduce to one character at a time: `glyphAt_spelled` reads back what the encoder writes, and
`spelled_of_glyphAt` is its converse, which needs that the reader refuses long forms, surrogates and what
lies beyond the last character. A byte behind the first one of a character is a *carrier* of six bits; that
carriers are the continuation bytes and nothing else is what makes the cases of both lemmas arithmetic.

The second half is about places: a byte below 0x80 is a character by itself wherever it stands, so the
places in front of it and behind it are boundaries, and what lies between two boundaries is text again.
-/

set_option autoImplicit false

namespace LogHygiene

namespace Bytes

/-! ## One character -/

theorem isContinuation_iff (b : UInt8) : isContinuation b = true ↔ 128 ≤ b.toNat ∧ b.toNat < 192 := by
  simp only [isContinuation, Bool.and_eq_true, decide_eq_true_eq, UInt8.le_iff_toNat_le]
  have h80 : (0x80 : UInt8).toNat = 128 := rfl
  have hBF : (0xBF : UInt8).toNat = 191 := rfl
  omega

/-- The byte behind the first one of a character that carries the low six bits of a number. -/
def carrier (n : Nat) : UInt8 := UInt8.ofNat (n % 64 + 128)

theorem toNat_carrier (n : Nat) : (carrier n).toNat = n % 64 + 128 := by
  rw [carrier, UInt8.toNat_ofNat']
  omega

@[simp] theorem isContinuation_carrier (n : Nat) : isContinuation (carrier n) = true :=
  (isContinuation_iff _).mpr (by rw [toNat_carrier]; omega)

@[simp] theorem payload_carrier (n : Nat) : payload (carrier n) = n % 64 := by
  rw [payload, toNat_carrier]
  omega

/-- Every continuation byte is a carrier. -/
theorem eq_carrier {x : UInt8} (h : isContinuation x = true) {n : Nat} (hn : n % 64 = x.toNat % 64) :
    x = carrier n := by
  rw [isContinuation_iff] at h
  rw [← UInt8.toNat_inj, toNat_carrier]
  omega

theorem toNat_ofNat_lt {n : Nat} (h : n < 256) : (UInt8.ofNat n).toNat = n := by
  rw [UInt8.toNat_ofNat']
  omega

/-- How a character is spelled, by the size of its number. -/
theorem encode_cases (c : Char) :
    (c.toNat < 0x80 ∧ String.utf8EncodeChar c = [UInt8.ofNat c.toNat]) ∨
    (0x80 ≤ c.toNat ∧ c.toNat < 0x800 ∧
      String.utf8EncodeChar c = [UInt8.ofNat (c.toNat / 64 % 32 + 192), carrier c.toNat]) ∨
    (0x800 ≤ c.toNat ∧ c.toNat < 0x10000 ∧ ¬(0xD800 ≤ c.toNat ∧ c.toNat ≤ 0xDFFF) ∧
      String.utf8EncodeChar c =
        [UInt8.ofNat (c.toNat / 4096 % 16 + 224), carrier (c.toNat / 64), carrier c.toNat]) ∨
    (0x10000 ≤ c.toNat ∧ c.toNat ≤ 0x10FFFF ∧
      String.utf8EncodeChar c = [UInt8.ofNat (c.toNat / 262144 % 8 + 240), carrier (c.toNat / 4096),
        carrier (c.toNat / 64), carrier c.toNat]) := by
  have hvalid : c.toNat < 0xD800 ∨ 0xDFFF < c.toNat ∧ c.toNat < 0x110000 := c.valid
  unfold String.utf8EncodeChar
  simp only [Char.toNat_val]
  split
  · exact .inl ⟨by omega, rfl⟩
  · split
    · exact .inr (.inl ⟨by omega, by omega, rfl⟩)
    · split
      · exact .inr (.inr (.inl ⟨by omega, by omega, by omega, rfl⟩))
      · exact .inr (.inr (.inr ⟨by omega, by omega, rfl⟩))

/-! ### Reading what was written -/

section Reading

variable {b : UInt8} {n m k l : Nat}

theorem glyphAt_one (hb : b.toNat < 0x80) (rest : Bytes) : glyphAt b rest = ⟨Char.ofNat b.toNat, 1⟩ := by
  have h80 : (0x80 : UInt8).toNat = 0x80 := rfl
  unfold glyphAt
  rw [if_pos (by rw [UInt8.lt_iff_toNat_lt]; omega)]

theorem glyphAt_two (hb : b.toNat = n % 32 + 192) (hn : 2 ≤ n % 32) (rest : Bytes) :
    glyphAt b (carrier m :: rest) = ⟨Char.ofNat (n % 32 * 64 + m % 64), 2⟩ := by
  have h80 : (0x80 : UInt8).toNat = 0x80 := rfl
  have hC2 : (0xC2 : UInt8).toNat = 0xC2 := rfl
  have hDF : (0xDF : UInt8).toNat = 0xDF := rfl
  have hmod : b.toNat % 32 = n % 32 := by omega
  unfold glyphAt
  rw [if_neg (by rw [UInt8.lt_iff_toNat_lt]; omega)]
  simp only [isContinuation_carrier, Bool.not_true, Bool.false_eq_true, if_false, payload_carrier, hmod]
  rw [if_pos (by simp only [Bool.and_eq_true, decide_eq_true_eq, UInt8.le_iff_toNat_le]; omega)]

theorem glyphAt_three (hb : b.toNat = n % 16 + 224)
    (hlow : 0x800 ≤ n % 16 * 4096 + m % 64 * 64 + k % 64)
    (hsurrogate : ¬(0xD800 ≤ n % 16 * 4096 + m % 64 * 64 + k % 64 ∧
      n % 16 * 4096 + m % 64 * 64 + k % 64 ≤ 0xDFFF)) (rest : Bytes) :
    glyphAt b (carrier m :: carrier k :: rest) =
      ⟨Char.ofNat (n % 16 * 4096 + m % 64 * 64 + k % 64), 3⟩ := by
  have h80 : (0x80 : UInt8).toNat = 0x80 := rfl
  have hDF : (0xDF : UInt8).toNat = 0xDF := rfl
  have hE0 : (0xE0 : UInt8).toNat = 0xE0 := rfl
  have hEF : (0xEF : UInt8).toNat = 0xEF := rfl
  have hmod : b.toNat % 16 = n % 16 := by omega
  unfold glyphAt
  rw [if_neg (by rw [UInt8.lt_iff_toNat_lt]; omega)]
  simp only [isContinuation_carrier, Bool.not_true, Bool.false_eq_true, if_false, payload_carrier, hmod]
  rw [if_neg (by simp only [Bool.and_eq_true, decide_eq_true_eq, UInt8.le_iff_toNat_le]; omega),
    if_pos (by simp only [Bool.and_eq_true, decide_eq_true_eq, UInt8.le_iff_toNat_le]; omega),
    if_neg (by simp only [Bool.or_eq_true, Bool.and_eq_true, decide_eq_true_eq]; omega)]

theorem glyphAt_four (hb : b.toNat = n % 8 + 240)
    (hlow : 0x10000 ≤ n % 8 * 262144 + m % 64 * 4096 + k % 64 * 64 + l % 64)
    (hhigh : n % 8 * 262144 + m % 64 * 4096 + k % 64 * 64 + l % 64 ≤ 0x10FFFF) (rest : Bytes) :
    glyphAt b (carrier m :: carrier k :: carrier l :: rest) =
      ⟨Char.ofNat (n % 8 * 262144 + m % 64 * 4096 + k % 64 * 64 + l % 64), 4⟩ := by
  have h80 : (0x80 : UInt8).toNat = 0x80 := rfl
  have hDF : (0xDF : UInt8).toNat = 0xDF := rfl
  have hEF : (0xEF : UInt8).toNat = 0xEF := rfl
  have hF0 : (0xF0 : UInt8).toNat = 0xF0 := rfl
  have hF4 : (0xF4 : UInt8).toNat = 0xF4 := rfl
  have hmod : b.toNat % 8 = n % 8 := by omega
  unfold glyphAt
  rw [if_neg (by rw [UInt8.lt_iff_toNat_lt]; omega)]
  simp only [isContinuation_carrier, Bool.not_true, Bool.false_eq_true, if_false, payload_carrier, hmod]
  rw [if_neg (by simp only [Bool.and_eq_true, decide_eq_true_eq, UInt8.le_iff_toNat_le]; omega),
    if_neg (by simp only [Bool.and_eq_true, decide_eq_true_eq, UInt8.le_iff_toNat_le]; omega),
    if_pos (by simp only [Bool.and_eq_true, decide_eq_true_eq, UInt8.le_iff_toNat_le]; omega),
    if_neg (by simp only [Bool.or_eq_true, decide_eq_true_eq]; omega)]

end Reading

/-- The shape of a spelled character: a first byte that continues nothing, then bytes that do; and read
with anything behind it, it is that character again. -/
theorem glyphAt_spelled (c : Char) : ∃ b more, String.utf8EncodeChar c = b :: more ∧
    isContinuation b = false ∧ (∀ x ∈ more, isContinuation x = true) ∧ (b.toNat < 0x80 ↔ more = []) ∧
    ∀ rest, glyphAt b (more ++ rest) = ⟨c, more.length + 1⟩ := by
  have hfirst : ∀ b : UInt8, b.toNat < 128 ∨ 192 ≤ b.toNat → isContinuation b = false := by
    intro b hb
    rw [← Bool.not_eq_true, isContinuation_iff]
    omega
  have hchar : ∀ n, n = c.toNat → Char.ofNat n = c := fun n hn => by rw [hn]; exact c.ofNat_toNat
  rcases encode_cases c with ⟨h, he⟩ | ⟨hl, hu, he⟩ | ⟨hl, hu, hs, he⟩ | ⟨hl, hu, he⟩
  · have hb : (UInt8.ofNat c.toNat).toNat = c.toNat := toNat_ofNat_lt (by omega)
    refine ⟨_, _, he, hfirst _ (by omega), by simp, by simpa [hb] using h, fun rest => ?_⟩
    rw [List.nil_append, glyphAt_one (by omega), hchar _ hb, List.length_nil]
  · have hb : (UInt8.ofNat (c.toNat / 64 % 32 + 192)).toNat = c.toNat / 64 % 32 + 192 :=
      toNat_ofNat_lt (by omega)
    refine ⟨_, _, he, hfirst _ (by omega), by simp, by simp; omega, fun rest => ?_⟩
    rw [List.singleton_append, glyphAt_two hb (by omega), hchar _ (by omega)]
    rfl
  · have hb : (UInt8.ofNat (c.toNat / 4096 % 16 + 224)).toNat = c.toNat / 4096 % 16 + 224 :=
      toNat_ofNat_lt (by omega)
    refine ⟨_, _, he, hfirst _ (by omega), by simp, by simp; omega, fun rest => ?_⟩
    rw [List.cons_append, List.singleton_append, glyphAt_three hb (by omega) (by omega),
      hchar _ (by omega)]
    rfl
  · have hb : (UInt8.ofNat (c.toNat / 262144 % 8 + 240)).toNat = c.toNat / 262144 % 8 + 240 :=
      toNat_ofNat_lt (by omega)
    refine ⟨_, _, he, hfirst _ (by omega), by simp, by simp; omega, fun rest => ?_⟩
    rw [List.cons_append, List.cons_append, List.singleton_append, glyphAt_four hb (by omega) (by omega),
      hchar _ (by omega)]
    rfl

/-! ### Writing what was read -/

theorem toNat_ofNat_valid {n : Nat} (h : n < 0xD800 ∨ 0xDFFF < n ∧ n < 0x110000) :
    (Char.ofNat n).toNat = n := by
  have hv : n.isValidChar := h
  rw [Char.ofNat, dif_pos hv]
  rfl

theorem toNat_lt (b : UInt8) : b.toNat < 256 := b.toNat_lt

/-- The number that a character was read from tells how it is spelled. -/
theorem encode_ofNat {n : Nat} {bytes : Bytes} (hv : n < 0xD800 ∨ 0xDFFF < n ∧ n < 0x110000)
    (h : (n < 0x80 ∧ bytes = [UInt8.ofNat n]) ∨
      (0x80 ≤ n ∧ n < 0x800 ∧ bytes = [UInt8.ofNat (n / 64 % 32 + 192), carrier n]) ∨
      (0x800 ≤ n ∧ n < 0x10000 ∧
        bytes = [UInt8.ofNat (n / 4096 % 16 + 224), carrier (n / 64), carrier n]) ∨
      (0x10000 ≤ n ∧ bytes = [UInt8.ofNat (n / 262144 % 8 + 240), carrier (n / 4096),
        carrier (n / 64), carrier n])) : String.utf8EncodeChar (Char.ofNat n) = bytes := by
  have hcases := encode_cases (Char.ofNat n)
  rw [toNat_ofNat_valid hv] at hcases
  rcases hcases with ⟨h1, he⟩ | ⟨h1, h2, he⟩ | ⟨h1, h2, h3, he⟩ | ⟨h1, h2, he⟩ <;>
    rcases h with ⟨g1, hb⟩ | ⟨g1, g2, hb⟩ | ⟨g1, g2, hb⟩ | ⟨g1, hb⟩ <;>
    first | exact he.trans hb.symm | exact absurd g1 (by omega)

theorem ofNat_eq_of_toNat {b : UInt8} {n : Nat} (h : n = b.toNat) : UInt8.ofNat n = b := by
  rw [h, UInt8.ofNat_toNat]

/-- A glyph that stands for a character is spelled by the bytes it was read from. -/
theorem spelled_of_glyphAt {b : UInt8} {rest : Bytes} (h : (glyphAt b rest).isScalar = true) :
    ∃ more tail, rest = more ++ tail ∧ (glyphAt b rest).width = more.length + 1 ∧
      String.utf8EncodeChar (glyphAt b rest).char = b :: more := by
  have hb := toNat_lt b
  have hno : ¬Glyph.undecodable.isScalar = true := by decide
  generalize hg : glyphAt b rest = g at h
  unfold glyphAt at hg
  dsimp only at hg
  repeat' split at hg
  -- four ways of reading end in a character, one for each number of bytes
  all_goals subst hg
  all_goals try exact absurd h hno
  · rename_i h80
    have h80 : b.toNat < 0x80 := UInt8.lt_iff_toNat_lt.mp h80
    refine ⟨[], rest, rfl, rfl, encode_ofNat (by omega) (.inl ⟨h80, ?_⟩)⟩
    rw [UInt8.ofNat_toNat]
  · rename_i c₁ tail hc₁ hr
    simp only [Bool.not_eq_true', Bool.not_eq_false] at hc₁
    simp only [Bool.and_eq_true, decide_eq_true_eq, UInt8.le_iff_toNat_le] at hr
    have hr : 0xC2 ≤ b.toNat ∧ b.toNat ≤ 0xDF := hr
    unfold payload
    refine ⟨[c₁], tail, rfl, rfl, encode_ofNat (by omega) (.inr (.inl ⟨by omega, by omega, ?_⟩))⟩
    rw [ofNat_eq_of_toNat (b := b) (by omega), ← eq_carrier hc₁ (by omega)]
  · rename_i c₁ hc₁ _ _ c₂ tail hc₂ hr hn
    simp only [Bool.not_eq_true', Bool.not_eq_false] at hc₁ hc₂
    simp only [Bool.and_eq_true, decide_eq_true_eq, UInt8.le_iff_toNat_le] at hr
    simp only [Bool.or_eq_true, Bool.and_eq_true, decide_eq_true_eq] at hn
    have hr : 0xE0 ≤ b.toNat ∧ b.toNat ≤ 0xEF := hr
    unfold payload at hn ⊢
    refine ⟨[c₁, c₂], tail, rfl, rfl, encode_ofNat (by omega)
      (.inr (.inr (.inl ⟨by omega, by omega, ?_⟩)))⟩
    rw [ofNat_eq_of_toNat (b := b) (by omega), ← eq_carrier hc₁ (by omega),
      ← eq_carrier hc₂ (by omega)]
  · rename_i c₁ hc₁ _ _ c₂ hc₂ _ _ c₃ tail hc₃ hr hn
    simp only [Bool.not_eq_true', Bool.not_eq_false] at hc₁ hc₂ hc₃
    simp only [Bool.and_eq_true, decide_eq_true_eq, UInt8.le_iff_toNat_le] at hr
    simp only [Bool.or_eq_true, decide_eq_true_eq] at hn
    have hr : 0xF0 ≤ b.toNat ∧ b.toNat ≤ 0xF4 := hr
    unfold payload at hn ⊢
    refine ⟨[c₁, c₂, c₃], tail, rfl, rfl, encode_ofNat (by omega)
      (.inr (.inr (.inr ⟨by omega, ?_⟩)))⟩
    rw [ofNat_eq_of_toNat (b := b) (by omega), ← eq_carrier hc₁ (by omega),
      ← eq_carrier hc₂ (by omega), ← eq_carrier hc₃ (by omega)]

/-- Every glyph takes some room. -/
theorem glyphAt_width_pos (b : UInt8) (rest : Bytes) : 0 < (glyphAt b rest).width := by
  cases h : (glyphAt b rest).isScalar with
  | true =>
    obtain ⟨more, -, -, hwidth, -⟩ := spelled_of_glyphAt h
    omega
  | false =>
    have hglyph : glyphAt b rest = .undecodable := by simpa [Glyph.isScalar] using h
    rw [hglyph]
    decide

theorem glyphsFrom_width_pos : ∀ {skip : Nat} {bytes : Bytes}, ∀ g ∈ glyphsFrom skip bytes, 0 < g.width
  | _, [], g, hg => absurd hg (by simp [glyphsFrom])
  | _ + 1, _ :: _, g, hg => glyphsFrom_width_pos g (by rwa [glyphsFrom] at hg)
  | 0, b :: rest, g, hg => by
    rw [glyphsFrom] at hg
    rcases List.mem_cons.mp hg with rfl | hg
    · exact glyphAt_width_pos b rest
    · exact glyphsFrom_width_pos g hg

/-! ## A whole file -/

/-- The bytes that spell a row of characters. -/
def spell (cs : List Char) : Bytes := cs.flatMap String.utf8EncodeChar

@[simp] theorem spell_nil : spell [] = [] := rfl

@[simp] theorem spell_cons (c : Char) (cs : List Char) :
    spell (c :: cs) = String.utf8EncodeChar c ++ spell cs := rfl

@[simp] theorem spell_append (as bs : List Char) : spell (as ++ bs) = spell as ++ spell bs :=
  List.flatMap_append

theorem ofText_eq_spell (text : String) : ofText text = spell text.toList := by
  rw [ofText, ← String.utf8Encode_toList, List.utf8Encode, List.toList_data_toByteArray]
  rfl

theorem glyphsFrom_drop : ∀ (skip : Nat) (bytes : Bytes),
    glyphsFrom skip bytes = glyphs (bytes.drop skip)
  | 0, _ => rfl
  | skip + 1, [] => by simp [glyphs, glyphsFrom]
  | skip + 1, _ :: rest => glyphsFrom_drop skip rest

theorem glyphs_cons (b : UInt8) (rest : Bytes) :
    glyphs (b :: rest) = glyphAt b rest :: glyphs (rest.drop ((glyphAt b rest).width - 1)) := by
  rw [← glyphsFrom_drop]
  rfl

theorem isScalar_spelled (c : Char) :
    (⟨c, (String.utf8EncodeChar c).length⟩ : Glyph).isScalar = true := by
  simp only [Glyph.isScalar, bne_iff_ne, ne_eq, Glyph.undecodable, Glyph.mk.injEq, not_and]
  rintro rfl
  decide

theorem glyphs_spell : ∀ cs : List Char,
    glyphs (spell cs) = cs.map fun c => ⟨c, (String.utf8EncodeChar c).length⟩
  | [] => rfl
  | c :: cs => by
    obtain ⟨b, more, he, -, -, -, hread⟩ := glyphAt_spelled c
    rw [spell_cons, he, List.cons_append, glyphs_cons, hread, Nat.add_sub_cancel,
      List.drop_left, glyphs_spell cs, List.map_cons, he, List.length_cons]

/-- A file without undecodable bytes spells its characters. By induction on a bound of the length, since
a character takes several bytes. -/
theorem spell_of_scalars : ∀ (n : Nat) (bytes : Bytes), bytes.length ≤ n →
    (∀ g ∈ bytes.glyphs, g.isScalar = true) → bytes = spell (bytes.glyphs.map Glyph.char)
  | _, [], _, _ => rfl
  | 0, _ :: _, hlen, _ => absurd hlen (by simp)
  | n + 1, b :: rest, hlen, hall => by
    rw [glyphs_cons] at hall ⊢
    obtain ⟨hfirst, hmore⟩ := List.forall_mem_cons.mp hall
    obtain ⟨more, tail, rfl, hwidth, hspelled⟩ := spelled_of_glyphAt hfirst
    rw [hwidth, Nat.add_sub_cancel, List.drop_left] at hmore ⊢
    have hshort : tail.length ≤ n := by
      simp only [List.length_cons, List.length_append] at hlen
      omega
    rw [List.map_cons, spell_cons, hspelled, ← spell_of_scalars n tail hshort hmore]
    rfl

theorem chars?_eq_some {bytes : Bytes} {cs : List Char} : bytes.chars? = some cs ↔ bytes = spell cs := by
  unfold chars?
  dsimp only
  constructor
  · intro h
    split at h
    · rename_i hall
      obtain rfl := Option.some.inj h
      exact spell_of_scalars _ bytes Nat.le.refl (List.all_eq_true.mp hall)
    · exact absurd h (by simp)
  · rintro rfl
    have hall : (glyphs (spell cs)).all Glyph.isScalar = true := by
      rw [glyphs_spell, List.all_map, List.all_eq_true]
      exact fun c _ => isScalar_spelled c
    rw [if_pos hall, glyphs_spell, List.map_map]
    exact congrArg some (List.map_id cs)

/-- **Reading and writing are inverse to each other.** -/
theorem text?_eq_some {bytes : Bytes} {text : String} : bytes.text? = some text ↔ bytes = ofText text := by
  unfold text?
  rw [Option.map_eq_some_iff, ofText_eq_spell]
  constructor
  · rintro ⟨cs, hcs, rfl⟩
    rw [String.toList_ofList]
    exact chars?_eq_some.mp hcs
  · intro h
    exact ⟨text.toList, chars?_eq_some.mpr h, String.ofList_toList⟩

@[simp] theorem text?_ofText (text : String) : (ofText text).text? = some text := text?_eq_some.mpr rfl

theorem ofText_injective {s t : String} (h : ofText s = ofText t) : s = t := by
  have ht := text?_ofText t
  rw [← h, text?_ofText] at ht
  exact Option.some.inj ht

theorem text?_isSome_iff {bytes : Bytes} : bytes.text?.isSome = true ↔ ∃ cs, bytes = spell cs := by
  rw [text?, Option.isSome_map, Option.isSome_iff_exists]
  simp only [chars?_eq_some]

theorem ofText_append (s t : String) : ofText (s ++ t) = ofText s ++ ofText t := by
  rw [ofText_eq_spell, ofText_eq_spell, ofText_eq_spell, String.toList_append, spell_append]

theorem text?_isSome_append {a b : Bytes} (ha : a.text?.isSome = true) (hb : b.text?.isSome = true) :
    (a ++ b).text?.isSome = true := by
  obtain ⟨cs, rfl⟩ := text?_isSome_iff.mp ha
  obtain ⟨ds, rfl⟩ := text?_isSome_iff.mp hb
  exact text?_isSome_iff.mpr ⟨cs ++ ds, (spell_append cs ds).symm⟩

/-- Rows of characters that are spelled alike start alike. -/
theorem prefix_of_spell : ∀ {as bs : List Char}, spell as <+: spell bs → as <+: bs
  | [], _, _ => List.nil_prefix
  | a :: as, [], h => by
    obtain ⟨first, more, he, -⟩ := glyphAt_spelled a
    rw [spell_cons, he, spell_nil, List.prefix_nil] at h
    exact absurd h (by simp)
  | a :: as, b :: bs, ⟨rest, h⟩ => by
    obtain ⟨first, more, he, -, -, -, hread⟩ := glyphAt_spelled a
    obtain ⟨first', more', he', -, -, -, hread'⟩ := glyphAt_spelled b
    rw [spell_cons, spell_cons, List.append_assoc] at h
    have hbytes := h
    rw [he, he', List.cons_append, List.cons_append, List.cons.injEq] at hbytes
    -- the same bytes are read as the same first character
    have hsame : a = b := by
      have hglyph := hread (spell as ++ rest)
      rw [hbytes.1, hbytes.2, hread'] at hglyph
      exact (Glyph.mk.inj hglyph).1.symm
    subst hsame
    exact List.prefix_cons_inj a |>.mpr (prefix_of_spell ⟨rest, List.append_cancel_left h⟩)

theorem ofText_prefix_iff {s t : String} : ofText s <+: ofText t ↔ s.toList <+: t.toList := by
  rw [ofText_eq_spell, ofText_eq_spell]
  refine ⟨prefix_of_spell, ?_⟩
  rintro ⟨rest, hrest⟩
  exact ⟨spell rest, by rw [← hrest, spell_append]⟩

/-! ## Where a text may be cut -/

theorem isBoundary_zero_cons_append {c : Char} {i : Nat} (rest : Bytes)
    (hi : i < (String.utf8EncodeChar c).length) :
    isBoundary (String.utf8EncodeChar c ++ rest) i = true ↔ i = 0 := by
  obtain ⟨b, more, he, hfirst, hmore, -, -⟩ := glyphAt_spelled c
  rw [he] at hi ⊢
  unfold isBoundary
  rw [List.getElem?_append_left hi, List.getElem?_eq_getElem hi]
  cases i with
  | zero => simp [hfirst]
  | succ i =>
    have hlt : i < more.length := by simpa using hi
    have hcont : isContinuation more[i] = true := hmore _ (List.getElem_mem hlt)
    simp [hcont]

theorem isBoundary_append_right (front rest : Bytes) (i : Nat) :
    isBoundary (front ++ rest) (front.length + i) = isBoundary rest i := by
  unfold isBoundary
  rw [List.getElem?_append_right (Nat.le_add_right _ _), Nat.add_sub_cancel_left, List.length_append]
  cases rest[i]? with
  | some b => rfl
  | none =>
    rw [Bool.eq_iff_iff, beq_iff_eq, beq_iff_eq]
    exact Nat.add_left_cancel_iff

/-- **The boundaries of a text lie between its characters.** -/
theorem isBoundary_spell : ∀ {cs : List Char} {i : Nat}, isBoundary (spell cs) i = true ↔
    ∃ front back, cs = front ++ back ∧ i = (spell front).length
  | [], i => by
    constructor
    · intro h
      exact ⟨[], [], rfl, by simpa [isBoundary] using h⟩
    · rintro ⟨front, back, h, rfl⟩
      obtain ⟨rfl, rfl⟩ := List.append_eq_nil_iff.mp h.symm
      rfl
  | c :: cs, i => by
    rw [spell_cons]
    by_cases hi : i < (String.utf8EncodeChar c).length
    · rw [isBoundary_zero_cons_append _ hi]
      constructor
      · rintro rfl
        exact ⟨[], c :: cs, rfl, rfl⟩
      · rintro ⟨front, back, h, rfl⟩
        cases front with
        | nil => rfl
        | cons d front =>
          obtain ⟨rfl, -⟩ := List.cons.inj h
          rw [spell_cons, List.length_append] at hi
          omega
    · obtain ⟨k, rfl⟩ := Nat.exists_eq_add_of_le (Nat.not_lt.mp hi)
      rw [isBoundary_append_right, isBoundary_spell]
      constructor
      · rintro ⟨front, back, rfl, rfl⟩
        exact ⟨c :: front, back, rfl, by simp⟩
      · rintro ⟨front, back, h, hk⟩
        cases front with
        | nil =>
          have hpos := (glyphAt_spelled c)
          obtain ⟨b, more, he, -⟩ := hpos
          rw [he] at hk
          simp at hk
        | cons d front =>
          obtain ⟨rfl, rfl⟩ := List.cons.inj h
          refine ⟨front, back, rfl, ?_⟩
          rw [spell_cons, List.length_append] at hk
          omega

/-- What lies in front of a boundary and what lies behind it. -/
theorem split_of_isBoundary {cs : List Char} {i : Nat} (h : isBoundary (spell cs) i = true) :
    ∃ front back, cs = front ++ back ∧ (spell cs).take i = spell front ∧
      (spell cs).drop i = spell back ∧ i = (spell front).length := by
  obtain ⟨front, back, rfl, rfl⟩ := isBoundary_spell.mp h
  exact ⟨front, back, rfl, by simp, by simp, rfl⟩

/-- What lies between two boundaries of a text is text. -/
theorem ofText_textBetween {bytes : Bytes} {i j : Nat} (htext : bytes.text?.isSome = true)
    (hi : bytes.isBoundary i = true) (hj : bytes.isBoundary j = true) (hij : i ≤ j) :
    ofText (bytes.textBetween i j) = bytes.slice i j := by
  obtain ⟨cs, rfl⟩ := text?_isSome_iff.mp htext
  obtain ⟨front, back, rfl, -, hback, rfl⟩ := split_of_isBoundary hi
  obtain ⟨k, rfl⟩ := Nat.exists_eq_add_of_le hij
  rw [spell_append, isBoundary_append_right] at hj
  obtain ⟨middle, _, -, hmiddle, -, -⟩ := split_of_isBoundary hj
  have hslice : (spell (front ++ back)).slice (spell front).length ((spell front).length + k) =
      ofText (String.ofList middle) := by
    rw [slice, hback, Nat.add_sub_cancel_left, hmiddle, ofText_eq_spell, String.toList_ofList]
  rw [textBetween, hslice, text?_ofText]
  rfl

theorem text?_isSome_slice {bytes : Bytes} {i j : Nat} (htext : bytes.text?.isSome = true)
    (hi : bytes.isBoundary i = true) (hj : bytes.isBoundary j = true) (hij : i ≤ j) :
    (bytes.slice i j).text?.isSome = true := by
  rw [← ofText_textBetween htext hi hj hij, text?_ofText]
  rfl

theorem isBoundary_zero {bytes : Bytes} (h : bytes.text?.isSome = true) : bytes.isBoundary 0 = true := by
  obtain ⟨cs, rfl⟩ := text?_isSome_iff.mp h
  exact isBoundary_spell.mpr ⟨[], cs, rfl, rfl⟩

theorem isBoundary_length (bytes : Bytes) : bytes.isBoundary bytes.length = true := by
  unfold isBoundary
  rw [List.getElem?_eq_none Nat.le.refl]
  simp

theorem le_length_of_isBoundary {bytes : Bytes} {i : Nat} (h : bytes.isBoundary i = true) :
    i ≤ bytes.length := by
  unfold isBoundary at h
  cases hi : bytes[i]? with
  | some b => exact Nat.le_of_lt (List.getElem?_eq_some_iff.mp hi).1
  | none => rw [hi] at h; exact Nat.le_of_eq (beq_iff_eq.mp h)

/-- A byte below 0x80 in a text is a character by itself. -/
theorem spell_split_of_ascii {cs : List Char} {i : Nat} {x : UInt8} (hx : x.toNat < 0x80)
    (h : (spell cs)[i]? = some x) : ∃ front back, cs = front ++ Char.ofNat x.toNat :: back ∧
      i = (spell front).length ∧ String.utf8EncodeChar (Char.ofNat x.toNat) = [x] := by
  have hboundary : isBoundary (spell cs) i = true := by
    unfold isBoundary
    rw [h, Bool.not_eq_true', ← Bool.not_eq_true, isContinuation_iff]
    omega
  obtain ⟨front, back, rfl, rfl⟩ := isBoundary_spell.mp hboundary
  rw [spell_append, List.getElem?_append_right Nat.le.refl, Nat.sub_self] at h
  cases back with
  | nil => exact absurd h (by simp)
  | cons c back =>
    obtain ⟨b, more, he, -, -, hone, hread⟩ := glyphAt_spelled c
    rw [spell_cons, he] at h
    obtain rfl : b = x := by simpa using h
    obtain rfl := hone.mp hx
    have hc : c = Char.ofNat b.toNat := by
      have hread := hread []
      rw [glyphAt_one hx] at hread
      exact (Glyph.mk.inj hread).1.symm
    exact ⟨front, back, by rw [hc], rfl, by rw [← hc, he]⟩

theorem isBoundary_of_ascii {bytes : Bytes} {i : Nat} {x : UInt8} (htext : bytes.text?.isSome = true)
    (hx : x.toNat < 0x80) (h : bytes[i]? = some x) :
    bytes.isBoundary i = true ∧ bytes.isBoundary (i + 1) = true := by
  obtain ⟨cs, rfl⟩ := text?_isSome_iff.mp htext
  obtain ⟨front, back, rfl, rfl, he⟩ := spell_split_of_ascii hx h
  refine ⟨isBoundary_spell.mpr ⟨front, _, rfl, rfl⟩, isBoundary_spell.mpr
    ⟨front ++ [Char.ofNat x.toNat], back, by simp, ?_⟩⟩
  rw [spell_append, List.length_append, spell_cons, he]
  rfl

/-- A character below 0x80 is in a text exactly if its byte is in the file. -/
theorem mem_toList_of_ascii {text : String} {x : UInt8} (hx : x.toNat < 0x80) (h : x ∈ ofText text) :
    Char.ofNat x.toNat ∈ text.toList := by
  rw [ofText_eq_spell] at h
  obtain ⟨i, hi⟩ := List.mem_iff_getElem?.mp h
  obtain ⟨front, back, hsplit, -, -⟩ := spell_split_of_ascii hx hi
  rw [hsplit]
  exact List.mem_append_right _ List.mem_cons_self

end Bytes

end LogHygiene
