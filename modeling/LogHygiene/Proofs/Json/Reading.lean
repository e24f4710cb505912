import LogHygiene.Json.Reader
import Mathlib.Data.List.DropRight

/-!
# What is written as JSON is read back

A value is written in two ways, without blanks and over lines, and a hand may lay it out in others. What
the two have in common is said once, by `Spells`: a text spells a value if it has the marks of the value
in order, with blanks only between them. Both ways of writing spell the value
(`Plain.compactChars_spells`, `Plain.prettyChars_spells`), and

> **every text that spells a value is read as that value** (`Spells.ofChars?_eq`).

Numbers with a fraction are left out (`Plain`): nothing that is stored holds one. The depth counts, since
the reader refuses what nests too deep, and the budget of the reader has to be shown to suffice; the length
of the text is enough because every step into an array or object is paid for by its two brackets.
-/

set_option autoImplicit false

namespace LogHygiene.Json

/-! ## Blanks and what may follow a value -/

/-- Nothing but blanks. -/
def Blank (cs : List Char) : Prop := ∀ c ∈ cs, isSpace c = true

/-- A text that does not go on with a number in front of it. -/
def Ends (rest : List Char) : Prop :=
  ∀ c ∈ rest.head?, c.isDigit = false ∧ c ≠ '.' ∧ c ≠ 'e' ∧ c ≠ 'E'

theorem blank_nil : Blank [] := fun _ h => absurd h (by simp)

theorem skipSpace_blank {g : List Char} (h : Blank g) (cs : List Char) :
    skipSpace (g ++ cs) = skipSpace cs :=
  List.dropWhile_append_of_pos h

theorem skipSpace_cons {c : Char} (h : isSpace c = false) (cs : List Char) :
    skipSpace (c :: cs) = c :: cs := by
  simp [skipSpace, h]

theorem ends_nil : Ends [] := fun _ h => absurd h (by simp)

theorem ends_of_isSpace {c : Char} (h : isSpace c = true) (cs : List Char) : Ends (c :: cs) := by
  intro d hd
  obtain rfl : c = d := by simpa using hd
  simp only [isSpace, Bool.or_eq_true, beq_iff_eq] at h
  rcases h with ((rfl | rfl) | rfl) | rfl <;> decide

/-- Behind a value stand blanks and then a mark that is no part of a number. -/
theorem ends_blank {g : List Char} (hg : Blank g) {cs : List Char} (h : Ends cs) : Ends (g ++ cs) := by
  cases g with
  | nil => exact h
  | cons c g => exact ends_of_isSpace (hg c (by simp)) _

theorem ends_comma (cs : List Char) : Ends (',' :: cs) := by
  intro c hc
  obtain rfl : ',' = c := by simpa using hc
  decide

theorem ends_bracket (cs : List Char) : Ends (']' :: cs) := by
  intro c hc
  obtain rfl : ']' = c := by simpa using hc
  decide

theorem ends_brace (cs : List Char) : Ends ('\x7d' :: cs) := by
  intro c hc
  obtain rfl : '\x7d' = c := by simpa using hc
  decide

/-! ## Numbers -/

theorem toList_ofNat (k : Nat) : (toString (Int.ofNat k)).toList = Nat.toDigits 10 k := Nat.toList_repr

theorem toList_negSucc (k : Nat) :
    (toString (Int.negSucc k)).toList = '-' :: Nat.toDigits 10 (k + 1) := by
  change ("-" ++ (k + 1).repr).toList = _
  rw [String.toList_append, Nat.toList_repr]
  rfl

theorem digitsValue_toDigits (n : Nat) : Decimal.digitsValue (Nat.toDigits 10 n) = n := by
  have hvalue : Nat.ofDigitChars 10 (Nat.toDigits 10 n) 0 = n :=
    Nat.ofDigitChars_toDigits (by decide) (by decide)
  simpa [Nat.ofDigitChars, Decimal.digitsValue, Nat.mul_comm] using hvalue

theorem isDigit_of_mem_digits {n : Nat} {c : Char} (h : c ∈ Nat.toDigits 10 n) : c.isDigit = true :=
  Nat.isDigit_of_mem_toDigits (by decide) (by decide) h

/-- The digits of a number other than zero do not start with a zero. -/
theorem head?_toDigits_ne {n : Nat} (hn : n ≠ 0) : (Nat.toDigits 10 n).head? ≠ some '0' := by
  induction n using Nat.strongRecOn with
  | ind n ih =>
    rw [Nat.toDigits_eq_if (by decide)]
    split
    · rename_i hlt
      have hdigit : ∀ m < 10, m ≠ 0 → Nat.digitChar m ≠ '0' := by decide
      simpa using hdigit n hlt hn
    · rename_i hge
      rw [List.head?_append_of_ne_nil _ Nat.toDigits_ne_nil]
      exact ih (n / 10) (by omega) (by omega)

theorem isSpace_of_isDigit {c : Char} (h : c.isDigit = true) : isSpace c = false := by
  rw [Bool.eq_false_iff]
  intro hspace
  simp only [isSpace, Bool.or_eq_true, beq_iff_eq] at hspace
  rcases hspace with ((rfl | rfl) | rfl) | rfl <;> exact absurd h (by decide)

theorem hasLeadingZero_toDigits (n : Nat) : hasLeadingZero (Nat.toDigits 10 n) = false := by
  by_cases hn : n = 0
  · subst hn; rfl
  · have hhead := head?_toDigits_ne hn
    cases hds : Nat.toDigits 10 n with
    | nil => rfl
    | cons d ds =>
      rw [hds] at hhead
      unfold hasLeadingZero
      split
      · rename_i heq
        simp only [List.cons.injEq] at heq
        exact absurd (by simp [heq.1]) hhead
      · rfl

theorem takeWhile_digits {rest : List Char} (n : Nat) (h : Ends rest) :
    (Nat.toDigits 10 n ++ rest).takeWhile Char.isDigit = Nat.toDigits 10 n := by
  rw [List.takeWhile_append_of_pos fun c hc => isDigit_of_mem_digits hc]
  cases rest with
  | nil => simp
  | cons c rest => simp [(h c (by simp)).1]

theorem dropWhile_digits {rest : List Char} (n : Nat) (h : Ends rest) :
    (Nat.toDigits 10 n ++ rest).dropWhile Char.isDigit = rest := by
  rw [List.dropWhile_append_of_pos fun c hc => isDigit_of_mem_digits hc]
  cases rest with
  | nil => simp
  | cons c rest => simp [(h c (by simp)).1]

theorem fraction?_of_ends {rest : List Char} (h : Ends rest) : fraction? rest = some ([], rest) := by
  cases rest with
  | nil => rfl
  | cons c rest =>
    have hc := (h c (by simp)).2.1
    unfold fraction?
    split
    · rename_i heq
      exact absurd (List.cons.inj heq).1 hc
    · rfl

theorem power?_of_ends {rest : List Char} (h : Ends rest) : power? rest = some ([], rest) := by
  cases rest with
  | nil => rfl
  | cons c rest =>
    obtain ⟨-, -, he, hE⟩ := h c (by simp)
    simp [power?, he, hE]

theorem number?_digits (negative : Bool) (n : Nat) {rest : List Char} (h : Ends rest)
    (hzero : negative = true → n ≠ 0) :
    number? negative (Nat.toDigits 10 n ++ rest)
      = some (.int (if negative then -(n : Int) else n), rest) := by
  have hne : Nat.toDigits 10 n ≠ [] := Nat.toDigits_ne_nil
  have hlone : (negative && Nat.toDigits 10 n == ['0']) = false := by
    cases negative with
    | false => rfl
    | true =>
      have hhead := head?_toDigits_ne (hzero rfl)
      cases hds : Nat.toDigits 10 n with
      | nil => rfl
      | cons d ds =>
        rw [hds] at hhead
        simp only [List.head?_cons, ne_eq, Option.some.injEq] at hhead
        simp [hhead]
  unfold number?
  simp only [takeWhile_digits n h, dropWhile_digits n h, hasLeadingZero_toDigits, fraction?_of_ends h,
    power?_of_ends h, digitsValue_toDigits, hlone, List.isEmpty_eq_false_iff.mpr hne, Option.bind_eq_bind,
    Option.bind_some, List.isEmpty_nil, Bool.or_false, Bool.false_eq_true, if_false, Bool.not_false,
    Bool.and_true, if_true]
  rfl

/-! ## Texts between quotes -/

theorem hexValue?_digitChar : ∀ n < 16, hexValue? (Nat.digitChar n) = some n := by decide

/-- The two hexadecimal digits of a control character stand for it. -/
theorem unicodeEscape?_control {c : Char} (h : c.toNat < 0x20) (rest : List Char) :
    unicodeEscape? ('0' :: '0' :: Nat.digitChar (c.toNat / 16) :: Nat.digitChar (c.toNat % 16) :: rest)
      = some (c, rest) := by
  have hhigh := hexValue?_digitChar (c.toNat / 16) (by omega)
  have hlast := hexValue?_digitChar (c.toNat % 16) (by omega)
  have hzero : hexValue? '0' = some 0 := rfl
  have hsum : ((0 * 16 + 0) * 16 + c.toNat / 16) * 16 + c.toNat % 16 = c.toNat := by omega
  simp only [unicodeEscape?, hexQuad?, hzero, hhigh, hlast, Option.bind_eq_bind, Option.bind_some, pure,
    hsum, Char.ofNat_toNat]
  rw [if_neg (by simp; omega), if_neg (by simp; omega)]

/-- A character that was escaped is read back. -/
theorem stringBody?_escapeChar (c : Char) (n : Nat) (rest : List Char) :
    stringBody? (n + 1) (escapeChar c ++ rest)
      = (stringBody? n rest).map fun (cs, rest) => (c :: cs, rest) := by
  unfold escapeChar
  split
  case h_8 hquote hback _ _ _ _ _ =>
    split
    · rename_i hlow
      cases hread : stringBody? n rest <;> simp [stringBody?, unicodeEscape?_control hlow, hread]
    · rename_i hhigh
      have hq : c ≠ '"' := fun h => hquote h
      have hb : c ≠ '\\' := fun h => hback h
      simp [stringBody?, hq, hb, hhigh]
  all_goals
    cases hread : stringBody? n rest <;> simp [stringBody?, shortEscape?, hread]

theorem stringBody?_escaped : ∀ (cs : List Char) {n : Nat} (rest : List Char), cs.length < n →
    stringBody? n (cs.flatMap escapeChar ++ '"' :: rest) = some (cs, rest)
  | [], n + 1, rest, _ => by simp [stringBody?]
  | c :: cs, n + 1, rest, h => by
    rw [List.flatMap_cons, List.append_assoc, stringBody?_escapeChar,
      stringBody?_escaped cs rest (by simpa using h)]
    rfl

theorem length_le_escaped (cs : List Char) : cs.length ≤ (cs.flatMap escapeChar).length := by
  induction cs with
  | nil => simp
  | cons c cs ih =>
    have hone : 1 ≤ (escapeChar c).length := by
      unfold escapeChar
      split <;> first | decide | (split <;> simp)
    simp only [List.flatMap_cons, List.length_append, List.length_cons]
    omega

/-! ## Texts that spell a value -/

/-- A value without parts and without a fraction. -/
inductive IsAtom : Json → Prop
  | null : IsAtom .null
  | bool (b : Bool) : IsAtom (.bool b)
  | int (n : Int) : IsAtom (.int n)
  | str (s : String) : IsAtom (.str s)

mutual

/-- The text has the marks of the value in order, with blanks only between them. The value nests at most
so deep. -/
inductive Spells : Nat → Json → List Char → Prop
  | atom {d : Nat} {j : Json} (h : IsAtom j) : Spells d j (atom j)
  | noItems {d : Nat} : Spells (d + 1) (.arr []) ['[', ']']
  | items {d : Nat} {items : List Json} {cs : List Char} (h : SpellsItems d items cs) :
      Spells (d + 1) (.arr items) ('[' :: cs)
  | noFields {d : Nat} : Spells (d + 1) (.obj []) ['\x7b', '\x7d']
  | fields {d : Nat} {fields : List (String × Json)} {cs : List Char} (h : SpellsFields d fields cs) :
      Spells (d + 1) (.obj fields) ('\x7b' :: cs)

/-- The same for the items of an array up to its end; there is at least one. -/
inductive SpellsItems : Nat → List Json → List Char → Prop
  | last {d : Nat} {j : Json} {front cs back : List Char} (hfront : Blank front) (h : Spells d j cs)
      (hback : Blank back) : SpellsItems d [j] (front ++ (cs ++ (back ++ [']'])))
  | more {d : Nat} {j : Json} {rest : List Json} {front cs back more : List Char} (hfront : Blank front)
      (h : Spells d j cs) (hback : Blank back) (hrest : SpellsItems d rest more) :
      SpellsItems d (j :: rest) (front ++ (cs ++ (back ++ ',' :: more)))

/-- The same for the fields of an object. -/
inductive SpellsFields : Nat → List (String × Json) → List Char → Prop
  | last {d : Nat} {k : String} {j : Json} {front mid cs back : List Char} (hfront : Blank front)
      (hmid : Blank mid) (h : Spells d j cs) (hback : Blank back) :
      SpellsFields d [(k, j)] (front ++ (quote k ++ ':' :: (mid ++ (cs ++ (back ++ ['\x7d'])))))
  | more {d : Nat} {k : String} {j : Json} {rest : List (String × Json)} {front mid cs back more : List Char}
      (hfront : Blank front) (hmid : Blank mid) (h : Spells d j cs) (hback : Blank back)
      (hrest : SpellsFields d rest more) :
      SpellsFields d ((k, j) :: rest) (front ++ (quote k ++ ':' :: (mid ++ (cs ++ (back ++ ',' :: more)))))

end

/-- What spells a value starts with a mark that neither is blank nor ends an array. -/
theorem Spells.head {d : Nat} {j : Json} {cs : List Char} (hs : Spells d j cs) :
    ∃ c tail, cs = c :: tail ∧ isSpace c = false ∧ c ≠ ']' := by
  cases hs with
  | atom hj =>
    cases hj with
    | null => exact ⟨_, _, rfl, by decide, by decide⟩
    | bool b => cases b <;> exact ⟨_, _, rfl, by decide, by decide⟩
    | str s => exact ⟨_, _, rfl, by decide, by decide⟩
    | int m =>
      cases m with
      | negSucc k => exact ⟨_, _, toList_negSucc k, by decide, by decide⟩
      | ofNat k =>
        change ∃ c tail, (toString (Int.ofNat k)).toList = c :: tail ∧ _
        rw [toList_ofNat]
        cases hds : Nat.toDigits 10 k with
        | nil => exact absurd hds Nat.toDigits_ne_nil
        | cons c ds =>
          have hc : c.isDigit = true := isDigit_of_mem_digits (n := k) (by rw [hds]; simp)
          refine ⟨c, ds, rfl, isSpace_of_isDigit hc, ?_⟩
          rintro rfl
          exact absurd hc (by decide)
  | noItems => exact ⟨_, _, rfl, by decide, by decide⟩
  | items _ => exact ⟨_, _, rfl, by decide, by decide⟩
  | noFields => exact ⟨_, _, rfl, by decide, by decide⟩
  | fields _ => exact ⟨_, _, rfl, by decide, by decide⟩

/-- An array with items does not look like one without. -/
theorem SpellsItems.skipSpace_ne {d : Nat} {items : List Json} {cs : List Char}
    (hs : SpellsItems d items cs) (rest more : List Char) : skipSpace (cs ++ rest) ≠ ']' :: more := by
  cases hs with
  | last hfront hs hback | more hfront hs hback hrest =>
    obtain ⟨c, tail, rfl, hspace, hne⟩ := hs.head
    rw [List.append_assoc, skipSpace_blank hfront, List.cons_append, List.cons_append, skipSpace_cons hspace]
    exact fun h => hne (List.cons.inj h).1

/-- An object with fields does not look like one without. -/
theorem SpellsFields.skipSpace_ne {d : Nat} {fields : List (String × Json)} {cs : List Char}
    (hs : SpellsFields d fields cs) (rest more : List Char) : skipSpace (cs ++ rest) ≠ '\x7d' :: more := by
  cases hs with
  | last hfront | more hfront =>
    rw [List.append_assoc, skipSpace_blank hfront, quote, List.cons_append, List.cons_append,
      List.cons_append, skipSpace_cons (by decide)]
    exact fun h => absurd (List.cons.inj h).1 (by decide)

/-! ## Reading -/

theorem skipSpace_skipSpace (cs : List Char) : skipSpace (skipSpace cs) = skipSpace cs :=
  List.dropWhile_idempotent isSpace cs

theorem value?_skipSpace (n depth : Nat) (cs : List Char) :
    value? n depth (skipSpace cs) = value? n depth cs := by
  cases n with
  | zero => rfl
  | succ n => rw [value?, value?, skipSpace_skipSpace]

theorem value?_blank {g : List Char} (hg : Blank g) (n depth : Nat) (cs : List Char) :
    value? n depth (g ++ cs) = value? n depth cs := by
  rw [← value?_skipSpace, skipSpace_blank hg, value?_skipSpace]

/-- Behind the bracket of an array that has items come its items. -/
theorem value?_items {n depth : Nat} {cs rest : List Char} {items : List Json}
    (hne : ∀ more, skipSpace cs ≠ ']' :: more) (h : items? n depth cs = some (items, rest)) :
    value? (n + 1) (depth + 1) ('[' :: cs) = some (.arr items, rest) := by
  have hskip : items? n depth (skipSpace cs) = some (items, rest) := by
    cases n with
    | zero => exact absurd h (by simp [items?])
    | succ n => simpa only [items?, value?_skipSpace] using h
  rw [value?, skipSpace_cons (by decide)]
  simp only [Char.reduceBEq, Bool.false_eq_true, if_false, if_true, Nat.add_one_sub_one]
  rw [if_neg (by simp)]
  rw [hskip]
  rfl

/-- Behind the brace of an object that has fields come its fields. -/
theorem value?_fields {n depth : Nat} {cs rest : List Char} {fields : List (String × Json)}
    (hne : ∀ more, skipSpace cs ≠ '\x7d' :: more) (h : fields? n depth cs = some (fields, rest)) :
    value? (n + 1) (depth + 1) ('\x7b' :: cs) = some (.obj fields, rest) := by
  have hskip : fields? n depth (skipSpace cs) = some (fields, rest) := by
    cases n with
    | zero => exact absurd h (by simp [fields?])
    | succ n => simpa only [fields?, skipSpace_skipSpace] using h
  rw [value?, skipSpace_cons (by decide)]
  simp only [Char.reduceBEq, Bool.false_eq_true, if_false, if_true, Nat.add_one_sub_one]
  rw [if_neg (by simp)]
  rw [hskip]
  rfl

theorem value?_of_digit {c : Char} (h : c.isDigit = true) (n depth : Nat) (cs : List Char) :
    value? (n + 1) depth (c :: cs) = number? false (c :: cs) := by
  have hne : ∀ mark : Char, mark.isDigit = false → (c == mark) = false := by
    intro mark hmark
    refine beq_false_of_ne ?_
    rintro rfl
    rw [h] at hmark
    exact absurd hmark (by decide)
  rw [value?, skipSpace_cons (isSpace_of_isDigit h)]
  simp only [hne '"' (by decide), hne '[' (by decide), hne '\x7b' (by decide), hne 'n' (by decide),
    hne 't' (by decide), hne 'f' (by decide), hne '-' (by decide), Bool.false_eq_true, if_false]

theorem value?_int (m : Int) {n depth : Nat} {rest : List Char} (hrest : Ends rest) :
    value? (n + 1) depth ((toString m).toList ++ rest) = some (.int m, rest) := by
  cases m with
  | ofNat k =>
    have hread := number?_digits false k hrest (by simp)
    rw [toList_ofNat]
    cases hds : Nat.toDigits 10 k with
    | nil => exact absurd hds Nat.toDigits_ne_nil
    | cons c ds =>
      have hc : c.isDigit = true := isDigit_of_mem_digits (n := k) (by rw [hds]; simp)
      rw [hds] at hread
      rw [List.cons_append, value?_of_digit hc]
      exact hread
  | negSucc k =>
    have hread := number?_digits true (k + 1) hrest (by simp)
    rw [toList_negSucc, List.cons_append, value?, skipSpace_cons (by decide)]
    exact hread

theorem value?_quote (s : String) {n depth : Nat} (rest : List Char) (h : (quote s).length ≤ n) :
    value? (n + 1) depth (quote s ++ rest) = some (.str s, rest) := by
  have hlength := length_le_escaped s.toList
  simp only [quote, List.cons_append, List.length_cons, List.length_append, List.length_nil] at h
  have hbody := stringBody?_escaped s.toList (n := n) rest (by omega)
  have hquote : quote s ++ rest = '"' :: (s.toList.flatMap escapeChar ++ '"' :: rest) := by
    simp [quote]
  rw [hquote, value?, skipSpace_cons (by decide)]
  simp [hbody]

/-- A value without parts is read off the front of a text. -/
theorem value?_atom {j : Json} (hj : IsAtom j) {n depth : Nat} {rest : List Char} (hrest : Ends rest)
    (h : (atom j).length < n) : value? n depth (atom j ++ rest) = some (j, rest) := by
  obtain ⟨n, rfl⟩ : ∃ k, n = k + 1 := ⟨n - 1, by omega⟩
  cases hj with
  | null => rfl
  | bool b => cases b <;> rfl
  | int m => exact value?_int m hrest
  | str s => exact value?_quote s rest (by simpa [atom] using Nat.le_of_lt_succ h)

mutual

/-- A text that spells a value is read as the value, whatever follows, if it does not go on with a
number. -/
theorem Spells.value?_eq {d : Nat} {j : Json} {cs : List Char} (hs : Spells d j cs) {n : Nat}
    {rest : List Char} (hrest : Ends rest) (h : cs.length < n) :
    value? n d (cs ++ rest) = some (j, rest) := by
  obtain ⟨n, rfl⟩ : ∃ k, n = k + 1 := ⟨n - 1, by omega⟩
  cases hs with
  | atom hj => exact value?_atom hj hrest h
  | noItems => rfl
  | items hs => exact value?_items (hs.skipSpace_ne rest) (hs.items?_eq rest (by simpa using h))
  | noFields => rfl
  | fields hs => exact value?_fields (hs.skipSpace_ne rest) (hs.fields?_eq rest (by simpa using h))
termination_by n

theorem SpellsItems.items?_eq {d : Nat} {items : List Json} {cs : List Char}
    (hs : SpellsItems d items cs) (rest : List Char) {n : Nat} (h : cs.length < n) :
    items? n d (cs ++ rest) = some (items, rest) := by
  obtain ⟨n, rfl⟩ : ∃ k, n = k + 1 := ⟨n - 1, by omega⟩
  cases hs with
  | @last _ j front cs back hfront hs hback =>
    simp only [List.length_append, List.length_cons, List.length_nil] at h
    have hread := hs.value?_eq (n := n) (ends_blank hback (ends_bracket rest)) (by omega)
    simp only [List.append_assoc, items?, value?_blank hfront, List.cons_append, List.nil_append, hread,
      Option.bind_eq_bind, Option.bind_some, skipSpace_blank hback, skipSpace_cons (c := ']') (by decide)]
    rfl
  | @more _ j items front cs back more hfront hs hback hrest =>
    simp only [List.length_append, List.length_cons] at h
    have hread := hs.value?_eq (n := n) (ends_blank hback (ends_comma (more ++ rest))) (by omega)
    have hmore := hrest.items?_eq rest (n := n) (by omega)
    simp only [List.append_assoc, items?, value?_blank hfront, List.cons_append, hread,
      Option.bind_eq_bind, Option.bind_some, skipSpace_blank hback, skipSpace_cons (c := ',') (by decide),
      hmore]
    rfl
termination_by n

theorem SpellsFields.fields?_eq {d : Nat} {fields : List (String × Json)} {cs : List Char}
    (hs : SpellsFields d fields cs) (rest : List Char) {n : Nat} (h : cs.length < n) :
    fields? n d (cs ++ rest) = some (fields, rest) := by
  obtain ⟨n, rfl⟩ : ∃ k, n = k + 1 := ⟨n - 1, by omega⟩
  cases hs with
  | @last _ k j front mid cs back hfront hmid hs hback =>
    simp only [quote, List.length_append, List.length_cons, List.length_nil] at h
    have hlength := length_le_escaped k.toList
    have hread := hs.value?_eq (n := n) (ends_blank hback (ends_brace rest)) (by omega)
    have hkey := stringBody?_escaped k.toList (n := n)
      (':' :: (mid ++ (cs ++ (back ++ '\x7d' :: rest)))) (by omega)
    simp only [quote, List.append_assoc, List.cons_append, List.nil_append, fields?,
      skipSpace_blank hfront, skipSpace_cons (c := '"') (by decide), hkey, Option.bind_eq_bind,
      Option.bind_some, skipSpace_cons (c := ':') (by decide), value?_blank hmid, hread,
      skipSpace_blank hback, skipSpace_cons (c := '\x7d') (by decide), String.ofList_toList]
    rfl
  | @more _ k j fields front mid cs back more hfront hmid hs hback hrest =>
    simp only [quote, List.length_append, List.length_cons, List.length_nil] at h
    have hlength := length_le_escaped k.toList
    have hread := hs.value?_eq (n := n) (ends_blank hback (ends_comma (more ++ rest))) (by omega)
    have hkey := stringBody?_escaped k.toList (n := n)
      (':' :: (mid ++ (cs ++ (back ++ ',' :: (more ++ rest))))) (by omega)
    have hmore := hrest.fields?_eq rest (n := n) (by omega)
    simp only [quote, List.append_assoc, List.cons_append, List.nil_append, fields?,
      skipSpace_blank hfront, skipSpace_cons (c := '"') (by decide), hkey, Option.bind_eq_bind,
      Option.bind_some, skipSpace_cons (c := ':') (by decide), value?_blank hmid, hread,
      skipSpace_blank hback, skipSpace_cons (c := ',') (by decide), hmore, String.ofList_toList]
    rfl
termination_by n

end

/-- Every text that spells a value, and nothing else, is read as that value. -/
theorem Spells.ofChars?_eq {j : Json} {cs : List Char} (hs : Spells maxDepth j cs) :
    ofChars? cs = some j := by
  have hread := hs.value?_eq ends_nil (Nat.lt_succ_self cs.length)
  rw [List.append_nil] at hread
  rw [ofChars?, hread]
  rfl

/-! ## Writing -/

/-- A value without fractions that nests at most so deep. -/
inductive Plain : Nat → Json → Prop
  | atom {d : Nat} {j : Json} (h : IsAtom j) : Plain d j
  | arr {d : Nat} {items : List Json} (h : ∀ j ∈ items, Plain d j) : Plain (d + 1) (.arr items)
  | obj {d : Nat} {fields : List (String × Json)} (h : ∀ f ∈ fields, Plain d f.2) :
      Plain (d + 1) (.obj fields)

theorem blank_lineAt (level : Nat) : Blank (lineAt level) := by
  intro c hc
  rcases List.mem_cons.mp hc with rfl | hc
  · decide
  · rw [List.eq_of_mem_replicate hc]
    decide

theorem compactChars_atom {j : Json} (h : IsAtom j) : compactChars j = atom j := by
  cases h <;> rfl

theorem prettyChars_atom {j : Json} (h : IsAtom j) (level : Nat) : prettyChars level j = atom j := by
  cases h <;> rfl

theorem compactItems_spells {d : Nat} : ∀ {items : List Json}, items ≠ [] →
    (∀ j ∈ items, Spells d j (compactChars j)) → SpellsItems d items (compactItems items)
  | [j], _, h => by
    have hlast := SpellsItems.last blank_nil (h j (by simp)) blank_nil
    simpa [compactItems] using hlast
  | j :: k :: rest, _, h => by
    have hrest : SpellsItems d (k :: rest) (compactItems (k :: rest)) :=
      compactItems_spells (by simp) fun i hi => h i (by simp [hi])
    have hmore := SpellsItems.more blank_nil (h j (by simp)) blank_nil hrest
    simpa [compactItems] using hmore

theorem compactFields_spells {d : Nat} : ∀ {fields : List (String × Json)}, fields ≠ [] →
    (∀ f ∈ fields, Spells d f.2 (compactChars f.2)) → SpellsFields d fields (compactFields fields)
  | [(k, j)], _, h => by
    have hlast := SpellsFields.last (k := k) blank_nil blank_nil (h (k, j) (by simp)) blank_nil
    simpa [compactFields] using hlast
  | (k, j) :: f :: rest, _, h => by
    have hrest : SpellsFields d (f :: rest) (compactFields (f :: rest)) :=
      compactFields_spells (by simp) fun i hi => h i (by simp [hi])
    have hmore := SpellsFields.more (k := k) blank_nil blank_nil (h (k, j) (by simp)) blank_nil hrest
    simpa [compactFields] using hmore

theorem Plain.compactChars_spells {d : Nat} {j : Json} (h : Plain d j) : Spells d j (compactChars j) := by
  induction h with
  | atom hj => rw [compactChars_atom hj]; exact .atom hj
  | @arr d items _ ih =>
    rw [compactChars]
    cases items with
    | nil => exact .noItems
    | cons j rest => exact .items (compactItems_spells (by simp) ih)
  | @obj d fields _ ih =>
    rw [compactChars]
    cases fields with
    | nil => exact .noFields
    | cons f rest => exact .fields (compactFields_spells (by simp) ih)

theorem prettyItems_spells {d level : Nat} : ∀ {items : List Json} {front : List Char}, items ≠ [] →
    Blank front → (∀ j ∈ items, Spells d j (prettyChars (level + 1) j)) →
    SpellsItems d items (front ++ prettyItems level items)
  | [j], front, _, hfront, h => by
    have hlast := SpellsItems.last hfront (h j (by simp)) (blank_lineAt level)
    simpa [prettyItems] using hlast
  | j :: k :: rest, front, _, hfront, h => by
    have hrest : SpellsItems d (k :: rest) (lineAt (level + 1) ++ prettyItems level (k :: rest)) :=
      prettyItems_spells (by simp) (blank_lineAt (level + 1)) fun i hi => h i (by simp [hi])
    have hmore := SpellsItems.more hfront (h j (by simp)) blank_nil hrest
    simpa [prettyItems] using hmore

theorem blank_space : Blank [' '] := fun c hc => by rw [List.mem_singleton.mp hc]; decide

theorem prettyFields_spells {d level : Nat} : ∀ {fields : List (String × Json)} {front : List Char},
    fields ≠ [] → Blank front → (∀ f ∈ fields, Spells d f.2 (prettyChars (level + 1) f.2)) →
    SpellsFields d fields (front ++ prettyFields level fields)
  | [(k, j)], front, _, hfront, h => by
    have hlast := SpellsFields.last (k := k) hfront blank_space (h (k, j) (by simp)) (blank_lineAt level)
    simpa [prettyFields] using hlast
  | (k, j) :: f :: rest, front, _, hfront, h => by
    have hrest : SpellsFields d (f :: rest) (lineAt (level + 1) ++ prettyFields level (f :: rest)) :=
      prettyFields_spells (by simp) (blank_lineAt (level + 1)) fun i hi => h i (by simp [hi])
    have hmore := SpellsFields.more (k := k) hfront blank_space (h (k, j) (by simp)) blank_nil hrest
    simpa [prettyFields] using hmore

theorem Plain.prettyChars_spells {d : Nat} {j : Json} (h : Plain d j) :
    ∀ level, Spells d j (prettyChars level j) := by
  induction h with
  | atom hj => intro level; rw [prettyChars_atom hj]; exact .atom hj
  | @arr d items _ ih =>
    intro level
    cases items with
    | nil => exact .noItems
    | cons j rest =>
      rw [prettyChars, List.cons_append]
      exact .items (prettyItems_spells (by simp) (blank_lineAt _) fun i hi => ih i hi _)
  | @obj d fields _ ih =>
    intro level
    cases fields with
    | nil => exact .noFields
    | cons f rest =>
      rw [prettyChars, List.cons_append]
      exact .fields (prettyFields_spells (by simp) (blank_lineAt _) fun i hi => ih i hi _)

/-- What is written without blanks is read back. -/
theorem Plain.ofText?_compact {j : Json} (h : Plain maxDepth j) : ofText? j.compact = some j := by
  rw [ofText?, compact, String.toList_ofList]
  exact h.compactChars_spells.ofChars?_eq

/-- What is written over lines is read back. -/
theorem Plain.ofText?_pretty {j : Json} (h : Plain maxDepth j) : ofText? j.pretty = some j := by
  rw [ofText?, pretty, String.toList_ofList]
  exact (h.prettyChars_spells 0).ofChars?_eq

end LogHygiene.Json
