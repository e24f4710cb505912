import LogHygiene.Proofs.Fix.Positions

/-!
# Lines that are put in

New lines go to the top of a file, below a line, to the end of a file whose last line has no line end, or into the
middle of a line. Which line ends go with them follows from which of the four it is, and each time it comes to the same:

> **the new lines are lines of the result, from the line of the insertion place on; what is in front of it stays where
> it is, and what is behind it moves down by as many lines** (`ParsedFile.insertion_layout`).

In the middle of a line, the last new line goes on with what was behind the place on that line, and only there a column
changes.
-/

set_option autoImplicit false

namespace LogHygiene

open Syntax
open Bytes (newlines width)

/-! ## The lines of a text -/

namespace Bytes

/-- A line of a text without its line end, counted from one. -/
def line? (bytes : Bytes) : Nat → Option Bytes
  | 0 => none
  | n + 1 => (bytes.splitOn 10)[n]?

theorem length_splitOn (bytes : Bytes) : (bytes.splitOn 10).length = newlines bytes + 1 := by
  induction bytes with
  | nil => rfl
  | cons b rest ih =>
    rw [List.splitOn_cons_eq_if_modifyHead, newlines, List.count_cons]
    split
    · rw [List.length_cons, ih]
      rfl
    · rw [List.length_modifyHead, ih]
      rfl

/-- The first line goes up to the first line end. -/
theorem head?_splitOn (bytes : Bytes) : (bytes.splitOn 10).head? = some (bytes.takeWhile (· != 10)) := by
  induction bytes with
  | nil => rfl
  | cons b rest ih =>
    rw [List.splitOn_cons_eq_if_modifyHead, List.takeWhile_cons]
    by_cases hb : b = 10
    · simp [hb]
    · simp [hb, List.head?_modifyHead, ih]

/-- Behind a text that is empty or ends with a line end, the lines of a text come after those that there are. -/
theorem getElem?_splitOn_append {front : Bytes} (h : width front = 0) (rest : Bytes) (n : Nat) :
    ((front ++ rest).splitOn 10)[newlines front + n]? = (rest.splitOn 10)[n]? := by
  rcases List.eq_nil_or_concat' front with rfl | ⟨before, b, rfl⟩
  · exact congrArg _ (Nat.zero_add n)
  · have hb : b = 10 := by
      by_contra hb
      have hnone : newlines [b] = 0 := List.count_eq_zero.mpr (by simpa using Ne.symm hb)
      rw [width_append, if_pos hnone] at h
      exact absurd h (by simp)
    subst hb
    have hlength : newlines (before ++ [10]) = (before.splitOn 10).length := by
      rw [newlines_append, length_splitOn]
      rfl
    rw [List.append_assoc, List.singleton_append, List.splitOn_append_cons_self, hlength,
      List.getElem?_append_right (Nat.le_add_right _ _), Nat.add_sub_cancel_left]

/-- A place behind two parts of a text is on the line on which the first one ends, if the second has no line end. -/
theorem position_of_take {source front gap : Bytes} {n : Nat} (h : source.take n = front ++ gap) :
    (source.position n).row = newlines front + newlines gap ∧
      (source.position n).column = if newlines gap = 0 then width front + gap.length else width gap := by
  rw [← newlines_append, ← width_append, ← h]
  exact ⟨rfl, rfl⟩

end Bytes

/-! ## New lines -/

namespace LoggerSetup

/-- New lines are lines, and what comes behind them goes on with the last one. -/
theorem getElem?_splitOn_joined {rest : Bytes} : ∀ {lines : List NewLine} {n : Nat} {l : NewLine},
    (∀ l ∈ lines, newlines (Bytes.ofText l.text) = 0) → lines[n]? = some l →
    ((joined lines ++ rest).splitOn 10)[n]? = some (Bytes.ofText l.text ++
      (if n + 1 = lines.length then rest.takeWhile (· != 10) else []))
  | [], _, _, _, hn => absurd hn (by simp)
  | [m], 0, l, hplain, hn => by
    obtain rfl : m = l := Option.some.inj hn
    have hm := Bytes.newlines_eq_zero_iff.mp (hplain m List.mem_cons_self)
    simp only [List.mem_reverse] at hm
    rw [joined, List.map_singleton, String.intercalate_singleton, ← List.head?_eq_getElem?, Bytes.head?_splitOn,
      List.takeWhile_append_of_pos hm]
    rfl
  | [_], _ + 1, _, _, hn => absurd hn (by simp)
  | m :: m' :: more, n, l, hplain, hn => by
    obtain ⟨hm, hmore⟩ := List.forall_mem_cons.mp hplain
    have hfree : (10 : UInt8) ∉ Bytes.ofText m.text := List.count_eq_zero.mp hm
    have hsplit : (joined (m :: m' :: more) ++ rest).splitOn 10 =
        Bytes.ofText m.text :: (joined (m' :: more) ++ rest).splitOn 10 := by
      rw [joined_cons_cons, List.append_assoc, List.cons_append]
      exact List.splitOn_append_cons_self_of_not_mem hfree _
    rw [hsplit]
    cases n with
    | zero =>
      obtain rfl : m = l := Option.some.inj hn
      rw [if_neg (by simp), List.append_nil]
      rfl
    | succ n =>
      rw [List.getElem?_cons_succ, getElem?_splitOn_joined hmore hn]
      simp only [List.length_cons, Nat.add_right_cancel_iff]

end LoggerSetup

/-- The text of a file with new lines put in. -/
def LoggerSetup.putInto (u : LoggerSetup) (source : Bytes) (i : Insertion) : Bytes :=
  Edit.carryOut source (.insert i.byte (Bytes.ofText (u.block i)))

namespace Insertion

variable {source : Bytes} {i : Insertion} {u : LoggerSetup}

/-- The first new line begins a line, the one that the insertion place names. -/
theorem Fits.front (h : i.Fits source) :
    let front := source.take i.byte ++ (if i.needsLeadingNewline then [10] else [])
    width front = 0 ∧ i.line = newlines front + 1 := by
  intro front
  have hfront : front = source.take i.byte ++ (if i.needsLeadingNewline then [10] else []) := rfl
  have hline := h.line
  cases hlead : i.needsLeadingNewline with
  | false =>
    rw [hlead, if_neg (by simp)] at hline hfront
    rw [hfront, List.append_nil]
    exact ⟨(h.whole hlead).1, hline⟩
  | true =>
    rw [hlead, if_pos rfl] at hline hfront
    rw [hfront]
    exact ⟨Bytes.width_concat_newline _, by rw [hline, Bytes.newlines_append]; rfl⟩

/-- In the middle of a line, the first new line is the one below. -/
theorem Fits.line_of_midLine (h : i.Fits source) (hmid : i.midLine = true) :
    i.line = newlines (source.take i.byte) + 2 := by
  have hlead : i.needsLeadingNewline = true := by
    by_contra hlead
    have hwhole := (h.whole (Bool.eq_false_iff.mpr hlead)).2
    exact absurd (hmid.symm.trans hwhole) (by simp)
  rw [h.line, if_pos hlead]

/-- **The new lines are lines of the result.** In the middle of a line, what was behind the place goes on with the last
one. -/
theorem Fits.line?_putInto (h : i.Fits source) (hplain : ∀ l ∈ u.lines, newlines (Bytes.ofText l.text) = 0) {n : Nat}
    {l : NewLine} (hl : u.lines[n]? = some l) : (u.putInto source i).line? (i.line + n) =
      some (Bytes.ofText l.text ++
        (if i.midLine ∧ n + 1 = u.lines.length then (source.drop i.byte).takeWhile (· != 10) else [])) := by
  obtain ⟨hwidth, hline⟩ := h.front
  have hresult : u.putInto source i =
      (source.take i.byte ++ (if i.needsLeadingNewline then [10] else [])) ++
        (LoggerSetup.joined u.lines ++ ((if i.midLine then [] else [10]) ++ source.drop i.byte)) := by
    have hcarried : u.putInto source i = source.take i.byte ++ Bytes.ofText (u.block i) ++ source.drop i.byte := rfl
    rw [hcarried, LoggerSetup.ofText_block]
    simp only [List.append_assoc]
  have hnumber : i.line + n =
      newlines (source.take i.byte ++ (if i.needsLeadingNewline then [10] else [])) + n + 1 := by omega
  rw [hresult, hnumber, Bytes.line?, Bytes.getElem?_splitOn_append hwidth,
    LoggerSetup.getElem?_splitOn_joined hplain hl]
  cases i.midLine <;> simp

/-- What is in front of the place stays where it is. -/
theorem front_putInto (u : LoggerSetup) {n : Nat} (hn : n < source.length) (hfront : n < i.byte) :
    (u.putInto source i)[n]? = source[n]? ∧ (u.putInto source i).position n = source.position n := by
  have hresult : u.putInto source i = source.take i.byte ++ (Bytes.ofText (u.block i) ++ source.drop i.byte) :=
    List.append_assoc ..
  have hlen : n < (source.take i.byte).length := by
    rw [List.length_take]
    omega
  have htake : (u.putInto source i).take n = source.take n := by
    rw [hresult, List.take_append_of_le_length (Nat.le_of_lt hlen), List.take_take,
      Nat.min_eq_left (Nat.le_of_lt hfront)]
  refine ⟨?_, by rw [Bytes.position, Bytes.position, htake]⟩
  rw [hresult, List.getElem?_append_left hlen, List.getElem?_take, if_pos hfront]

/-- **What is behind the place moves down** by as many lines as are put in. In the middle of a line, what was on that
line goes on behind the last of them; everything else keeps its column. -/
theorem Fits.behind_putInto (h : i.Fits source) (hlines : u.lines ≠ [])
    (hplain : ∀ l ∈ u.lines, newlines (Bytes.ofText l.text) = 0) {n : Nat} (hn : n < source.length)
    (hbehind : i.byte ≤ n) :
    let moved := n + (Bytes.ofText (u.block i)).length
    let was := source.position n
    let now := (u.putInto source i).position moved
    (u.putInto source i)[moved]? = source[n]? ∧ now.row = was.row + u.lines.length ∧
      now.column = (if i.midLine ∧ now.row + 2 = i.line + u.lines.length then u.lastWidth + (n - i.byte)
        else was.column) := by
  intro moved was now
  let opening : Bytes := source.take i.byte ++ Bytes.ofText (u.block i)
  obtain ⟨hnewlines, hwidth, hwhole⟩ : newlines opening = newlines (source.take i.byte) + u.lines.length ∧
      width opening = (if i.midLine then u.lastWidth else 0) ∧ (i.midLine = false → width (source.take i.byte) = 0) :=
    LoggerSetup.extent_block h hlines hplain (Nat.lt_of_le_of_lt hbehind hn)
  -- between the place and what is behind it is the same text as before
  let gap : Bytes := (source.take n).drop i.byte
  have hgap : gap.length = n - i.byte := by
    rw [List.length_drop, List.length_take, Nat.min_eq_left (Nat.le_of_lt hn)]
  have hresult : u.putInto source i = opening ++ source.drop i.byte := rfl
  have hopening : opening.length = i.byte + (Bytes.ofText (u.block i)).length := by
    rw [List.length_append, List.length_take, Nat.min_eq_left (by omega)]
  have htake : (u.putInto source i).take moved = opening ++ gap := by
    have hbeyond : moved - opening.length = n - i.byte := by omega
    rw [hresult, List.take_append, List.take_of_length_le (by omega), hbeyond, ← List.drop_take]
  have hwas : source.take n = source.take i.byte ++ gap := (Bytes.take_append_drop_take source hbehind).symm
  obtain ⟨hnowRow, hnowColumn⟩ : now.row = _ ∧ now.column = _ := Bytes.position_of_take htake
  obtain ⟨hwasRow, hwasColumn⟩ : was.row = _ ∧ was.column = _ := Bytes.position_of_take hwas
  refine ⟨?_, by omega, ?_⟩
  · have hbeyond : i.byte + (moved - opening.length) = n := by omega
    rw [hresult, List.getElem?_append_right (by omega), List.getElem?_drop, hbeyond]
  · cases hmid : i.midLine with
    | false =>
      rw [if_neg (by simp), hnowColumn, hwasColumn, hwidth, hmid, hwhole hmid]
      rfl
    | true =>
      have hline := h.line_of_midLine hmid
      rw [hnowColumn, hwidth, hmid, if_pos rfl, hgap]
      by_cases hsame : newlines gap = 0
      · rw [if_pos hsame, if_pos ⟨rfl, by omega⟩]
      · rw [if_neg hsame, if_neg (fun hlast => by omega), hwasColumn, if_neg hsame]

/-- Between two characters the edit that puts the lines in is accepted. -/
theorem applyAll_edits (hlines : u.lines ≠ []) (hboundary : source.isBoundary i.byte = true) :
    Edit.applyAll source (u.edits i) = .ok (u.putInto source i) := by
  have hedits : u.edits i = [.insert i.byte (Bytes.ofText (u.block i))] := by
    rw [LoggerSetup.edits, if_neg (by simpa using hlines)]
  have hfit : Edit.misfit? source (.insert i.byte (Bytes.ofText (u.block i))) = none :=
    Edit.misfit?_eq_none.mpr ⟨Nat.le_refl _, Bytes.le_length_of_isBoundary hboundary, hboundary, hboundary⟩
  have hfault : Edit.fault? source (u.edits i) = none := by
    rw [hedits, Edit.fault?, List.findSome?_singleton, hfit]
    rfl
  rw [Edit.applyAll_of_inOrder (by rw [hedits]; exact List.pairwise_singleton _ _) hfault, hedits]
  rfl

end Insertion

/-- **Where lines are put in, and where everything else is then.** The rows in which the statements of the top level end
are counted right. The new lines are lines of the result, from the one on that the insertion place names; in the middle
of a line, the last of them goes on with what was behind the place. What is in front of the place keeps its line and
column; what is behind it is on a line further down by as many lines as are put in, in its column, unless that is the
last new line. -/
theorem ParsedFile.insertion_layout (f : ParsedFile) (u : LoggerSetup)
    (hrows : ∀ n ∈ f.tree.children, n.span.stop.row = newlines (f.source.take n.stop)) (hlines : u.lines ≠ [])
    (hplain : ∀ l ∈ u.lines, '\n' ∉ l.text.toList) :
    let i := f.facts.insertion
    let fixed := u.putInto f.source i
    (f.WellFormed → Edit.applyAll f.source (u.edits i) = .ok fixed) ∧
      (∀ n l, u.lines[n]? = some l → fixed.line? (i.line + n) = some (Bytes.ofText l.text ++
        (if i.midLine ∧ n + 1 = u.lines.length then (f.source.drop i.byte).takeWhile (· != 10) else []))) ∧
      (∀ n < f.source.length, n < i.byte → fixed[n]? = f.source[n]? ∧ fixed.position n = f.source.position n) ∧
      ∀ n < f.source.length, i.byte ≤ n →
        let moved := n + (Bytes.ofText (u.block i)).length
        let was := f.source.position n
        let now := fixed.position moved
        fixed[moved]? = f.source[n]? ∧ now.row = was.row + u.lines.length ∧
          now.column = (if i.midLine ∧ now.row + 2 = i.line + u.lines.length then u.lastWidth + (n - i.byte)
            else was.column) := by
  intro i fixed
  have hfits : i.Fits f.source := f.insertion_fits hrows
  have hplain : ∀ l ∈ u.lines, newlines (Bytes.ofText l.text) = 0 := fun l hl => Bytes.newlines_ofText (hplain l hl)
  exact ⟨fun hwf => Insertion.applyAll_edits hlines hwf.isBoundary_insertion,
    fun n l hl => hfits.line?_putInto hplain hl, fun n hn hfront => Insertion.front_putInto u hn hfront,
    fun n hn hbehind => hfits.behind_putInto hlines hplain hn hbehind⟩

/-- An import that other statements follow on its line. -/
def importAndCall : ParsedFile :=
  let source := Bytes.ofText "import a from 'a'; f();\ng();\n"
  ⟨"a.js", source, .javascript, Grammar.javascript.tree source⟩

/-- The two lines that `pino` takes. -/
def pinoSetup : LoggerSetup :=
  ⟨"logger", [⟨.importAdded, "import pino from 'pino';"⟩, ⟨.loggerAdded, "const logger = pino();"⟩]⟩

/-- The line of the import is cut behind it, and `f()` goes on behind the second new line. -/
theorem ParsedFile.insertion_layout_importAndCall :
    let fixed := pinoSetup.putInto importAndCall.source importAndCall.facts.insertion
    ((∀ n ∈ importAndCall.tree.children, n.span.stop.row = newlines (importAndCall.source.take n.stop)) ∧
        pinoSetup.lines ≠ [] ∧ (∀ l ∈ pinoSetup.lines, '\n' ∉ l.text.toList) ∧ importAndCall.WellFormed) ∧
      importAndCall.facts.insertion = ⟨18, 2, true, true⟩ ∧
      Edit.applyAll importAndCall.source (pinoSetup.edits importAndCall.facts.insertion) = .ok fixed ∧
      fixed.line? 3 = some (Bytes.ofText "const logger = pino(); f();") ∧
      fixed[67]? = importAndCall.source[19]? ∧ (fixed.position 67).row = 2 ∧ (fixed.position 67).column = 23 := by
  obtain ⟨hrows, hlines, hplain, hwf, hplace⟩ :
      (∀ n ∈ importAndCall.tree.children, n.span.stop.row = newlines (importAndCall.source.take n.stop)) ∧
        pinoSetup.lines ≠ [] ∧ (∀ l ∈ pinoSetup.lines, '\n' ∉ l.text.toList) ∧ importAndCall.WellFormed ∧
        importAndCall.facts.insertion = ⟨18, 2, true, true⟩ := by
    decide +kernel
  have hlayout := importAndCall.insertion_layout pinoSetup hrows hlines hplain
  simp only [hplace] at hlayout ⊢
  obtain ⟨happlied, hnew, -, hbehind⟩ := hlayout
  have hlast := hnew 1 ⟨.loggerAdded, "const logger = pino();"⟩ (by decide)
  have hmoved := hbehind 19 (by decide +kernel) (by decide)
  have hblock : 19 + (Bytes.ofText (pinoSetup.block ⟨18, 2, true, true⟩)).length = 67 := by decide +kernel
  rw [hblock] at hmoved
  obtain ⟨hbyte, hrow, hcolumn⟩ := hmoved
  have hbelow : (importAndCall.source.position 19).row + pinoSetup.lines.length = 2 := by decide +kernel
  rw [hbelow] at hrow
  have hwidth : pinoSetup.lastWidth + (19 - 18) = 23 := by decide +kernel
  rw [hrow, if_pos ⟨trivial, by decide⟩, hwidth] at hcolumn
  have hend : Bytes.ofText "const logger = pino();" ++ (importAndCall.source.drop 18).takeWhile (· != 10) =
      Bytes.ofText "const logger = pino(); f();" := by decide +kernel
  rw [if_pos ⟨trivial, by decide⟩, hend] at hlast
  exact ⟨⟨hrows, hlines, hplain, hwf⟩, trivial, happlied hwf, hlast, hbyte, hrow, hcolumn⟩

end LogHygiene
