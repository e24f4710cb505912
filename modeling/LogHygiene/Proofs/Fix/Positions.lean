import LogHygiene.Proofs.Fix.Changed
import LogHygiene.Proofs.Text.Lines

/-!
# Where changes say they are

A report gives the place of each change in the fixed text, worked out from places in the file. Of the lines that are
put in this is right: each stands on its line, from the first column on (`lines_stand`). Of a rewritten call it is
right

> **exactly if all rewritten callees in front of it keep to one line, and those on its own line are together as wide
> after as before** (`call_stands_iff`).

So the second of two calls on a line has a wrong column if the first one is not as long as what takes its place, and
what follows a callee over two lines has a wrong line.

Everything is seen from the insertion place: what is in front of it stays (`opening`), and behind it are only callees,
which `Edit.newlines_splice` and `Edit.width_splice` know how to count. `Project.plan_positions` says both of the
report of a plan.
-/

set_option autoImplicit false

namespace LogHygiene

open Syntax
open Bytes (newlines width widthOf)

/-! ## The insertion place -/

/-- An insertion place and its line. If it is not at the start of a line, it is behind a statement that another one
follows on the line, or at the end of the file. -/
structure Insertion.Fits (source : Bytes) (i : Insertion) : Prop where
  line : i.line = newlines (source.take i.byte) + (if i.needsLeadingNewline then 1 else 0) + 1
  whole : i.needsLeadingNewline = false → width (source.take i.byte) = 0 ∧ i.midLine = false
  atEnd : i.needsLeadingNewline = true → i.midLine = false → i.byte = source.length

namespace Insertion

theorem fits_top (source : Bytes) : top.Fits source := ⟨rfl, fun _ => ⟨rfl, rfl⟩, fun h => absurd h (by decide)⟩

theorem fits_belowLine (source : Bytes) (stop : Nat) : (belowLine source stop).Fits source := by
  unfold belowLine
  cases hfind : (source.drop stop).findIdx? (· == 10) with
  | none => exact ⟨rfl, fun (h : true = false) => absurd h (by decide), fun _ _ => rfl⟩
  | some n =>
    obtain ⟨hlt, hten, -⟩ := List.findIdx?_eq_some_iff_getElem.mp hfind
    have hbyte : source[stop + n]? = some 10 := by
      rw [← List.getElem?_drop, List.getElem?_eq_getElem hlt, beq_iff_eq.mp hten]
    refine ⟨rfl, fun _ => ⟨?_, rfl⟩, fun (h : false = true) => absurd h (by decide)⟩
    rw [List.take_add_one, hbyte]
    exact Bytes.width_concat_newline _

theorem fits_behind {source : Bytes} {statement : Node} (following : List Node)
    (hrow : statement.span.stop.row = newlines (source.take statement.stop)) :
    (behind source statement following).Fits source := by
  unfold behind
  simp only
  split
  · split
    · refine ⟨?_, fun (h : true = false) => absurd h (by decide), fun _ (h : true = false) => absurd h (by decide)⟩
      simp only [hrow, if_true]
    · exact fits_belowLine source _
  · exact fits_belowLine source _

end Insertion

namespace ParsedFile

/-- It is enough that the rows in which the statements of the top level end are counted right. -/
theorem insertion_fits {f : ParsedFile}
    (hrows : ∀ n ∈ f.tree.children, n.span.stop.row = newlines (f.source.take n.stop)) :
    f.facts.insertion.Fits f.source := by
  rcases f.insertion_cases with htop | ⟨n, following, hsuffix, hbehind⟩
  · rw [htop]
    exact Insertion.fits_top _
  · rw [hbehind]
    exact Insertion.fits_behind following (hrows n (hsuffix.subset List.mem_cons_self))

theorem Positioned.insertion_fits {f : ParsedFile} (h : f.Positioned) : f.facts.insertion.Fits f.source :=
  ParsedFile.insertion_fits fun n hn =>
    congrArg Position.row (h n (Node.mem_preorder_of_child hn n.mem_preorder_self)).2

end ParsedFile

/-! ## The lines that are put in -/

/-- A text stands where a change says. -/
def Bytes.StandsAt (bytes : Bytes) (text : String) (offset line column : Nat) : Prop :=
  bytes.Shows offset text ∧ (bytes.position offset).row + 1 = line ∧ (bytes.position offset).column + 1 = column

namespace LoggerSetup

def joined (lines : List NewLine) : Bytes := Bytes.ofText ("\n".intercalate (lines.map NewLine.text))

theorem joined_cons_cons (l m : NewLine) (rest : List NewLine) :
    joined (l :: m :: rest) = Bytes.ofText l.text ++ (10 :: joined (m :: rest)) := by
  rw [joined, List.map_cons, List.map_cons, String.intercalate_cons_cons, Bytes.ofText_append, Bytes.ofText_append,
    List.append_assoc]
  rfl

theorem ofText_block (u : LoggerSetup) (i : Insertion) : Bytes.ofText (u.block i) =
    (if i.needsLeadingNewline then [10] else []) ++ joined u.lines ++ (if i.midLine then [] else [10]) := by
  rw [block, Bytes.ofText_append, Bytes.ofText_append]
  cases i.needsLeadingNewline <;> cases i.midLine <;> rfl

theorem newlines_line (front : Bytes) {text : String} (htext : newlines (Bytes.ofText text) = 0) :
    newlines (front ++ Bytes.ofText text ++ [10]) = newlines front + 1 := by
  rw [Bytes.newlines_append, Bytes.newlines_append, htext]
  rfl

/-- From the start of a line on, each line stands on a line of its own. -/
theorem stands_changesFrom {rest : Bytes} : ∀ {lines : List NewLine} {front : Bytes}, width front = 0 →
    (∀ l ∈ lines, newlines (Bytes.ofText l.text) = 0) →
    ∀ change ∈ changesFrom (newlines front + 1) lines,
      ∃ offset, (front ++ joined lines ++ rest).StandsAt change.new offset change.line change.column
  | [], _, _, _, change, hchange => absurd hchange (by simp [changesFrom])
  | l :: more, front, hwidth, hlines, change, hchange => by
    obtain ⟨hl, hmore⟩ := List.forall_mem_cons.mp hlines
    rcases List.mem_cons.mp hchange with rfl | hchange
    · have hshape : ∃ tail, front ++ joined (l :: more) ++ rest = front ++ (Bytes.ofText l.text ++ tail) := by
        cases more with
        | nil => exact ⟨rest, by rw [List.append_assoc, joined, List.map_singleton, String.intercalate_singleton]⟩
        | cons m more =>
          exact ⟨10 :: joined (m :: more) ++ rest, by simp only [joined_cons_cons, List.append_assoc]⟩
      obtain ⟨tail, hshape⟩ := hshape
      refine ⟨front.length, ⟨front, tail, hshape, rfl⟩, ?_, ?_⟩
      · rw [hshape, Bytes.position_length_append]
      · rw [hshape, Bytes.position_length_append, hwidth]
    · cases more with
      | nil => exact absurd hchange (by simp [changesFrom])
      | cons m more =>
        have hshape : front ++ joined (l :: m :: more) ++ rest =
            front ++ Bytes.ofText l.text ++ [10] ++ joined (m :: more) ++ rest := by
          rw [joined_cons_cons]
          simp only [List.append_assoc, List.cons_append, List.nil_append]
        rw [hshape]
        exact stands_changesFrom (Bytes.width_concat_newline _) hmore change (newlines_line front hl ▸ hchange)

/-- Some lines from the start of a line on: how many line ends they are, and how wide the last one is. -/
theorem extent_joined : ∀ {lines : List NewLine} {front : Bytes}, lines ≠ [] → width front = 0 →
    (∀ l ∈ lines, newlines (Bytes.ofText l.text) = 0) →
    newlines (front ++ joined lines) + 1 = newlines front + lines.length ∧
      ∀ l ∈ lines.getLast?, width (front ++ joined lines) = widthOf l.text
  | [l], front, _, hwidth, hlines => by
    have hl := hlines l (by simp)
    rw [joined, List.map_singleton, String.intercalate_singleton, Bytes.newlines_append, hl, Bytes.width_append,
      if_pos hl, hwidth]
    refine ⟨rfl, fun l' hl' => ?_⟩
    obtain rfl := Option.some.inj hl'
    exact Nat.zero_add _
  | l :: m :: more, front, _, hwidth, hlines => by
    obtain ⟨hl, hmore⟩ := List.forall_mem_cons.mp hlines
    obtain ⟨hnewlines, hlast⟩ := @extent_joined (m :: more) (front ++ Bytes.ofText l.text ++ [10]) (by simp)
      (Bytes.width_concat_newline _) hmore
    have hshape : front ++ joined (l :: m :: more) = front ++ Bytes.ofText l.text ++ [10] ++ joined (m :: more) := by
      rw [joined_cons_cons]
      simp only [List.append_assoc, List.singleton_append]
    rw [← hshape, newlines_line front hl] at hnewlines
    rw [← hshape] at hlast
    refine ⟨?_, fun l' hl' => hlast l' (by simpa using hl')⟩
    simp only [hnewlines, List.length_cons]
    omega

/-- Where something comes behind them, how many lines there are up to the end of those that are put in, and how wide the
last one is. -/
theorem extent_block {source : Bytes} {u : LoggerSetup} {i : Insertion} (hfits : i.Fits source) (hlines : u.lines ≠ [])
    (hplain : ∀ l ∈ u.lines, newlines (Bytes.ofText l.text) = 0) (hbehind : i.byte < source.length) :
    let opening := source.take i.byte ++ Bytes.ofText (u.block i)
    newlines opening = newlines (source.take i.byte) + u.lines.length ∧
      width opening = (if i.midLine then u.lastWidth else 0) ∧ (i.midLine = false → width (source.take i.byte) = 0) := by
  intro opening
  have hopening : opening = source.take i.byte ++ Bytes.ofText (u.block i) := rfl
  cases hlead : i.needsLeadingNewline with
  | false =>
    obtain ⟨hwidth, hmid⟩ := hfits.whole hlead
    obtain ⟨hnewlines, -⟩ := extent_joined hlines hwidth hplain
    rw [hopening, ofText_block, hlead, hmid, if_neg (by simp), if_neg (by simp), List.nil_append, ← List.append_assoc]
    refine ⟨?_, Bytes.width_concat_newline _, fun _ => hwidth⟩
    rw [Bytes.newlines_append]
    exact hnewlines
  | true =>
    cases hmid : i.midLine with
    | false =>
      -- at the end of a file nothing comes behind
      have hend := hfits.atEnd hlead hmid
      omega
    | true =>
      obtain ⟨hnewlines, hlast⟩ := extent_joined hlines (Bytes.width_concat_newline (source.take i.byte)) hplain
      rw [hopening, ofText_block, hlead, hmid, if_pos rfl, if_pos rfl, List.append_nil, ← List.append_assoc]
      refine ⟨?_, ?_, fun h => absurd h (by simp)⟩
      · have hlead : newlines (source.take i.byte ++ [10]) = newlines (source.take i.byte) + 1 :=
          Bytes.newlines_append ..
        omega
      · obtain ⟨l, hl⟩ := Option.ne_none_iff_exists'.mp (mt List.getLast?_eq_none_iff.mp hlines)
        rw [if_pos rfl, lastWidth, hl, hlast l hl]
        rfl

end LoggerSetup

theorem newline_not_mem_importStatement (family : Family) (style : ModuleStyle) (backend : Backend) :
    '\n' ∉ (importStatement family style backend).toList := by
  cases family <;> cases style <;> cases backend <;> decide

theorem newline_not_mem_instanceStatement {family : Family} {b : Binding} {name : String} (hname : '\n' ∉ name.toList)
    (hb : '\n' ∉ b.name.toList) : '\n' ∉ (instanceStatement family b name).toList := by
  have happend : ∀ {s t : String}, '\n' ∉ s.toList → '\n' ∉ t.toList → '\n' ∉ (s ++ t).toList := by
    intro s t hs ht
    rw [String.toList_append]
    exact List.not_mem_append hs ht
  have hfactory : '\n' ∉ (b.factory family).toList := by
    unfold Binding.factory
    split
    · exact happend hb (by decide)
    · exact hb
    · exact hb
    · exact happend hb (by decide)
    · exact happend hb (by decide)
  cases family with
  | javascript => exact happend (happend (happend (happend (by decide) hname) (by decide)) hfactory) (by decide)
  | python => exact happend (happend (happend hname (by decide)) hfactory) (by decide)

/-! ## What is in front of a call -/

namespace Rework

variable {w : Rework} {c d : CallSite}

/-- No name that is put in has a line end, as no identifier has one. -/
structure Plain (w : Rework) : Prop where
  name : '\n' ∉ w.setup.name.toList
  binding : '\n' ∉ w.binding.name.toList

theorem callee_start (hpos : w.file.Positioned) (hc : c ∈ w.calls) :
    c.callee.start = w.file.source.position c.callee.start.byte := by
  obtain ⟨n, hn, hsite⟩ := exists_node_of_mem_calls hc
  obtain ⟨-, -, callee, hcallee, hspan, -⟩ := ParsedFile.callSite?_eq_some hsite
  rw [hspan]
  exact (hpos callee (ParsedFile.WellFormed.mem_child hn (Node.child?_eq_some hcallee).1)).1

namespace Plain

theorem callee (h : w.Plain) (c : CallSite) : newlines (Bytes.ofText (w.setup.callee w.family c)) = 0 := by
  refine Bytes.newlines_ofText ?_
  rw [LoggerSetup.callee, String.toList_append, String.toList_append]
  refine List.not_mem_append (List.not_mem_append h.name (by decide)) ?_
  cases w.family <;> cases c.level <;> decide

theorem lines (h : w.Plain) : ∀ l ∈ w.setup.lines, newlines (Bytes.ofText l.text) = 0 := by
  intro l hl
  refine Bytes.newlines_ofText ?_
  cases hnew : w.isNew with
  | false =>
    rw [setup_of_old hnew] at hl
    exact absurd hl (by simp)
  | true =>
    rw [Accepted.setup_of_new hnew] at hl
    rcases List.mem_append.mp hl with himport | hinstance
    · cases hbinding : w.file.facts.logger.binding with
      | some b =>
        rw [hbinding] at himport
        exact absurd himport (by simp)
      | none =>
        rw [hbinding, List.mem_singleton] at himport
        subst himport
        exact newline_not_mem_importStatement _ _ _
    · obtain rfl := List.mem_singleton.mp hinstance
      exact newline_not_mem_instanceStatement h.name h.binding

end Plain

/-- The end of what is left as it is, where lines are put in. -/
def openingStop (w : Rework) : Nat := if w.isNew then w.insertion.byte else 0

/-- The fixed text up to the lines that are put in. -/
def opening (w : Rework) : Bytes :=
  if w.isNew then w.file.source.take w.insertion.byte ++ Bytes.ofText (w.setup.block w.insertion) else []

/-- The rewritten calls whose callees are in front of that of a call. -/
def ahead (w : Rework) (c : CallSite) : List CallSite :=
  w.calls.filter fun d => d.callee.stop.byte ≤ c.callee.start.byte

/-- Those of them whose callees start on its line. -/
def aheadOnLine (w : Rework) (c : CallSite) : List CallSite :=
  (w.ahead c).filter fun d => d.callee.start.row == c.callee.start.row

/-- Where what takes the place of a callee starts in the fixed text. -/
def landing (w : Rework) (c : CallSite) : Nat := Edit.startAfter w.edits c.callee.start.byte

namespace Accepted

theorem openingStop_le (h : w.Accepted) (hc : c ∈ w.calls) : w.openingStop ≤ c.callee.start.byte := by
  unfold openingStop
  split
  · rename_i hnew
    exact h.insertion_le hnew hc
  · exact Nat.zero_le _

/-- No edit reaches over the start of a callee. -/
theorem cut_callee (h : w.Accepted) (hc : c ∈ w.calls) : Edit.Cut w.edits c.callee.start.byte := by
  intro e he
  rcases mem_edits.mp he with ⟨hnew, rfl⟩ | ⟨d, hd, rfl⟩
  · exact .inl (h.insertion_le hnew hc)
  · have hsub := w.settings.activeCalls_sublist w.file w.file.facts
    have hsymm : Std.Symm CallSite.Apart := ⟨fun _ _ => CallSite.Apart.symm⟩
    by_cases hsame : d = c
    · exact .inr (hsame ▸ Nat.le_refl _)
    · have hwide := (h.sound hc).wide
      rcases h.wellFormed.calls_apart.forall (hsub.mem hd) (hsub.mem hc) hsame with hbefore | hbehind
      · exact .inl hbefore
      · exact .inr (Nat.le_trans (Nat.le_of_lt hwide) hbehind)

/-- Among edits that follow one another the insertion comes first: it does not end behind the start of any callee. -/
theorem insertion_first {source : Bytes} {front : List Edit} {calls : List CallSite} (h : w.Accepted)
    (hnew : w.isNew = true) (hcalls : ∀ d ∈ calls, d ∈ w.calls) (hfollow : Edit.Follow source 0 front)
    (hperm : front.Perm (.insert w.insertion.byte (Bytes.ofText (w.setup.block w.insertion)) ::
      calls.map (w.setup.callEdit w.family))) :
    ∃ rest, front = .insert w.insertion.byte (Bytes.ofText (w.setup.block w.insertion)) :: rest ∧
      rest.Perm (calls.map (w.setup.callEdit w.family)) ∧ Edit.Follow source w.insertion.byte rest := by
  cases front with
  | nil => exact absurd hperm.length_eq (by simp)
  | cons e rest =>
    have hfirst : e = .insert w.insertion.byte (Bytes.ofText (w.setup.block w.insertion)) := by
      rcases List.mem_cons.mp (hperm.mem_iff.mp List.mem_cons_self) with hsame | hcall
      · exact hsame
      · obtain ⟨d, hd, rfl⟩ := List.mem_map.mp hcall
        have hbehind := h.insertion_le hnew (hcalls d hd)
        have hwide := (h.sound (hcalls d hd)).wide
        rcases List.mem_cons.mp (hperm.mem_iff.mpr List.mem_cons_self) with hsame | hinsert
        · exact hsame.symm
        · have hbefore := (List.pairwise_cons.mp hfollow.pairwise).1 _ hinsert
          simp only [Edit.insert, LoggerSetup.callEdit] at hbefore
          omega
    subst hfirst
    refine ⟨rest, rfl, hperm.cons_inv, ?_⟩
    cases hfollow with
    | cons _ _ _ hrest => exact hrest

/-- **In front of a callee** stand the lines that were put in, and the file from there on with the callees exchanged
that are ahead. -/
theorem take_landing (h : w.Accepted) (hc : c ∈ w.calls) :
    ∃ front : List Edit, front.Perm ((w.ahead c).map (w.setup.callEdit w.family)) ∧
      Edit.Follow (w.file.source.take c.callee.start.byte) w.openingStop front ∧
      w.fixed.take (w.landing c) =
        w.opening ++ Edit.splice (w.file.source.take c.callee.start.byte) w.openingStop front := by
  have hsound := h.sound hc
  have hlen : c.callee.start.byte ≤ w.file.source.length := Nat.le_trans (Nat.le_of_lt hsound.wide) hsound.inFile
  obtain ⟨hfollow, -, -⟩ := Edit.applyAll_eq_ok h.applied
  -- no edit reaches over the start of the callee, so the pass over the file can be cut there
  obtain ⟨hfixed, hlength⟩ := Edit.cut_start h.applied hlen (h.cut_callee hc)
  have htake := (congrArg (List.take (w.landing c)) hfixed).trans (List.take_left' hlength)
  have hperm := (Edit.inOrder_perm w.edits).filter (·.stop ≤ c.callee.start.byte)
  have hfront : Edit.Follow (w.file.source.take c.callee.start.byte) 0
      ((Edit.inOrder w.edits).filter (·.stop ≤ c.callee.start.byte)) :=
    (hfollow.sublist List.filter_sublist).take (Nat.zero_le _) hlen fun e he => by
      simpa using (List.mem_filter.mp he).2
  have hcalls : (w.calls.map (w.setup.callEdit w.family)).filter (·.stop ≤ c.callee.start.byte) =
      (w.ahead c).map (w.setup.callEdit w.family) := by
    rw [List.filter_map]
    rfl
  rw [htake]
  generalize (Edit.inOrder w.edits).filter (·.stop ≤ c.callee.start.byte) = front at hperm hfront
  unfold openingStop opening
  cases hnew : w.isNew with
  | false =>
    rw [edits_eq, hnew, if_neg (by simp), List.nil_append, hcalls] at hperm
    exact ⟨front, hperm, hfront, rfl⟩
  | true =>
    have hins : decide ((Edit.insert w.insertion.byte (Bytes.ofText (w.setup.block w.insertion))).stop ≤
        c.callee.start.byte) = true := decide_eq_true (h.insertion_le hnew hc)
    rw [edits_eq, hnew, if_pos rfl, List.singleton_append, List.filter_cons, if_pos hins, hcalls] at hperm
    obtain ⟨rest, rfl, hrests, hrest⟩ :=
      h.insertion_first hnew (fun d hd => (List.mem_filter.mp hd).1) hfront hperm
    refine ⟨rest, hrests, hrest, ?_⟩
    rw [if_pos rfl, if_pos rfl, Edit.splice, Edit.insert, Edit.slice_take (h.insertion_le hnew hc), Bytes.slice,
      List.drop_zero, Nat.sub_zero]

variable (h : w.Accepted) (hplain : w.Plain)

include h hplain in
/-- How many lines there are up to the end of those that are put in, and how wide the last one is. -/
theorem opening_extent (hc : c ∈ w.calls) :
    newlines w.opening = newlines (w.file.source.take w.openingStop) + w.setup.lines.length ∧
      width w.opening = (if w.isNew && w.insertion.midLine then w.setup.lastWidth else 0) ∧
      ((w.isNew && w.insertion.midLine) = false → width (w.file.source.take w.openingStop) = 0) := by
  have hfits : w.insertion.Fits w.file.source := h.positioned.insertion_fits
  unfold opening openingStop
  cases hnew : w.isNew with
  | false =>
    have hlines : w.setup.lines = [] := setup_of_old hnew
    simp [hlines]
  | true =>
    have hbehind := h.insertion_le hnew hc
    have hsound := h.sound hc
    have hlines : w.setup.lines ≠ [] := by
      rw [setup_of_new hnew]
      simp
    simp only [if_true, Bool.true_and]
    exact LoggerSetup.extent_block hfits hlines hplain.lines
      (Nat.lt_of_le_of_lt hbehind (Nat.lt_of_lt_of_le hsound.wide hsound.inFile))

/-! ## The lines and the calls -/

include h hplain in
/-- **Each line that is put in stands on its own line**, and the report says which. -/
theorem lines_stand : ∀ change ∈ LoggerSetup.changesFrom w.insertion.line w.setup.lines,
    ∃ offset, w.fixed.StandsAt change.new offset change.line change.column := by
  intro change hchange
  have hfits : w.insertion.Fits w.file.source := h.positioned.insertion_fits
  cases hnew : w.isNew with
  | false =>
    rw [setup_of_old hnew] at hchange
    exact absurd hchange (by simp [LoggerSetup.changesFrom])
  | true =>
    obtain ⟨rest, hfixed⟩ := h.fixed_of_new hnew
    have hline := hfits.line
    cases hlead : w.insertion.needsLeadingNewline with
    | false =>
      rw [hlead, if_neg (by simp), Nat.add_zero] at hline
      rw [hfixed, LoggerSetup.ofText_block, hlead, if_neg (by simp), List.nil_append, List.append_assoc,
        ← List.append_assoc]
      exact LoggerSetup.stands_changesFrom (hfits.whole hlead).1 hplain.lines change (hline ▸ hchange)
    | true =>
      have hfront : newlines (w.file.source.take w.insertion.byte ++ [10]) =
          newlines (w.file.source.take w.insertion.byte) + 1 := Bytes.newlines_append ..
      rw [hlead, if_pos rfl, ← hfront] at hline
      rw [hfixed, LoggerSetup.ofText_block, hlead, if_pos rfl, List.append_assoc, List.append_assoc,
        ← List.append_assoc, ← List.append_assoc]
      exact LoggerSetup.stands_changesFrom (Bytes.width_concat_newline _) hplain.lines change (hline ▸ hchange)

theorem moves_eq (h : w.Accepted) (hc : c ∈ w.calls) : w.setup.moves w.insertion c = w.isNew := by
  rw [LoggerSetup.moves]
  cases hnew : w.isNew with
  | false => rw [setup_of_old hnew]; rfl
  | true =>
    have hlines : w.setup.lines ≠ [] := by
      rw [setup_of_new hnew]
      simp
    simp [hlines, h.insertion_le hnew hc]

/-- An edit ahead takes out what the report says. -/
theorem slice_callEdit (h : w.Accepted) (hd : d ∈ w.ahead c) :
    Bytes.slice (w.file.source.take c.callee.start.byte) (w.setup.callEdit w.family d).start
      (w.setup.callEdit w.family d).stop = Bytes.ofText d.calleeText := by
  obtain ⟨hd, hstop⟩ := List.mem_filter.mp hd
  rw [(h.sound hd).shows]
  exact Edit.slice_take (of_decide_eq_true hstop)

theorem callChange_line (h : w.Accepted) (hc : c ∈ w.calls) :
    (w.setup.callChange w.family w.insertion c).line = c.callee.start.row + 1 + w.setup.lines.length := by
  simp only [LoggerSetup.callChange, h.moves_eq hc]
  split
  · rfl
  · rename_i hold
    rw [setup_of_old (by simpa using hold)]
    rfl

include h hplain in
/-- The column that the report gives for a call is that in the file, except that a line on which other lines were put
in counts from the last of them. -/
theorem callChange_column (hc : c ∈ w.calls) :
    let gap := newlines ((w.file.source.take c.callee.start.byte).drop w.openingStop)
    (w.setup.callChange w.family w.insertion c).column +
        (if gap = 0 then width (w.file.source.take w.openingStop) else 0) =
      width (w.file.source.take c.callee.start.byte) + (if gap = 0 then width w.opening else 0) + 1 := by
  intro gap
  have hfits : w.insertion.Fits w.file.source := h.positioned.insertion_fits
  obtain ⟨-, hopening, hstart⟩ := h.opening_extent hplain hc
  have hrow : c.callee.start.row = newlines (w.file.source.take c.callee.start.byte) :=
    congrArg Position.row (callee_start h.positioned hc)
  have hcolumn : c.callee.start.column = width (w.file.source.take c.callee.start.byte) :=
    congrArg Position.column (callee_start h.positioned hc)
  simp only [LoggerSetup.callChange, h.moves_eq hc]
  cases hjoins : w.isNew && w.insertion.midLine with
  | false =>
    rw [hjoins, if_neg (by simp)] at hopening
    rw [hstart hjoins, hopening]
    simp only [Bool.false_and, Bool.false_eq_true, if_false, hcolumn, ite_self, Nat.add_zero]
  | true =>
    obtain ⟨hnew, hmid⟩ := Bool.and_eq_true_iff.mp hjoins
    have hstop : w.openingStop = w.insertion.byte := if_pos hnew
    have hlead : w.insertion.needsLeadingNewline = true := by
      cases hlead : w.insertion.needsLeadingNewline with
      | true => rfl
      | false => exact (hfits.whole hlead).2.symm.trans hmid
    have hline := hfits.line
    have hle := h.insertion_le hnew hc
    have hsum := Bytes.newlines_take_add w.file.source hle
    rw [hlead, if_pos rfl] at hline
    rw [hjoins, if_pos rfl] at hopening
    have hgap : gap = newlines ((w.file.source.take c.callee.start.byte).drop w.insertion.byte) := by rw [← hstop]
    rw [Bool.true_and, hopening, hstop]
    by_cases hsame : gap = 0
    · -- the call shares the line of the insertion place, so its line is that of the last new one
      have hbeq : (c.callee.start.row + 2 == w.insertion.line) = true := beq_iff_eq.mpr (by omega)
      have hlen : c.callee.start.byte ≤ w.file.source.length :=
        Nat.le_trans (Nat.le_of_lt (h.sound hc).wide) (h.sound hc).inFile
      have hwidth : width (w.file.source.take c.callee.start.byte) =
          width (w.file.source.take w.insertion.byte) + (c.callee.start.byte - w.insertion.byte) := by
        rw [← Bytes.take_append_drop_take w.file.source hle, Bytes.width_append, if_pos (hgap ▸ hsame),
          List.length_drop, List.length_take, Nat.min_eq_left hlen]
      rw [hbeq, if_pos rfl, if_pos hsame, if_pos hsame, hwidth]
      omega
    · have hbeq : (c.callee.start.row + 2 == w.insertion.line) = false := beq_eq_false_iff_ne.mpr (by omega)
      rw [hbeq, if_neg (by simp), if_neg hsame, if_neg hsame, hcolumn]

include h hplain in
/-- **The line of a rewritten call** is too high by the line ends of the callees ahead. -/
theorem row_landing (hc : c ∈ w.calls) :
    (w.fixed.position (w.landing c)).row + 1 +
        ((w.ahead c).map fun d => newlines (Bytes.ofText d.calleeText)).sum =
      (w.setup.callChange w.family w.insertion c).line := by
  obtain ⟨front, hperm, hfollow, hfront⟩ := h.take_landing hc
  obtain ⟨hopening, -, -⟩ := h.opening_extent hplain hc
  have hsplice := Edit.newlines_splice hfollow
  -- what is taken out are the old callees, and what is put in has no line ends
  have hold : (front.map fun e => newlines (Bytes.slice (w.file.source.take c.callee.start.byte) e.start e.stop)).sum =
      ((w.ahead c).map fun d => newlines (Bytes.ofText d.calleeText)).sum := by
    rw [(hperm.map _).sum_nat, List.map_map]
    exact congrArg List.sum (List.map_congr_left fun d hd => congrArg newlines (h.slice_callEdit hd))
  have hnew : (front.map fun e => newlines e.text).sum = 0 := by
    rw [(hperm.map _).sum_nat, List.map_map]
    refine List.sum_eq_zero_iff_forall_eq_nat.mpr fun n hn => ?_
    obtain ⟨d, -, rfl⟩ := List.mem_map.mp hn
    exact hplain.callee d
  have hsource := Bytes.newlines_take_add w.file.source (h.openingStop_le hc)
  have hrow : c.callee.start.row = newlines (w.file.source.take c.callee.start.byte) :=
    congrArg Position.row (callee_start h.positioned hc)
  have hlanding : (w.fixed.position (w.landing c)).row = newlines (w.opening ++
      Edit.splice (w.file.source.take c.callee.start.byte) w.openingStop front) := congrArg newlines hfront
  rw [hlanding, h.callChange_line hc, hrow, Bytes.newlines_append]
  omega

include h in
/-- Of the edits in front of a callee, those on the last line are the callees ahead on its line. -/
theorem onLastLine_perm (hc : c ∈ w.calls) {front : List Edit}
    (hperm : front.Perm ((w.ahead c).map (w.setup.callEdit w.family))) :
    (Edit.onLastLine (w.file.source.take c.callee.start.byte) front).Perm
      ((w.aheadOnLine c).map (w.setup.callEdit w.family)) := by
  refine (hperm.filter _).trans (.of_eq ?_)
  rw [List.filter_map, aheadOnLine]
  refine congrArg _ (List.filter_congr fun d hd => ?_)
  obtain ⟨hd, hbefore⟩ := List.mem_filter.mp hd
  have hsum := Bytes.newlines_take_add w.file.source
    (Nat.le_trans (Nat.le_of_lt (h.sound hd).wide) (of_decide_eq_true hbefore))
  have hrow : c.callee.start.row = newlines (w.file.source.take c.callee.start.byte) :=
    congrArg Position.row (callee_start h.positioned hc)
  have hrow' : d.callee.start.row = newlines (w.file.source.take d.callee.start.byte) :=
    congrArg Position.row (callee_start h.positioned hd)
  rw [Bool.eq_iff_iff, beq_iff_eq, Function.comp_apply, beq_iff_eq, hrow, hrow']
  simp only [LoggerSetup.callEdit]
  omega

include h hplain in
/-- **The column of a rewritten call**, where callees ahead keep to one line, is off by what the callees ahead on its
line shrink. -/
theorem column_landing (hc : c ∈ w.calls) (hone : ∀ d ∈ w.ahead c, newlines (Bytes.ofText d.calleeText) = 0) :
    (w.fixed.position (w.landing c)).column + 1 + ((w.aheadOnLine c).map fun d => widthOf d.calleeText).sum =
      (w.setup.callChange w.family w.insertion c).column +
        ((w.aheadOnLine c).map fun d => widthOf (w.setup.callee w.family d)).sum := by
  obtain ⟨front, hperm, hfollow, hfront⟩ := h.take_landing hc
  have hedits : ∀ e ∈ front, ∃ d ∈ w.ahead c, w.setup.callEdit w.family d = e :=
    fun e he => List.mem_map.mp (hperm.mem_iff.mp he)
  have hsplice := Edit.width_splice hfollow
    (fun e he => by
      obtain ⟨d, hd, rfl⟩ := hedits e he
      rw [h.slice_callEdit hd]
      exact hone d hd)
    (fun e he => by
      obtain ⟨d, -, rfl⟩ := hedits e he
      exact hplain.callee d)
    w.opening (w.file.source.take w.openingStop)
  have hlast := h.onLastLine_perm hc hperm
  have hold : Edit.removed (Edit.onLastLine (w.file.source.take c.callee.start.byte) front) =
      ((w.aheadOnLine c).map fun d => widthOf d.calleeText).sum := by
    rw [Edit.removed_perm hlast, Edit.removed, List.map_map]
    refine congrArg List.sum (List.map_congr_left fun d hd => ?_)
    have hsound := h.sound (List.mem_filter.mp (List.mem_filter.mp hd).1).1
    show d.callee.stop.byte - d.callee.start.byte = (Bytes.ofText d.calleeText).length
    rw [hsound.shows, Edit.length_slice (Nat.le_of_lt hsound.wide) hsound.inFile]
  have hnew : Edit.added (Edit.onLastLine (w.file.source.take c.callee.start.byte) front) =
      ((w.aheadOnLine c).map fun d => widthOf (w.setup.callee w.family d)).sum := by
    rw [Edit.added_perm hlast, Edit.added, List.map_map]
    rfl
  have hcolumn := h.callChange_column hplain hc
  have hlanding : (w.fixed.position (w.landing c)).column = width (w.opening ++
      Edit.splice (w.file.source.take c.callee.start.byte) w.openingStop front) := congrArg width hfront
  rw [Bytes.take_append_drop_take w.file.source (h.openingStop_le hc), hold, hnew] at hsplice
  rw [hlanding]
  dsimp only at hcolumn
  omega

include h hplain in
/-- **A rewritten call is where the report says, exactly if** the callees ahead keep to one line, and those on its own
line are together as wide as before. -/
theorem call_stands_iff (hc : c ∈ w.calls) :
    let change := w.setup.callChange w.family w.insertion c
    w.fixed.StandsAt change.new (w.landing c) change.line change.column ↔
      (∀ d ∈ w.ahead c, newlines (Bytes.ofText d.calleeText) = 0) ∧
        ((w.aheadOnLine c).map fun d => widthOf (w.setup.callee w.family d)).sum =
          ((w.aheadOnLine c).map fun d => widthOf d.calleeText).sum := by
  intro change
  have hrow : _ = change.line := h.row_landing hplain hc
  have hcolumn (hone) : _ = change.column + _ := h.column_landing hplain hc hone
  have hzero : ((w.ahead c).map fun d => newlines (Bytes.ofText d.calleeText)).sum = 0 ↔
      ∀ d ∈ w.ahead c, newlines (Bytes.ofText d.calleeText) = 0 := by
    rw [List.sum_eq_zero_iff_forall_eq_nat, List.forall_mem_map]
  constructor
  · rintro ⟨-, hlineEq, hcolumnEq⟩
    have hone := hzero.mp (by omega)
    have hcolumn := hcolumn hone
    exact ⟨hone, by omega⟩
  · rintro ⟨hone, hsame⟩
    have hnone := hzero.mpr hone
    have hcolumn := hcolumn hone
    exact ⟨h.shows_newCallee hc, by omega, by omega⟩

end Accepted

instance (w : Rework) : Decidable w.Plain :=
  decidable_of_iff ('\n' ∉ w.setup.name.toList ∧ '\n' ∉ w.binding.name.toList)
    ⟨fun ⟨hname, hbinding⟩ => ⟨hname, hbinding⟩, fun h => ⟨h.name, h.binding⟩⟩

end Rework

namespace Project

/-- **Where the changes of a plan are.** The lines that are put in stand where the report says. A rewritten call stands
there exactly if the callees ahead of it keep to one line, and those on its own line are together as wide as before. -/
theorem plan_positions (c : Conditions) (p : Project) (path : String) (world : World)
    (hchanges : ((p.plan path).run (World.answerUnder c) world).1.report.changes ≠ []) :
    let r := ((p.plan path).run (World.answerUnder c) world).1.report
    ∃ f, ParsedFile.read? path r.original = some f ∧
      let w : Rework := ⟨f, p.config.settings f.grammar.family, p.shown path⟩
      let lines := LoggerSetup.changesFrom w.insertion.line w.setup.lines
      let change := w.setup.callChange w.family w.insertion
      r.changes.Perm (lines ++ w.calls.map change) ∧
      (f.WellFormed → f.Regular → w.Plain →
        (∀ l ∈ lines, ∃ offset, r.fixed.StandsAt l.new offset l.line l.column) ∧
        ∀ call ∈ w.calls, r.fixed.Shows (w.landing call) (change call).new ∧
          (r.fixed.StandsAt (change call).new (w.landing call) (change call).line (change call).column ↔
            (∀ d ∈ w.ahead call, newlines (Bytes.ofText d.calleeText) = 0) ∧
              ((w.aheadOnLine call).map fun d => widthOf (w.setup.callee w.family d)).sum =
                ((w.aheadOnLine call).map fun d => widthOf d.calleeText).sum)) := by
  obtain ⟨source, hplan, -⟩ := plan_changed hchanges
  rw [hplan] at hchanges ⊢
  obtain ⟨f, after, h⟩ := planSource_changed hchanges
  refine ⟨f, by rw [planSource_original hchanges]; exact h.read, planSource_changes hchanges h.read, ?_⟩
  intro hwf hregular hplain
  have haccepted := h.accepted hwf hregular
  rw [planSource_fixed hchanges h.read]
  exact ⟨haccepted.lines_stand hplain,
    fun call hcall => ⟨haccepted.shows_newCallee hcall, haccepted.call_stands_iff hplain hcall⟩⟩

/-- Two calls on a line. -/
def sharedLine : ParsedFile :=
  let source := Bytes.ofText "console.error(1); console.error(2);\n"
  ⟨"a.js", source, .javascript, Grammar.javascript.tree source⟩

/-- `logger.error` is shorter than `console.error`: the second one is reported in column 19 and is in column 18. -/
theorem plan_positions_sharedLine :
    let p : Project := ⟨"", Config.default⟩
    let w : Rework := ⟨sharedLine, p.config.settings .javascript, p.shown "a.js"⟩
    let change := w.setup.callChange w.family w.insertion
    let world : World := { disk := { nodes := [(["a.js"], .file sharedLine.source 0o644 default)] } }
    let r := ((p.plan "a.js").run (World.answerUnder {}) world).1.report
    (r.changes ≠ [] ∧ sharedLine.WellFormed ∧ sharedLine.Regular ∧ w.Plain) ∧
      ∃ call ∈ w.calls, (change call).line = 3 ∧ (change call).column = 19 ∧
        ¬ r.fixed.StandsAt (change call).new (w.landing call) (change call).line (change call).column ∧
        r.fixed.StandsAt (change call).new (w.landing call) 3 18 := by
  intro p w change world r
  have hgrammar : Grammar.ofPath? "a.js" = some .javascript := by decide +kernel
  have hread : ParsedFile.read? "a.js" sharedLine.source = some sharedLine :=
    ParsedFile.read?_of_grammar hgrammar _
  have hsmooth : p.IsSmooth "a.js" sharedLine := by decide +kernel
  obtain ⟨-, hchanges, horiginal, hfixed, hcalls⟩ :
      r = _ ∧ r.changes ≠ [] ∧ r.original = sharedLine.source ∧ r.fixed = w.fixed ∧ w.calls = w.met :=
    plan_of_smooth hgrammar (by decide +kernel) (by decide +kernel) hread hsmooth
  have htext : w.fixed = Edit.splice sharedLine.source 0
      (w.setup.edits w.insertion ++ w.met.map (w.setup.callEdit w.family)) := fixed_of_smooth hread hsmooth
  have hwf : sharedLine.WellFormed := by decide +kernel
  have hregular : sharedLine.Regular := by decide +kernel
  have hplain : w.Plain := by decide +kernel
  obtain ⟨f, hf, -, hstand⟩ := plan_positions {} p "a.js" world hchanges
  obtain rfl := Option.some.inj (hread.symm.trans (horiginal ▸ hf))
  obtain ⟨call, hcall, hline, hcolumn, hwider, hrow, hplace⟩ : ∃ call ∈ w.calls,
      (change call).line = 3 ∧ (change call).column = 19 ∧
      ((w.aheadOnLine call).map fun d => widthOf (w.setup.callee w.family d)).sum ≠
        ((w.aheadOnLine call).map fun d => widthOf d.calleeText).sum ∧
      (r.fixed.position (w.landing call)).row + 1 = 3 ∧ (r.fixed.position (w.landing call)).column + 1 = 18 := by
    have hedits : w.edits = w.setup.edits w.insertion ++ w.calls.map (w.setup.callEdit w.family) := rfl
    simp only [Rework.aheadOnLine, Rework.ahead, Rework.landing]
    rw [hedits, hcalls, hfixed, htext]
    decide +kernel
  obtain ⟨hshows, hexact⟩ := (hstand hwf hregular hplain).2 call hcall
  exact ⟨⟨hchanges, hwf, hregular, hplain⟩, call, hcall, hline, hcolumn,
    fun hstands => hwider (hexact.mp hstands).2, hshows, hrow, hplace⟩

end Project

end LogHygiene
