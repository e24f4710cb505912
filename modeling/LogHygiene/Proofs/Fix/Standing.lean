import LogHygiene.Proofs.Facts.Insertions
import LogHygiene.Proofs.Syntax.Repair
import LogHygiene.Proofs.Text.Lines

/-!
# How a file that was read lies in its text

A reading counts bytes, line ends and columns glyph by glyph, and a report counts them byte by byte. Both come to the
same: a glyph that ends a line is the byte of a line end, and no other glyph holds that byte (`chunk_cases`). So every
place of a text is the position of its offset (`Position.Within.eq_position`), and

> **a file that was read is positioned** (`ParsedFile.positioned_of_read`).

And a call takes its place from what it calls, a member from its object (`ParsedFile.headed_of_read`).

Where rows and columns are right, the place for new lines is not in the middle of a statement: what does not follow the
head of the file ends in front of it, and what follows the head begins behind it (`WellFormed.stop_le_insertion_iff`).
-/

set_option autoImplicit false

namespace LogHygiene

open Syntax
open Bytes (newlines)

/-! ## Rows and columns -/

/-- The rows and columns of nodes are those of their offsets. -/
def ParsedFile.Positioned (f : ParsedFile) : Prop :=
  ∀ n ∈ f.tree.preorder, n.span.start = f.source.position n.start ∧ n.span.stop = f.source.position n.stop

instance (f : ParsedFile) : Decidable f.Positioned :=
  inferInstanceAs (Decidable (∀ n ∈ f.tree.preorder,
    n.span.start = f.source.position n.start ∧ n.span.stop = f.source.position n.stop))

namespace Bytes

theorem position_length_append (front rest : Bytes) :
    (front ++ rest).position front.length = ⟨front.length, newlines front, width front⟩ := by
  rw [Bytes.position, List.take_left]
  rfl

/-- The place behind some bytes. -/
def extent (front : Bytes) : Position := ⟨front.length, newlines front, width front⟩

/-- The bytes that the glyph at a byte is made of. -/
def chunk (b : UInt8) (rest : Bytes) : Bytes := b :: rest.take ((glyphAt b rest).width - 1)

/-- Only the line feed is spelled with the byte of a line end. -/
theorem newlines_encode {c : Char} (hc : c ≠ '\n') : newlines (String.utf8EncodeChar c) = 0 := by
  refine List.count_eq_zero.mpr fun hmem => hc ?_
  have hspelled : ofText (String.ofList [c]) = String.utf8EncodeChar c := by
    rw [ofText_eq_spell, String.toList_ofList, spell_cons, spell_nil, List.append_nil]
  have hchar := mem_toList_of_ascii (by decide) (hspelled ▸ hmem)
  rw [String.toList_ofList] at hchar
  exact (List.mem_singleton.mp hchar).symm

/-- A glyph is as wide as its bytes. It ends a line if it is the byte of a line end; else that byte is not in it. -/
theorem chunk_cases (b : UInt8) (rest : Bytes) : (chunk b rest).length = (glyphAt b rest).width ∧
    ((glyphAt b rest).char = '\n' ∧ chunk b rest = [10] ∨
      (glyphAt b rest).char ≠ '\n' ∧ newlines (chunk b rest) = 0) := by
  cases hscalar : (glyphAt b rest).isScalar with
  | true =>
    obtain ⟨more, tail, rfl, hwidth, hspelled⟩ := spelled_of_glyphAt hscalar
    have hchunk : chunk b (more ++ tail) = String.utf8EncodeChar (glyphAt b (more ++ tail)).char := by
      rw [chunk, hwidth, Nat.add_sub_cancel, List.take_left, hspelled]
    refine ⟨by rw [hchunk, hspelled, hwidth, List.length_cons], ?_⟩
    rw [hchunk]
    by_cases hend : (glyphAt b (more ++ tail)).char = '\n'
    · exact .inl ⟨hend, by rw [hend]; decide⟩
    · exact .inr ⟨hend, newlines_encode hend⟩
  | false =>
    have hglyph : glyphAt b rest = .undecodable := by simpa [Glyph.isScalar] using hscalar
    have hb : b ≠ 10 := by
      rintro rfl
      have hfeed : glyphAt 10 rest = ⟨'\n', 1⟩ := by
        unfold glyphAt
        rw [if_pos (by decide)]
        rfl
      rw [hfeed] at hscalar
      exact absurd hscalar (by decide)
    rw [chunk, hglyph]
    exact ⟨rfl, .inr ⟨by decide, List.count_eq_zero.mpr (by simpa [Glyph.undecodable] using hb.symm)⟩⟩

/-- Past a glyph a reading is behind its bytes. -/
theorem extent_advance (front : Bytes) (b : UInt8) (rest : Bytes) :
    (extent front).advance (glyphAt b rest) = extent (front ++ chunk b rest) := by
  obtain ⟨hlength, ⟨hend, hchunk⟩ | ⟨hinside, hnone⟩⟩ := chunk_cases b rest
  · have hwidth : (glyphAt b rest).width = 1 := by rw [← hlength, hchunk]; rfl
    rw [Position.advance, hend, hwidth, hchunk]
    simp [extent, width_concat_newline, newlines]
  · rw [Position.advance, if_neg (by simpa using hinside), extent, extent, width_append, if_pos hnone, newlines_append,
      hnone, List.length_append, hlength]
    rfl

/-- Reading some first glyphs of a text leads past some first bytes of it. -/
theorem extent_foldl : ∀ {gs : List Glyph} {bytes : Bytes} (front : Bytes), gs <+: bytes.glyphs →
    ∃ taken, taken <+: bytes ∧ gs.foldl Position.advance (extent front) = extent (front ++ taken)
  | [], bytes, front, _ => ⟨[], List.nil_prefix, by rw [List.append_nil]; rfl⟩
  | g :: gs, [], _, h => absurd (List.prefix_nil.mp h) (by simp)
  | g :: gs, b :: rest, front, h => by
    rw [glyphs_cons] at h
    obtain ⟨rfl, hgs⟩ := List.cons_prefix_cons.mp h
    obtain ⟨taken, htaken, hplace⟩ := extent_foldl (front ++ chunk b rest) hgs
    refine ⟨chunk b rest ++ taken, ?_, by rw [List.foldl_cons, extent_advance, hplace, List.append_assoc]⟩
    have hbytes : chunk b rest ++ rest.drop ((glyphAt b rest).width - 1) = b :: rest := by
      rw [chunk, List.cons_append, List.take_append_drop]
    rw [← hbytes]
    exact (List.prefix_append_right_inj _).mpr htaken

end Bytes

/-- A place of a text is the position of its offset. -/
theorem Syntax.Position.Within.eq_position {source : Bytes} {p : Position} (h : p.Within source) :
    p = source.position p.byte := by
  obtain ⟨front, hfront, rfl⟩ := h
  obtain ⟨taken, ⟨more, rfl⟩, hplace⟩ := Bytes.extent_foldl [] hfront
  have hzero : (Position.zero : Position) = Bytes.extent [] := rfl
  rw [hzero, hplace, List.nil_append, Bytes.extent, Bytes.position_length_append]

/-- **A file that was read is positioned.** -/
theorem ParsedFile.positioned_of_read {path : String} {source : Bytes} {f : ParsedFile}
    (h : ParsedFile.read? path source = some f) : f.Positioned := by
  obtain ⟨g, -, rfl⟩ := Option.map_eq_some_iff.mp h
  intro n hn
  have hsited := g.tree_within source n hn
  exact ⟨hsited.start.eq_position, hsited.stop.eq_position⟩

/-- **In a file that was read a call starts with what it calls, and a member with its object.** -/
theorem ParsedFile.headed_of_read {path : String} {source : Bytes} {f : ParsedFile}
    (h : ParsedFile.read? path source = some f) : ∀ n ∈ f.tree.preorder, n.Headed := by
  obtain ⟨g, -, rfl⟩ := Option.map_eq_some_iff.mp h
  exact fun n hn => (g.tree_within source n hn).headed

/-! ## Statements in front of the new lines and behind them -/

namespace Insertion

variable {source : Bytes} {n : Node} {following : List Node}

theorem le_behind (hlen : n.stop ≤ source.length) : n.stop ≤ (behind source n following).byte := by
  rcases behind_byte source n following with hstop | hbelow
  · exact Nat.le_of_eq hstop.symm
  · rw [hbelow]
    rcases belowLine_cases source n.stop with ⟨k, hk, -, hbyte⟩ | hend
    · omega
    · omega

/-- What is on a later line is not above the place below the line. -/
theorem belowLine_le {stop k : Nat} (hle : stop ≤ k)
    (hrows : newlines (source.take stop) < newlines (source.take k)) : (belowLine source stop).byte ≤ k := by
  have hsum := Bytes.newlines_take_add source hle
  have hsome : 0 < newlines ((source.take k).drop stop) := by omega
  obtain ⟨i, hi⟩ := List.mem_iff_getElem?.mp (List.count_pos_iff.mp hsome)
  rw [List.getElem?_drop, List.getElem?_take] at hi
  split at hi
  · rename_i hlt
    have hten : (source.drop stop)[i]? = some 10 := by rw [List.getElem?_drop]; exact hi
    unfold belowLine
    cases hfind : (source.drop stop).findIdx? (· == 10) with
    | none =>
      have hnone := List.findIdx?_eq_none_iff.mp hfind 10 (List.mem_of_getElem? hten)
      exact absurd hnone (by decide)
    | some j =>
      -- the first line end behind the statement is not behind the one that was found
      obtain ⟨_, _, hfirst⟩ := List.findIdx?_eq_some_iff_getElem.mp hfind
      have hj : j ≤ i := by
        by_contra hlater
        obtain ⟨hi', hten⟩ := List.getElem?_eq_some_iff.mp hten
        have hnot := hfirst i (by omega)
        rw [hten] at hnot
        exact absurd hnot (by decide)
      show stop + j + 1 ≤ k
      omega
  · exact absurd hi (by simp)

/-- What is still on the line is above the place below it. -/
theorem le_belowLine {stop k : Nat} (hle : stop ≤ k) (hlen : k ≤ source.length)
    (hrows : newlines (source.take k) ≤ newlines (source.take stop)) : k ≤ (belowLine source stop).byte := by
  rcases belowLine_cases source stop with ⟨i, hi, hten, hbyte⟩ | hend
  · by_contra hbelow
    -- the line end would be one more between the two places
    have hmem : (10 : UInt8) ∈ (source.take k).drop stop := by
      refine List.mem_iff_getElem?.mpr ⟨i - stop, ?_⟩
      rw [List.getElem?_drop, Nat.add_sub_cancel' hi, List.getElem?_take, if_pos (by omega), hten]
    have hsome : 0 < newlines ((source.take k).drop stop) := List.count_pos_iff.mpr hmem
    have hsum := Bytes.newlines_take_add source hle
    omega
  · omega

end Insertion

namespace ParsedFile

variable {f : ParsedFile} {m n : Node} {following : List Node}

/-- The head of a file is in front of the new lines. -/
theorem WellFormed.stop_le_insertion (h : f.WellFormed) (hhead : f.headEnd? = some (m, following))
    (hn : n ∈ f.tree.children) (hnot : n ∉ following) : n.stop ≤ f.facts.insertion.byte := by
  obtain ⟨front, hrow⟩ := f.headEnd?_remembered _ _ hhead
  have hm : m ∈ f.tree.children := hrow ▸ by simp
  have hmTree := mem_child f.tree.mem_preorder_self hm
  rw [facts_insertion, hhead]
  refine Nat.le_trans ?_ (Insertion.le_behind (h.length_le hmTree))
  rw [← hrow, List.mem_append, List.mem_cons] at hn
  rcases hn with hn | rfl | hn
  · have hpair := (h.nested _ f.tree.mem_preorder_self).apart
    rw [← hrow] at hpair
    have hbefore := (List.pairwise_append.mp hpair).2.2 n hn m List.mem_cons_self
    exact Nat.le_trans hbefore (h.forward hmTree)
  · exact Nat.le_refl _
  · exact absurd hn hnot

/-- What follows the head begins behind it. -/
theorem WellFormed.stop_le_following (h : f.WellFormed) (hhead : f.headEnd? = some (m, following)) (hn : n ∈ following) :
    m.stop ≤ n.start := by
  obtain ⟨front, hrow⟩ := f.headEnd?_remembered _ _ hhead
  have hpair := (h.nested _ f.tree.mem_preorder_self).apart
  rw [← hrow] at hpair
  exact (List.pairwise_cons.mp (List.pairwise_append.mp hpair).2.1).1 n hn

/-- What follows the head, but for comments, is behind the new lines. -/
theorem WellFormed.insertion_le_start (h : f.WellFormed) (hpos : f.Positioned)
    (hhead : f.headEnd? = some (m, following)) (hn : n ∈ following) (hnamed : n.kind.isNamed = true)
    (hkind : n.kind ≠ .comment) : f.facts.insertion.byte ≤ n.start := by
  obtain ⟨front, hrow⟩ := f.headEnd?_remembered _ _ hhead
  have hmem : ∀ k ∈ m :: following, k ∈ f.tree.preorder :=
    fun k hk => mem_child f.tree.mem_preorder_self (hrow ▸ List.mem_append_right front hk)
  have hpair := (h.nested _ f.tree.mem_preorder_self).apart
  rw [← hrow] at hpair
  obtain ⟨-, hpair⟩ := List.pairwise_cons.mp (List.pairwise_append.mp hpair).2.1
  rw [facts_insertion, hhead]
  unfold Insertion.behind
  dsimp only
  -- `n` is no comment, so it is among what is left of the row without its first comments
  have hleft : n ∈ (following.filter (·.kind.isNamed)).dropWhile (·.kind == .comment) := by
    have hsplit := List.takeWhile_append_dropWhile (p := fun k : Node => k.kind == .comment)
      (l := following.filter (·.kind.isNamed))
    have hn : n ∈ following.filter (·.kind.isNamed) := List.mem_filter.mpr ⟨hn, hnamed⟩
    rw [← hsplit] at hn
    exact (List.mem_append.mp hn).resolve_left fun htaken => hkind (by simpa using List.mem_takeWhile_imp htaken)
  cases hrest : (following.filter (·.kind.isNamed)).dropWhile (·.kind == .comment) with
  | nil =>
    rw [hrest] at hleft
    exact absurd hleft (by simp)
  | cons next rest =>
    rw [hrest] at hleft
    have hsub : (next :: rest).Sublist following :=
      hrest ▸ (List.dropWhile_sublist _).trans List.filter_sublist
    have hnext : next ∈ following := hsub.mem List.mem_cons_self
    have hstart : next.start ≤ n.start := by
      rcases List.mem_cons.mp hleft with rfl | hn
      · exact Nat.le_refl _
      · have hbefore := (List.pairwise_cons.mp (hpair.sublist hsub)).1 n hn
        exact Nat.le_trans (h.forward (hmem next (List.mem_cons_of_mem _ hnext))) hbefore
    have hbehind := h.stop_le_following hhead hnext
    dsimp only
    split
    · exact Nat.le_trans hbehind hstart
    · rename_i hrow
      refine Nat.le_trans (Insertion.belowLine_le hbehind ?_) hstart
      have hnextRow : next.span.start.row = newlines (f.source.take next.start) :=
        congrArg Position.row (hpos next (hmem next (List.mem_cons_of_mem _ hnext))).1
      have hstopRow : m.span.stop.row = newlines (f.source.take m.stop) :=
        congrArg Position.row (hpos m (hmem m List.mem_cons_self)).2
      have hsum := Bytes.newlines_take_add f.source hbehind
      have hne : next.span.start.row ≠ m.span.stop.row := by simpa using hrow
      omega

/-- New lines go beside what lies in one line, not into it. -/
theorem WellFormed.insertion_beside_word (h : f.WellFormed) (hpos : f.Positioned) (hn : n ∈ f.tree.children)
    (hline : n.span.start.row = n.span.stop.row) :
    f.facts.insertion.byte ≤ n.start ∨ n.stop ≤ f.facts.insertion.byte := by
  cases hhead : f.headEnd? with
  | none =>
    rw [facts_insertion, hhead]
    exact .inl (Nat.zero_le _)
  | some x =>
    by_cases hfollows : n ∈ x.2
    · obtain ⟨m, following⟩ := x
      have hbehind := h.stop_le_following hhead hfollows
      have hnTree := mem_child f.tree.mem_preorder_self hn
      have hforward := h.forward hnTree
      have hstartRow := congrArg Position.row (hpos n hnTree).1
      have hstopRow := congrArg Position.row (hpos n hnTree).2
      have hnewlines : newlines (f.source.take n.start) = newlines (f.source.take n.stop) :=
        hstartRow.symm.trans (hline.trans hstopRow)
      rw [facts_insertion, hhead]
      rcases Insertion.behind_byte f.source m following with hstop | hbelow
      · exact .inl (Nat.le_trans (Nat.le_of_eq hstop) hbehind)
      · simp only [hbelow]
        -- the word is on a later line than the head, or still on the same one
        by_cases hlater : newlines (f.source.take m.stop) < newlines (f.source.take n.start)
        · exact .inl (Insertion.belowLine_le hbehind hlater)
        · exact .inr (Insertion.le_belowLine (by omega) (h.length_le hnTree) (by omega))
    · exact .inr (h.stop_le_insertion hhead hn hfollows)

/-- New lines go beside a statement other than a comment, not into it. -/
theorem WellFormed.insertion_beside (h : f.WellFormed) (hpos : f.Positioned) (hn : n ∈ f.tree.children)
    (hnamed : n.kind.isNamed = true) (hkind : n.kind ≠ .comment) :
    f.facts.insertion.byte ≤ n.start ∨ n.stop ≤ f.facts.insertion.byte := by
  cases hhead : f.headEnd? with
  | none =>
    rw [facts_insertion, hhead]
    exact .inl (Nat.zero_le _)
  | some x =>
    by_cases hfollows : n ∈ x.2
    · exact .inl (h.insertion_le_start hpos hhead hfollows hnamed hkind)
    · exact .inr (h.stop_le_insertion hhead hn hfollows)

/-- **The new lines divide the statements**: a statement with something in it ends in front of them exactly if
it does not follow the head. -/
theorem WellFormed.stop_le_insertion_iff (h : f.WellFormed) (hpos : f.Positioned) (hn : n ∈ f.tree.namedChildren)
    (hkind : n.kind ≠ .comment) (hwide : n.start < n.stop) :
    n.stop ≤ f.facts.insertion.byte ↔ ∃ m following, f.headEnd? = some (m, following) ∧ n ∉ following := by
  obtain ⟨hmem, hnamed⟩ := List.mem_filter.mp hn
  constructor
  · intro hstop
    cases hhead : f.headEnd? with
    | none =>
      rw [facts_insertion, hhead] at hstop
      exact absurd (Nat.lt_of_lt_of_le hwide hstop) (Nat.not_lt_zero _)
    | some x =>
      refine ⟨x.1, x.2, rfl, fun hfollows => ?_⟩
      have hstart := h.insertion_le_start hpos hhead hfollows hnamed hkind
      omega
  · rintro ⟨m, following, hhead, hnot⟩
    exact h.stop_le_insertion hhead hmem hnot

end ParsedFile

end LogHygiene
