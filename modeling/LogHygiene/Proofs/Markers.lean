import LogHygiene.Proofs.Syntax.Traversal
import LogHygiene.Proofs.Text.Lines
import LogHygiene.Suppression
import Mathlib.Data.List.Forall2
import Mathlib.Data.List.Infix

/-!
# Which markers are found

Suppressions are gathered while a cursor walks over the tree, one node after the other, so they are those of the nodes
in document order (`Suppression.all_eq`). Of a comment the marker counts whose first occurrence is leftmost, and of
several that begin there the one that is configured first (`Leftmost`). Together,

> **the suppressions of a file are its comments with a marker in them, in document order, each with its leftmost marker
> and the line of that** (`all_marks`).
-/

set_option autoImplicit false

namespace LogHygiene

open Syntax
open Bytes (newlines)

/-! ## The first place -/

namespace Bytes

variable {needle text : Bytes} {i : Nat}

/-- The first occurrence is found by looking at every offset. -/
theorem indexOf?_eq_find? (needle : Bytes) : ∀ text : Bytes,
    indexOf? needle text = (List.range (text.length + 1)).find? fun i => needle.isPrefixOf (text.drop i)
  | [] => by cases needle <;> rfl
  | b :: rest => by
    rw [indexOf?, List.length_cons, List.range_succ_eq_map, List.find?_cons, List.find?_map]
    cases hhere : needle.isPrefixOf (b :: rest) with
    | true => simp [hhere]
    | false =>
      have hbehind : (fun i => needle.isPrefixOf ((b :: rest).drop i)) ∘ Nat.succ =
        fun i => needle.isPrefixOf (rest.drop i) := rfl
      simp only [hhere, List.drop_zero, hbehind, indexOf?_eq_find? needle rest, Bool.false_eq_true, if_false]

theorem indexOf?_eq_some_iff : indexOf? needle text = some i ↔
    needle <+: text.drop i ∧ i ≤ text.length ∧ ∀ j < i, ¬ needle <+: text.drop j := by
  rw [indexOf?_eq_find?, List.find?_range_eq_some]
  simp only [List.isPrefixOf_iff_prefix, List.mem_range, Nat.lt_succ_iff, Bool.not_eq_true', ← Bool.not_eq_true]

theorem indexOf?_eq_none_iff : indexOf? needle text = none ↔ ¬ needle <:+: text := by
  rw [indexOf?_eq_find?, List.find?_range_eq_none]
  simp only [Nat.lt_succ_iff, Bool.not_eq_true', ← Bool.not_eq_true, List.isPrefixOf_iff_prefix]
  constructor
  · intro hnone hinfix
    obtain ⟨rest, hstarts, hsuffix⟩ := List.infix_iff_prefix_suffix.mp hinfix
    rw [List.suffix_iff_eq_drop.mp hsuffix] at hstarts
    exact hnone _ (Nat.sub_le _ _) hstarts
  · intro hnone j _ hstarts
    exact hnone (hstarts.isInfix.trans (List.drop_suffix j text).isInfix)

/-- The line of a place in a part of a text, counted from the start of the part. -/
theorem lineOf_add {source : Bytes} {start stop : Nat} (hi : i ≤ (source.slice start stop).length) :
    newlines (source.take start) + 1 + newlines ((source.slice start stop).take i) = source.lineOf (start + i) := by
  have hpart : (source.slice start stop).take i = (source.take (start + i)).drop start := by
    rw [slice, List.length_take] at hi
    rw [slice, List.take_take, Nat.min_eq_left (Nat.le_trans hi (Nat.min_le_left _ _)), List.drop_take,
      Nat.add_sub_cancel_left]
  have hsum := newlines_take_add source (Nat.le_add_right start i)
  rw [hpart, lineOf]
  omega

end Bytes

namespace Suppression

variable {source : Bytes} {markers : List String}

/-- A marker begins at an offset of a text, none begins before, and none that is configured before it begins there. -/
structure Leftmost (markers : List String) (text : Bytes) (at_ : Nat) (marker : String) : Prop where
  inside : at_ ≤ text.length
  begins : Bytes.ofText marker <+: text.drop at_
  first : ∀ m ∈ markers, ∀ j < at_, ¬ Bytes.ofText m <+: text.drop j
  configured : ∃ earlier later, markers = earlier ++ marker :: later ∧
    ∀ m ∈ earlier, ¬ Bytes.ofText m <+: text.drop at_

namespace Leftmost

variable {text : Bytes} {at_ : Nat} {m marker : String}

/-- A marker that begins earlier than any other, and no later than those that are configured behind it. -/
theorem head (inside : at_ ≤ text.length) (begins : Bytes.ofText m <+: text.drop at_)
    (first : ∀ k ∈ m :: markers, ∀ j < at_, ¬ Bytes.ofText k <+: text.drop j) : Leftmost (m :: markers) text at_ m :=
  ⟨inside, begins, first, [], markers, rfl, by simp⟩

/-- A marker configured in front is no rival if it begins later or nowhere. -/
theorem cons (h : Leftmost markers text at_ marker) (hlater : ∀ j ≤ at_, ¬ Bytes.ofText m <+: text.drop j) :
    Leftmost (m :: markers) text at_ marker := by
  obtain ⟨inside, begins, first, earlier, later, hmarkers, hearlier⟩ := h
  refine ⟨inside, begins, List.forall_mem_cons.mpr ⟨fun j hj => hlater j (Nat.le_of_lt hj), first⟩, m :: earlier, later,
    ?_, List.forall_mem_cons.mpr ⟨hlater at_ (Nat.le_refl _), hearlier⟩⟩
  rw [hmarkers, List.cons_append]

end Leftmost

theorem firstMarker?_eq_none_iff {text : Bytes} :
    firstMarker? text markers = none ↔ ∀ m ∈ markers, ¬ Bytes.ofText m <:+: text := by
  induction markers with
  | nil => simp [firstMarker?]
  | cons m markers ih =>
    rw [firstMarker?, List.forall_mem_cons, ← ih, ← Bytes.indexOf?_eq_none_iff]
    cases Bytes.indexOf? (Bytes.ofText m) text with
    | none => simp
    | some here =>
      cases firstMarker? text markers with
      | none => simp
      | some other =>
        simp only [reduceCtorEq, false_and, iff_false]
        split <;> simp

/-- A text without a marker has it at no place. -/
theorem not_begins_of_none {m : String} {text : Bytes} (h : Bytes.indexOf? (Bytes.ofText m) text = none) (j : Nat) :
    ¬ Bytes.ofText m <+: text.drop j := fun hstarts =>
  Bytes.indexOf?_eq_none_iff.mp h (hstarts.isInfix.trans (List.drop_suffix j text).isInfix)

/-- The marker that is found is the leftmost one. -/
theorem leftmost_of_firstMarker? {text : Bytes} {at_ : Nat} {marker : String} :
    ∀ {markers : List String}, firstMarker? text markers = some (at_, marker) → Leftmost markers text at_ marker
  | [], h => absurd h (by simp [firstMarker?])
  | m :: markers, h => by
    rw [firstMarker?] at h
    cases hm : Bytes.indexOf? (Bytes.ofText m) text with
    | none =>
      rw [hm] at h
      exact (leftmost_of_firstMarker? h).cons fun j _ => not_begins_of_none hm j
    | some here =>
      obtain ⟨hbegins, hinside, hfirst⟩ := Bytes.indexOf?_eq_some_iff.mp hm
      rw [hm] at h
      cases hrest : firstMarker? text markers with
      | none =>
        rw [hrest] at h
        obtain ⟨rfl, rfl⟩ := Prod.mk.inj (Option.some.inj h)
        have hnone := firstMarker?_eq_none_iff.mp hrest
        refine .head hinside hbegins (List.forall_mem_cons.mpr ⟨hfirst, fun k hk j _ => ?_⟩)
        exact not_begins_of_none (Bytes.indexOf?_eq_none_iff.mpr (hnone k hk)) j
      | some found =>
        obtain ⟨other, marker'⟩ := found
        have hleftmost := leftmost_of_firstMarker? hrest
        rw [hrest] at h
        dsimp only at h
        split at h
        · rename_i hlt
          obtain ⟨rfl, rfl⟩ := Prod.mk.inj (Option.some.inj h)
          exact hleftmost.cons fun j hj => hfirst j (Nat.lt_of_le_of_lt hj hlt)
        · rename_i hle
          -- on ties the one that is configured first
          obtain ⟨rfl, rfl⟩ := Prod.mk.inj (Option.some.inj h)
          refine .head hinside hbegins (List.forall_mem_cons.mpr ⟨hfirst, fun k hk j hj => ?_⟩)
          exact hleftmost.first k hk j (Nat.lt_of_lt_of_le hj (Nat.not_lt.mp hle))

/-! ## The suppressions of a file -/

theorem foldl_note (source : Bytes) (markers : List String) (nodes : List Node) (found : Array Suppression) :
    (nodes.foldl (note source markers) found).toList = found.toList ++ nodes.filterMap (ofNode? source markers) := by
  induction nodes generalizing found with
  | nil => simp
  | cons n nodes ih =>
    rw [List.foldl_cons, ih, note]
    cases hn : ofNode? source markers n with
    | none => rw [List.filterMap_cons_none hn]
    | some s => simp [List.filterMap_cons_some hn]

/-- Suppressions are those of the nodes, in document order. -/
theorem all_eq (source : Bytes) (markers : List String) (tree : Node) :
    all source markers tree = tree.preorder.filterMap (ofNode? source markers) := by
  cases markers with
  | nil =>
    refine (List.filterMap_eq_nil_iff.mpr fun n _ => ?_).symm
    unfold ofNode?
    split <;> rfl
  | cons m markers =>
    have hall : all source (m :: markers) tree =
      (Cursor.walk.fold (fun found c => note source (m :: markers) found c.node) #[] (.top tree)).toList := rfl
    rw [hall, Cursor.fold_walk, foldl_note, Array.toList_empty, List.nil_append]

/-- The node is a comment with a marker in it. -/
def Carries (source : Bytes) (markers : List String) (n : Node) : Prop :=
  n.kind = .comment ∧ ∃ m ∈ markers, Bytes.ofText m <:+: Bytes.ofText (n.text source)

instance (source : Bytes) (markers : List String) (n : Node) : Decidable (Carries source markers n) :=
  inferInstanceAs (Decidable (_ ∧ _))

/-- The suppression is the leftmost marker in the text of a node, on the line that it begins on. -/
def Marks (source : Bytes) (markers : List String) (n : Node) (s : Suppression) : Prop :=
  let text := Bytes.ofText (n.text source)
  ∃ at_, Leftmost markers text at_ s.marker ∧ s.line = n.span.start.row + 1 + newlines (text.take at_)

/-- A comment with a marker in it has its suppression, and no other node has one. -/
theorem ofNode?_cases (source : Bytes) (markers : List String) (n : Node) :
    (Carries source markers n ∧ ∃ s, ofNode? source markers n = some s ∧ Marks source markers n s) ∨
      ¬ Carries source markers n ∧ ofNode? source markers n = none := by
  unfold ofNode?
  split
  · rename_i hkind
    exact .inr ⟨fun hcarries => by simp [hcarries.1] at hkind, rfl⟩
  · rename_i hkind
    have hkind : n.kind = .comment := by simpa using hkind
    cases hfirst : firstMarker? (Bytes.ofText (n.text source)) markers with
    | none =>
      refine .inr ⟨?_, by simp only [hfirst, Option.map_none]⟩
      rintro ⟨-, m, hm, hinfix⟩
      exact firstMarker?_eq_none_iff.mp hfirst m hm hinfix
    | some found =>
      obtain ⟨at_, marker⟩ := found
      have hleftmost := leftmost_of_firstMarker? hfirst
      obtain ⟨earlier, later, hmarkers, -⟩ := hleftmost.configured
      have hinfix := hleftmost.begins.isInfix.trans (List.drop_suffix at_ _).isInfix
      refine .inl ⟨⟨hkind, marker, by simp [hmarkers], hinfix⟩,
        ⟨marker, n.span.start.row + 1 + newlines ((Bytes.ofText (n.text source)).take at_)⟩, ?_, at_, hleftmost, rfl⟩
      simp only [hfirst, Option.map_some]

theorem forall₂_filterMap_ofNode? (source : Bytes) (markers : List String) (nodes : List Node) :
    List.Forall₂ (Marks source markers) (nodes.filter (Carries source markers ·))
      (nodes.filterMap (ofNode? source markers)) := by
  induction nodes with
  | nil => exact .nil
  | cons n nodes ih =>
    rcases ofNode?_cases source markers n with ⟨hcarries, s, hs, hmarks⟩ | ⟨hcarries, hs⟩
    · rw [List.filter_cons_of_pos (by simpa using hcarries), List.filterMap_cons_some hs]
      exact .cons hmarks ih
    · rw [List.filter_cons_of_neg (by simpa using hcarries), List.filterMap_cons_none hs]
      exact ih

/-- **What a walk over a tree gathers.** The walk ends, and has then been at every node once, in document order. What it
has gathered are the comments with a marker in them, each with the leftmost one and the line that this begins on. The
line is counted from the row of the comment, and is the line of the marker in the file if that row is right. -/
theorem all_marks (source : Bytes) (markers : List String) (tree : Node) :
    (∃ places, Cursor.walk.Run (.top tree) places ∧ places.Nodup ∧ places.map Cursor.node = tree.preorder) ∧
      List.Forall₂ (Marks source markers) (tree.preorder.filter (Carries source markers ·)) (all source markers tree) ∧
      ∀ n ∈ tree.preorder, Bytes.ofText (n.text source) = source.slice n.start n.stop →
        n.span.start.row = newlines (source.take n.start) → ∀ s, Marks source markers n s →
          ∃ at_, Leftmost markers (source.slice n.start n.stop) at_ s.marker ∧ s.line = source.lineOf (n.start + at_) := by
  refine ⟨?_, ?_, ?_⟩
  · obtain ⟨places, hrun⟩ := Cursor.walk.exists_run (.top tree)
    exact ⟨places, hrun, hrun.nodup, (Cursor.nodes_of_run hrun).trans (Cursor.ahead_top tree)⟩
  · rw [all_eq]
    exact forall₂_filterMap_ofNode? source markers tree.preorder
  · rintro n - htext hrow s ⟨at_, hleftmost, hline⟩
    rw [htext] at hleftmost hline
    exact ⟨at_, hleftmost, by rw [hline, hrow, Bytes.lineOf_add hleftmost.inside]⟩

/-- A comment over two lines inside a function, and one at the end. -/
def marked : Bytes :=
  Bytes.ofText "f(() => \x7b /* x\n eslint-disable-next-line */ g(); \x7d);\n// disable-next-line\n"

/-- The first comment has all three markers. One of them begins later, and of the other two the first one counts. -/
theorem all_marks_tied :
    let tree := Grammar.javascript.tree marked
    let markers := ["disable-next-line", "eslint-disable", "eslint-disable-next-line"]
    all marked markers tree = [⟨"eslint-disable", 2⟩, ⟨"disable-next-line", 3⟩] ∧
      ∃ n ∈ tree.preorder, (Bytes.ofText (n.text marked) = marked.slice n.start n.stop ∧
        n.span.start.row = newlines (marked.take n.start)) ∧ Marks marked markers n ⟨"eslint-disable", 2⟩ ∧
        ∃ at_, Leftmost markers (marked.slice n.start n.stop) at_ "eslint-disable" ∧ 2 = marked.lineOf (n.start + at_) := by
  intro tree markers
  obtain ⟨-, hmarks, hlines⟩ := all_marks marked markers tree
  obtain ⟨hall, n, hn, ⟨htext, hrow⟩, hfirst⟩ :
      all marked markers tree = [⟨"eslint-disable", 2⟩, ⟨"disable-next-line", 3⟩] ∧
        ∃ n ∈ tree.preorder, (Bytes.ofText (n.text marked) = marked.slice n.start n.stop ∧
          n.span.start.row = newlines (marked.take n.start)) ∧
          (tree.preorder.filter (Carries marked markers ·)).head? = some n := by decide +kernel
  obtain ⟨rest, hcomments⟩ := List.head?_eq_some_iff.mp hfirst
  rw [hcomments, hall] at hmarks
  obtain ⟨hmark, -⟩ := List.forall₂_cons.mp hmarks
  exact ⟨hall, n, hn, ⟨htext, hrow⟩, hmark, hlines n hn htext hrow _ hmark⟩

end Suppression

end LogHygiene
