import LogHygiene.Edit
import LogHygiene.Proofs.Text.Utf8

/-!
# Splicing: what edits do to a file

`Edit.applyAll` sorts edits, looks at neighbours and copies once. What it *means* is said here without
sorting and without a cursor, as **stretches**: a row of pieces of the file, each of which is kept or
exchanged for something else. Reading the row one way gives the file, reading it the other way gives the
result, and the exchanged pieces are the edits, each at its own offset.

> **edits that fit and keep apart are always carried out, and nothing else changes**
> (`applyAll_of_apart`): the result is the file with exactly those pieces exchanged.

The condition is on pairs at different places of the list, and the code looks at neighbours after sorting;
sorting is what makes the second as good as the first. An insertion is an empty piece, so it keeps apart
from an edit that starts or stops where it is, and the sort puts it in front.
-/

set_option autoImplicit false

namespace LogHygiene

/-! ## Stretches -/

/-- A piece of a file on the way through a rewrite. -/
inductive Stretch where
  | kept (bytes : Bytes)
  | exchanged (old new : Bytes)
  deriving DecidableEq, Repr

namespace Stretch

/-- The piece in the file. -/
def before : Stretch → Bytes
  | kept bytes => bytes
  | exchanged old _ => old

/-- The piece in the result. -/
def after : Stretch → Bytes
  | kept bytes => bytes
  | exchanged _ new => new

/-- The file that the pieces are of. -/
def source (row : List Stretch) : Bytes := row.flatMap before

/-- The result that the pieces lead to. -/
def result (row : List Stretch) : Bytes := row.flatMap after

/-- The pieces that are exchanged, with the offset of each in the file. -/
def exchangesFrom : Nat → List Stretch → List (Nat × Bytes × Bytes)
  | _, [] => []
  | n, kept bytes :: rest => exchangesFrom (n + bytes.length) rest
  | n, exchanged old new :: rest => (n, old, new) :: exchangesFrom (n + old.length) rest

/-- The pieces that are exchanged, with the offset of each in the file. -/
def exchanges (row : List Stretch) : List (Nat × Bytes × Bytes) := exchangesFrom 0 row

end Stretch

namespace Edit

variable {source : Bytes} {edits : List Edit}

/-! ## Edits in order -/

theorem before_iff (a b : Edit) :
    before a b = true ↔ a.start < b.start ∨ a.start = b.start ∧ a.stop ≤ b.stop := by
  simp [before]

theorem inOrder_perm (edits : List Edit) : (inOrder edits).Perm edits := List.mergeSort_perm _ _

theorem inOrder_sorted (edits : List Edit) :
    (inOrder edits).Pairwise fun a b => before a b = true := by
  refine List.pairwise_mergeSort (fun a b c hab hbc => ?_) (fun a b => ?_) edits
  · rw [before_iff] at hab hbc ⊢
    omega
  · rw [Bool.or_eq_true, before_iff, before_iff]
    omega

/-- Two edits that do not touch the same bytes. -/
def Apart (a b : Edit) : Prop := a.stop ≤ b.start ∨ b.stop ≤ a.start

theorem Apart.symm {a b : Edit} (h : Apart a b) : Apart b a := h.elim .inr .inl

theorem misfit?_eq_none {e : Edit} : misfit? source e = none ↔ e.start ≤ e.stop ∧
    e.stop ≤ source.length ∧ source.isBoundary e.start = true ∧ source.isBoundary e.stop = true := by
  unfold misfit?
  split
  · rename_i h
    simp only [gt_iff_lt, Bool.or_eq_true, decide_eq_true_eq] at h
    simp only [reduceCtorEq, false_iff, not_and]
    omega
  · rename_i h
    simp only [gt_iff_lt, Bool.or_eq_true, decide_eq_true_eq] at h
    split
    · rename_i hstart
      simp only [Bool.not_eq_true'] at hstart
      simp [hstart]
    · rename_i hstart
      simp only [Bool.not_eq_true', Bool.not_eq_false] at hstart
      split
      · rename_i hstop
        simp only [Bool.not_eq_true'] at hstop
        simp [hstop]
      · rename_i hstop
        simp only [Bool.not_eq_true', Bool.not_eq_false] at hstop
        simp only [hstart, hstop, true_iff, and_true]
        omega

/-- Edits that follow one another from a place in the file on. -/
inductive Follow (source : Bytes) : Nat → List Edit → Prop where
  | nil {cursor : Nat} : cursor ≤ source.length → Follow source cursor []
  | cons {cursor : Nat} {e : Edit} {rest : List Edit} : cursor ≤ e.start → e.start ≤ e.stop →
      e.stop ≤ source.length → Follow source e.stop rest → Follow source cursor (e :: rest)

/-- In a sorted row of edits that keep apart, neighbours do not overlap, and each one is reached by a
cursor that has passed those before it. -/
theorem follow_of_sorted_apart : ∀ {edits : List Edit} {cursor : Nat}, cursor ≤ source.length →
    (∀ e ∈ edits, cursor ≤ e.start ∧ misfit? source e = none) →
    (edits.Pairwise fun a b => before a b = true) → edits.Pairwise Apart →
    overlap? edits = none ∧ Follow source cursor edits
  | [], _, hcursor, _, _, _ => ⟨rfl, .nil hcursor⟩
  | e :: rest, cursor, _, hall, hsorted, hapart => by
    obtain ⟨⟨hcursor, hfit⟩, hrest⟩ := List.forall_mem_cons.mp hall
    obtain ⟨hle, hlen, -, -⟩ := misfit?_eq_none.mp hfit
    obtain ⟨hfirst, hsorted⟩ := List.pairwise_cons.mp hsorted
    obtain ⟨hclear, hapart⟩ := List.pairwise_cons.mp hapart
    have hnext : ∀ f ∈ rest, e.stop ≤ f.start ∧ misfit? source f = none := by
      intro f hf
      refine ⟨?_, (hrest f hf).2⟩
      have hbefore := (before_iff e f).mp (hfirst f hf)
      have hfle := (misfit?_eq_none.mp (hrest f hf).2).1
      rcases hclear f hf with h | h
      · exact h
      · omega
    obtain ⟨hoverlap, hfollow⟩ := follow_of_sorted_apart hlen hnext hsorted hapart
    refine ⟨?_, .cons hcursor hle hlen hfollow⟩
    cases rest with
    | nil => rfl
    | cons f more =>
      rw [overlap?, if_neg (Nat.not_lt.mpr (hnext f List.mem_cons_self).1)]
      exact hoverlap

/-! ## What one pass does -/

/-- The pieces that a row of edits cuts the rest of a file into. -/
def stretchesFrom (source : Bytes) : Nat → List Edit → List Stretch
  | cursor, [] => [.kept (source.drop cursor)]
  | cursor, e :: rest => .kept (source.slice cursor e.start) ::
      .exchanged (source.slice e.start e.stop) e.text :: stretchesFrom source e.stop rest

/-- An edit as the exchange of a piece of the file. -/
def exchange (source : Bytes) (e : Edit) : Nat × Bytes × Bytes :=
  (e.start, source.slice e.start e.stop, e.text)

theorem slice_append_drop {i j : Nat} (hij : i ≤ j) : source.slice i j ++ source.drop j = source.drop i := by
  have h := List.take_append_drop (j - i) (source.drop i)
  rw [List.drop_drop, Nat.add_sub_cancel' hij] at h
  exact h

theorem length_slice {i j : Nat} (hij : i ≤ j) (hj : j ≤ source.length) :
    (source.slice i j).length = j - i := by
  rw [Bytes.slice, List.length_take, List.length_drop]
  omega

theorem result_stretchesFrom : ∀ (edits : List Edit) (cursor : Nat),
    Stretch.result (stretchesFrom source cursor edits) = splice source cursor edits
  | [], _ => List.append_nil _
  | e :: rest, cursor => by
    rw [splice, ← result_stretchesFrom rest e.stop, List.append_assoc]
    rfl

theorem source_stretchesFrom : ∀ {edits : List Edit} {cursor : Nat}, Follow source cursor edits →
    Stretch.source (stretchesFrom source cursor edits) = source.drop cursor
  | [], _, _ => List.append_nil _
  | e :: rest, cursor, .cons hcursor hle _ hrest => by
    have ih := source_stretchesFrom hrest
    rw [← slice_append_drop hcursor, ← slice_append_drop hle, ← ih]
    rfl

theorem exchanges_stretchesFrom : ∀ {edits : List Edit} {cursor : Nat}, Follow source cursor edits →
    Stretch.exchangesFrom cursor (stretchesFrom source cursor edits) = edits.map (exchange source)
  | [], _, _ => rfl
  | e :: rest, cursor, .cons hcursor hle hlen hrest => by
    have ih := exchanges_stretchesFrom hrest
    rw [stretchesFrom, Stretch.exchangesFrom, Stretch.exchangesFrom,
      length_slice hcursor (by omega), length_slice hle hlen, Nat.add_sub_cancel' hcursor,
      Nat.add_sub_cancel' hle, ih]
    rfl

/-! ## The rule -/

/-- **Edits that fit the file and keep apart are carried out, and they are all that changes.** -/
theorem applyAll_of_apart (hfit : ∀ e ∈ edits, misfit? source e = none) (hapart : edits.Pairwise Apart) :
    ∃ row, Stretch.source row = source ∧ applyAll source edits = .ok (Stretch.result row) ∧
      (Stretch.exchanges row).Perm (edits.map (exchange source)) := by
  have hperm := inOrder_perm edits
  have hall : ∀ e ∈ inOrder edits, 0 ≤ e.start ∧ misfit? source e = none :=
    fun e he => ⟨Nat.zero_le _, hfit e (hperm.mem_iff.mp he)⟩
  obtain ⟨hoverlap, hfollow⟩ := follow_of_sorted_apart (Nat.zero_le _) hall (inOrder_sorted edits)
    (hapart.perm hperm.symm Apart.symm)
  refine ⟨stretchesFrom source 0 (inOrder edits), source_stretchesFrom hfollow, ?_, ?_⟩
  · have hfault : fault? source (inOrder edits) = none := by
      have hnone : (inOrder edits).findSome? (misfit? source) = none :=
        List.findSome?_eq_none_iff.mpr fun e he => (hall e he).2
      rw [fault?, hnone, Option.none_or, hoverlap]
    rw [applyAll]
    simp only [hfault]
    rw [result_stretchesFrom]
  · rw [Stretch.exchanges, exchanges_stretchesFrom hfollow]
    exact hperm.map _

end Edit

end LogHygiene
