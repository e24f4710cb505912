import LogHygiene.Proofs.Displacement
import LogHygiene.Proofs.Logger.Statements
import Mathlib.Data.List.TakeWhile

/-!
# Lines and columns

A place in a file is counted in line ends before it and bytes since the last one (`Bytes.position`). Putting one text
behind another adds the line ends, and the bytes only as long as the second has no line end (`width_append`). That is
all there is to the column of what stands behind edits:

> **what is on a line moves by what the edits in front of it on that line put in and take out** (`width_splice`),

where edits take out and put in parts of lines. How many lines there are is another sum, over all edits in front
(`newlines_splice`).
-/

set_option autoImplicit false

namespace LogHygiene

namespace Bytes

/-- The number of bytes behind the last line end. -/
def width (bytes : Bytes) : Nat := (bytes.reverse.takeWhile (· != 10)).length

@[simp] theorem width_nil : width [] = 0 := rfl

theorem newlines_append (a b : Bytes) : newlines (a ++ b) = newlines a + newlines b := List.count_append

theorem newlines_eq_zero_iff {b : Bytes} : newlines b = 0 ↔ ∀ x ∈ b.reverse, (x != 10) = true := by
  rw [newlines, List.count_eq_zero]
  simp only [List.mem_reverse, bne_iff_ne, ne_eq]
  exact ⟨fun h x hx heq => h (heq ▸ hx), fun h hmem => h 10 hmem rfl⟩

/-- A text without a line end goes on with the line, one with a line end begins another. -/
theorem width_append (a b : Bytes) : width (a ++ b) = if newlines b = 0 then width a + b.length else width b := by
  rw [width, List.reverse_append]
  split
  · rename_i hnone
    rw [List.takeWhile_append_of_pos (newlines_eq_zero_iff.mp hnone), List.length_append, List.length_reverse,
      Nat.add_comm]
    rfl
  · rename_i hsome
    rw [List.takeWhile_append, if_neg]
    · rfl
    · intro hall
      exact hsome (newlines_eq_zero_iff.mpr (List.takeWhile_eq_self_iff.mp
        ((List.takeWhile_prefix _).eq_of_length hall)))

theorem width_concat_newline (a : Bytes) : width (a ++ [10]) = 0 := by
  rw [width_append, if_neg (by decide)]
  rfl

theorem take_append_drop_take (bytes : Bytes) {i n : Nat} (h : i ≤ n) :
    bytes.take i ++ (bytes.take n).drop i = bytes.take n := by
  have hsplit := List.take_append_drop i (bytes.take n)
  rwa [List.take_take, Nat.min_eq_left h] at hsplit

theorem newlines_take_add (bytes : Bytes) {i n : Nat} (h : i ≤ n) :
    newlines (bytes.take i) + newlines ((bytes.take n).drop i) = newlines (bytes.take n) := by
  rw [← newlines_append, take_append_drop_take bytes h]

theorem newlines_ofText {text : String} (h : '\n' ∉ text.toList) : newlines (ofText text) = 0 :=
  List.count_eq_zero.mpr fun hmem => h (mem_toList_of_ascii (by decide) hmem)

end Bytes

/-! ## Behind edits -/

namespace Edit

open Bytes (newlines width)

variable {source : Bytes} {edits : List Edit}

/-- Line ends behind edits, and those that were taken out. -/
theorem newlines_splice {cursor : Nat} (h : Follow source cursor edits) :
    newlines (splice source cursor edits) + (edits.map fun e => newlines (source.slice e.start e.stop)).sum =
      newlines (source.drop cursor) + (edits.map fun e => newlines e.text).sum := by
  induction h with
  | nil hcursor => rfl
  | @cons cursor e rest hcursor hle hlen hrest ih =>
    -- what is left of the source: a gap, what the edit takes out, and the rest
    have hsplit : newlines (source.slice cursor e.start) + newlines (source.slice e.start e.stop) +
        newlines (source.drop e.stop) = newlines (source.drop cursor) := by
      rw [← Bytes.newlines_append, slice_append_slice hcursor hle, ← Bytes.newlines_append,
        slice_append_drop (Nat.le_trans hcursor hle)]
    simp only [splice, Bytes.newlines_append, List.map_cons, List.sum_cons]
    omega

/-- The edits on the last line of a file. -/
def onLastLine (source : Bytes) (edits : List Edit) : List Edit :=
  edits.filter fun e => newlines (source.drop e.start) == 0

/-- **How far the end of a file moves on its line**, when edits keep to lines. `front` is what the edited file has
in front, `old` what it had. -/
theorem width_splice {cursor : Nat} (h : Follow source cursor edits)
    (hold : ∀ e ∈ edits, newlines (source.slice e.start e.stop) = 0) (hnew : ∀ e ∈ edits, newlines e.text = 0) :
    ∀ front old : Bytes,
      width (front ++ splice source cursor edits) + removed (onLastLine source edits) +
          (if newlines (source.drop cursor) = 0 then width old else 0) =
        width (old ++ source.drop cursor) + added (onLastLine source edits) +
          (if newlines (source.drop cursor) = 0 then width front else 0) := by
  induction h with
  | nil hcursor =>
    intro front old
    simp only [splice, onLastLine, List.filter_nil, removed, added, List.map_nil, List.sum_nil, Bytes.width_append]
    split <;> omega
  | @cons cursor e rest hcursor hle hlen hrest ih =>
    intro front old
    -- the gap and the edit go over to what is in front, and the rest is a pass of its own
    obtain ⟨hold, holdRest⟩ := List.forall_mem_cons.mp hold
    obtain ⟨hnew, hnewRest⟩ := List.forall_mem_cons.mp hnew
    have ih := ih holdRest hnewRest (front ++ source.slice cursor e.start ++ e.text)
      (old ++ source.slice cursor e.start ++ source.slice e.start e.stop)
    have hgap : newlines (source.slice cursor e.start) + newlines (source.drop e.start) =
        newlines (source.drop cursor) := by
      rw [← Bytes.newlines_append, slice_append_drop hcursor]
    have hrestLine : newlines (source.drop e.start) = newlines (source.drop e.stop) := by
      rw [← slice_append_drop hle, Bytes.newlines_append, hold, Nat.zero_add]
    have hfront : front ++ splice source cursor (e :: rest) =
        front ++ source.slice cursor e.start ++ e.text ++ splice source e.stop rest := by
      simp only [splice, List.append_assoc]
    have holdFront : old ++ source.drop cursor =
        old ++ source.slice cursor e.start ++ source.slice e.start e.stop ++ source.drop e.stop := by
      rw [List.append_assoc, List.append_assoc, slice_append_drop hle, slice_append_drop hcursor]
    rw [hfront, holdFront]
    by_cases hline : newlines (source.drop e.stop) = 0
    · -- the edit is on the last line: what is in front of it there counts for what comes behind
      have hon : onLastLine source (e :: rest) = e :: onLastLine source rest :=
        List.filter_cons_of_pos (by rw [hrestLine, hline]; rfl)
      rw [if_pos hline, if_pos hline, Bytes.width_append _ e.text, if_pos hnew,
        Bytes.width_append _ (source.slice e.start e.stop), if_pos hold, length_slice hle hlen,
        Bytes.width_append front, Bytes.width_append old] at ih
      rw [hon, removed_cons, added_cons]
      by_cases hgapLine : newlines (source.slice cursor e.start) = 0
      · rw [if_pos hgapLine, if_pos hgapLine] at ih
        rw [if_pos (by omega), if_pos (by omega)]
        omega
      · rw [if_neg hgapLine, if_neg hgapLine] at ih
        rw [if_neg (by omega), if_neg (by omega)]
        omega
    · -- it is on an earlier line, and its widths are of no account
      have hon : onLastLine source (e :: rest) = onLastLine source rest :=
        List.filter_cons_of_neg (by simpa [hrestLine] using hline)
      rw [if_neg hline, if_neg hline] at ih
      rw [hon, if_neg (by omega), if_neg (by omega)]
      exact ih

end Edit

end LogHygiene
