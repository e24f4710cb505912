import LogHygiene.Proofs.Displacement

/-!
# What edits leave, said without a cursor

`Edit.applyAll` sorts the edits, looks at neighbours and copies the file in one pass, with a cursor that
runs along. None of that is in what a reader of the rules wants to know, so the result is said in three
other ways, and each is proved to be the one pass:

* carried out **one at a time**, the last one first (`spliceFromBack_eq`), which is what edits mean;
* **offset by offset** (`splice_eq_laidBetween`): what is inserted at the offset, in the order of the list, then
  what replaces a stretch from there on, then the byte itself unless an edit takes it out;
* cut out of the text with **cuts that can fail** (`spliceCutting?_eq`): they never do.

The second way mentions no sorting at all. It sees a list of edits only through what is inserted at each
offset, what replaces a stretch from there and what is taken out, and so it is also the reason why the order
of the list matters only among insertions at one place (`layOut_perm`).

> **edits are carried out exactly if each of them fits the text and no two of them touch the same bytes**
> (`applyAll_iff_apart`), and then the three ways above agree.
-/

set_option autoImplicit false

namespace LogHygiene

/-- The bytes between two offsets if they can be cut out of a text: the offsets are in order and in the
text, and neither of them splits a character. -/
def Bytes.cut? (bytes : Bytes) (i j : Nat) : Option Bytes :=
  if i ≤ j && j ≤ bytes.length && bytes.isBoundary i && bytes.isBoundary j then some (bytes.slice i j)
  else none

namespace Edit

variable {source : Bytes} {edits row : List Edit} {cursor n : Nat} {e : Edit}

/-! ## Edits that fit -/

/-- An edit fits a text: it is a stretch of the text between two characters. -/
structure Fits (source : Bytes) (e : Edit) : Prop where
  forward : e.start ≤ e.stop
  inside : e.stop ≤ source.length
  start : source.isBoundary e.start = true
  stop : source.isBoundary e.stop = true

theorem misfit?_eq_none_iff : misfit? source e = none ↔ e.Fits source :=
  misfit?_eq_none.trans ⟨fun ⟨hle, hlen, hstart, hstop⟩ => ⟨hle, hlen, hstart, hstop⟩,
    fun h => ⟨h.forward, h.inside, h.start, h.stop⟩⟩

theorem fault?_eq_none_iff : fault? source row = none ↔ (∀ e ∈ row, e.Fits source) ∧ overlap? row = none := by
  simp only [fault?, Option.or_eq_none_iff, List.findSome?_eq_none_iff, misfit?_eq_none_iff]

/-- Edits are carried out exactly if each of them fits and no two touch the same bytes. -/
theorem accepted_iff : (∃ fixed, applyAll source edits = .ok fixed) ↔
    (∀ e ∈ edits, e.Fits source) ∧ edits.Pairwise Apart := by
  have hperm := inOrder_perm edits
  constructor
  · rintro ⟨fixed, h⟩
    obtain ⟨hfollow, hfit, -⟩ := applyAll_eq_ok h
    have hapart : (inOrder edits).Pairwise Apart := hfollow.pairwise.imp Or.inl
    exact ⟨fun e he => misfit?_eq_none_iff.mp (hfit e he), hapart.perm hperm Apart.symm⟩
  · rintro ⟨hfit, hapart⟩
    obtain ⟨row, -, h, -⟩ := applyAll_of_apart (fun e he => misfit?_eq_none_iff.mpr (hfit e he)) hapart
    exact ⟨_, h⟩

/-! ## One at a time -/

/-- What carrying out the last edits first leaves: the text up to a place in front of them all, and the
pass from there. -/
theorem spliceFromBack_eq (h : Follow source cursor row) :
    spliceFromBack source row = source.take cursor ++ splice source cursor row := by
  induction h with
  | nil _ => exact (List.take_append_drop _ _).symm
  | @cons cursor e rest hcursor hle hlen _ ih =>
    have hwidth : (source.take e.stop).length = e.stop := by rw [List.length_take, Nat.min_eq_left hlen]
    have hfront : (source.take e.stop ++ splice source e.stop rest).take e.start = source.take e.start := by
      rw [List.take_append_of_le_length (by omega), List.take_take, Nat.min_eq_left hle]
    have hback : (source.take e.stop ++ splice source e.stop rest).drop e.stop = splice source e.stop rest :=
      List.drop_left' hwidth
    have hsplit : source.take cursor ++ source.slice cursor e.start = source.take e.start := by
      have htake : source.slice 0 cursor ++ source.slice cursor e.start = source.slice 0 e.start :=
        slice_append_slice (Nat.zero_le cursor) hcursor
      simpa [Bytes.slice] using htake
    calc spliceFromBack source (e :: rest)
      _ = carryOut (spliceFromBack source rest) e := rfl
      _ = source.take e.start ++ e.text ++ splice source e.stop rest := by rw [ih, carryOut, hfront, hback]
      _ = source.take cursor ++ splice source cursor (e :: rest) := by
        rw [splice, ← hsplit, List.append_assoc, List.append_assoc, List.append_assoc]

/-! ## Cuts that can fail -/

/-- The pass over a text with cuts that fail where a text cannot be cut. -/
def spliceCutting? (source : Bytes) : Nat → List Edit → Option Bytes
  | cursor, [] => source.cut? cursor source.length
  | cursor, e :: rest =>
    (source.cut? cursor e.start).bind fun front =>
      (spliceCutting? source e.stop rest).map fun back => front ++ e.text ++ back

theorem cut?_eq {i j : Nat} (hij : i ≤ j) (hj : j ≤ source.length) (hi : source.isBoundary i = true)
    (hboundary : source.isBoundary j = true) : source.cut? i j = some (source.slice i j) := by
  rw [Bytes.cut?, if_pos]
  simp [hij, hj, hi, hboundary]

/-- No cut of the pass fails. -/
theorem spliceCutting?_eq (h : Follow source cursor row) (hcursor : source.isBoundary cursor = true)
    (hfit : ∀ e ∈ row, e.Fits source) : spliceCutting? source cursor row = some (splice source cursor row) := by
  induction h with
  | @nil cursor hle =>
    rw [spliceCutting?, cut?_eq hle Nat.le.refl hcursor (Bytes.isBoundary_length source), splice, Bytes.slice,
      List.take_of_length_le (by rw [List.length_drop])]
  | @cons cursor e rest hstart hle hlen _ ih =>
    obtain ⟨he, hrest⟩ := List.forall_mem_cons.mp hfit
    rw [spliceCutting?, cut?_eq hstart (by omega) hcursor he.start, Option.bind_some, ih he.stop hrest]
    rfl

/-! ## Offset by offset -/

/-- The edit puts text in at an offset and takes nothing out. -/
def insertsAt (n : Nat) (e : Edit) : Bool := e.start == n && e.stop == n

/-- The edit replaces a stretch that starts at an offset. -/
def replacesFrom (n : Nat) (e : Edit) : Bool := e.start == n && decide (n < e.stop)

/-- The edit takes out the byte at an offset. -/
def takesOut (n : Nat) (e : Edit) : Bool := decide (e.start ≤ n) && decide (n < e.stop)

theorem insertsAt_iff : insertsAt n e = true ↔ e.start = n ∧ e.stop = n := by simp [insertsAt]

theorem replacesFrom_iff : replacesFrom n e = true ↔ e.start = n ∧ n < e.stop := by simp [replacesFrom]

theorem takesOut_iff : takesOut n e = true ↔ e.start ≤ n ∧ n < e.stop := by simp [takesOut]

/-- What stands in the result for one offset of the text: the insertions there in the order of the list,
then what replaces a stretch from there, then the byte unless it is taken out. -/
def laidAt (source : Bytes) (edits : List Edit) (n : Nat) : Bytes :=
  (edits.filter (insertsAt n)).flatMap Edit.text ++ (edits.filter (replacesFrom n)).flatMap Edit.text ++
    (if edits.any (takesOut n) then [] else (source[n]?).toList)

/-- What stands for the offsets from `i` up to `j`. -/
def laidBetween (source : Bytes) (edits : List Edit) (i j : Nat) : Bytes :=
  (List.range' i (j - i)).flatMap (laidAt source edits)

/-- What stands for all offsets of the text, its end included. -/
def layOut (source : Bytes) (edits : List Edit) : Bytes :=
  laidBetween source edits 0 (source.length + 1)

theorem laidBetween_append {i j k : Nat} (hij : i ≤ j) (hjk : j ≤ k) :
    laidBetween source edits i j ++ laidBetween source edits j k = laidBetween source edits i k := by
  have hrange : List.range' i (j - i) ++ List.range' j (k - j) = List.range' i (k - i) := by
    have happend : List.range' i (j - i) ++ List.range' (i + 1 * (j - i)) (k - j) =
        List.range' i ((j - i) + (k - j)) := List.range'_append
    rwa [Nat.one_mul, Nat.add_sub_cancel' hij, show (j - i) + (k - j) = k - i by omega] at happend
  rw [laidBetween, laidBetween, laidBetween, ← List.flatMap_append, hrange]

theorem laidBetween_congr {i j : Nat} (h : ∀ n, i ≤ n → n < j → laidAt source edits n = laidAt source row n) :
    laidBetween source edits i j = laidBetween source row i j := by
  refine List.flatMap_congr fun n hn => ?_
  obtain ⟨hle, hlt⟩ := List.mem_range'_1.mp hn
  exact h n hle (by omega)

theorem laidBetween_first {i j : Nat} (hij : i < j) :
    laidBetween source edits i j = laidAt source edits i ++ laidBetween source edits (i + 1) j := by
  rw [laidBetween, laidBetween, show j - i = (j - (i + 1)) + 1 by omega, List.range'_succ, List.flatMap_cons]

/-- Without edits the text stands there. -/
theorem laidBetween_nil (source : Bytes) (i j : Nat) : laidBetween source [] i j = source.slice i j := by
  have hbyte : ∀ n, laidAt source [] n = (source[n]?).toList := fun _ => rfl
  rw [laidBetween, Bytes.slice]
  generalize j - i = k
  induction k generalizing i with
  | zero => rfl
  | succ k ih =>
    rw [List.range'_succ, List.flatMap_cons, ih, hbyte]
    by_cases hi : i < source.length
    · rw [List.drop_eq_getElem_cons hi, List.take_succ_cons, List.getElem?_eq_getElem hi]
      rfl
    · rw [List.getElem?_eq_none (by omega), List.drop_eq_nil_of_le (by omega), List.drop_eq_nil_of_le (by omega),
        List.take_nil, List.take_nil]
      rfl

/-- An edit that lies elsewhere leaves an offset alone. -/
theorem laidAt_cons_of_elsewhere (h : n < e.start ∨ e.start < n ∧ e.stop ≤ n) :
    laidAt source (e :: row) n = laidAt source row n := by
  have hinserts : insertsAt n e = false := by
    rw [Bool.eq_false_iff, ne_eq, insertsAt_iff]
    omega
  have hreplaces : replacesFrom n e = false := by
    rw [Bool.eq_false_iff, ne_eq, replacesFrom_iff]
    omega
  have htakes : takesOut n e = false := by
    rw [Bool.eq_false_iff, ne_eq, takesOut_iff]
    omega
  simp only [laidAt, List.filter_cons, hinserts, hreplaces, Bool.false_eq_true, if_false, List.any_cons, htakes,
    Bool.false_or]

/-- In front of all edits nothing changes. -/
theorem laidAt_of_front (h : ∀ e ∈ row, n < e.start) : laidAt source row n = laidAt source [] n := by
  induction row with
  | nil => rfl
  | cons e rest ih =>
    obtain ⟨he, hrest⟩ := List.forall_mem_cons.mp h
    rw [laidAt_cons_of_elsewhere (.inl he), ih hrest]

/-- An insertion stands in front of all else at its offset. -/
theorem laidAt_cons_of_insertion (hstart : e.start = n) (hstop : e.stop = n) :
    laidAt source (e :: row) n = e.text ++ laidAt source row n := by
  have hinserts : insertsAt n e = true := insertsAt_iff.mpr ⟨hstart, hstop⟩
  have hreplaces : replacesFrom n e = false := by simp [replacesFrom, hstop]
  have htakes : takesOut n e = false := by simp [takesOut, hstop]
  simp only [laidAt, List.filter_cons, hinserts, hreplaces, Bool.false_eq_true, if_false, if_true, List.any_cons,
    htakes, Bool.false_or, List.flatMap_cons, List.append_assoc]

theorem filter_eq_nil_of_front {p : Edit → Bool} (hp : ∀ d, p d = true → d.start = n)
    (h : ∀ d ∈ row, n < d.start) : row.filter p = [] := by
  refine List.filter_eq_nil_iff.mpr fun d hd hpd => ?_
  have hlt := h d hd
  have heq := hp d hpd
  omega

/-- Within a stretch that an edit takes out stands nothing but its text, at the start. -/
theorem laidAt_cons_of_wide (hle : e.start ≤ n) (hlt : n < e.stop) (hbehind : ∀ d ∈ row, e.stop ≤ d.start) :
    laidAt source (e :: row) n = if e.start = n then e.text else [] := by
  have hfront : ∀ d ∈ row, n < d.start := fun d hd => Nat.lt_of_lt_of_le hlt (hbehind d hd)
  have htakes : takesOut n e = true := takesOut_iff.mpr ⟨hle, hlt⟩
  have hinserts : insertsAt n e = false := by
    rw [Bool.eq_false_iff, ne_eq, insertsAt_iff]
    omega
  simp only [laidAt, List.filter_cons, List.any_cons, htakes, hinserts, Bool.true_or, if_true, Bool.false_eq_true,
    if_false, filter_eq_nil_of_front (fun d hd => (insertsAt_iff.mp hd).1) hfront,
    filter_eq_nil_of_front (fun d hd => (replacesFrom_iff.mp hd).1) hfront]
  by_cases hstart : e.start = n
  · rw [if_pos (replacesFrom_iff.mpr ⟨hstart, hlt⟩), if_pos hstart]
    simp
  · rw [if_neg fun h => hstart (replacesFrom_iff.mp h).1, if_neg hstart]
    rfl

theorem laidBetween_cons_of_wide (hwide : e.start < e.stop) (hbehind : ∀ d ∈ row, e.stop ≤ d.start) :
    laidBetween source (e :: row) e.start e.stop = e.text := by
  have hrest : laidBetween source (e :: row) (e.start + 1) e.stop = [] := by
    refine List.flatMap_eq_nil_iff.mpr fun n hn => ?_
    obtain ⟨hle, hlt⟩ := List.mem_range'_1.mp hn
    rw [laidAt_cons_of_wide (by omega) (by omega) hbehind, if_neg (by omega)]
  rw [laidBetween_first hwide, laidAt_cons_of_wide Nat.le.refl hwide hbehind, if_pos rfl, hrest, List.append_nil]

/-- **One pass over the text lays it out offset by offset.** -/
theorem splice_eq_laidBetween (h : Follow source cursor row) :
    splice source cursor row = laidBetween source row cursor (source.length + 1) := by
  induction h with
  | @nil cursor _ =>
    rw [laidBetween_nil, splice, Bytes.slice, List.take_of_length_le]
    rw [List.length_drop]
    omega
  | @cons cursor e rest hcursor hle hlen hrest ih =>
    have hbehind : ∀ d ∈ rest, e.stop ≤ d.start := fun d hd => (hrest.mem d hd).1
    have hfront : source.slice cursor e.start = laidBetween source (e :: rest) cursor e.start := by
      rw [← laidBetween_nil]
      refine laidBetween_congr fun n _ hn => (laidAt_of_front ?_).symm
      exact List.forall_mem_cons.mpr ⟨hn, fun d hd => by have := hbehind d hd; omega⟩
    have hback : e.text ++ laidBetween source rest e.stop (source.length + 1) =
        laidBetween source (e :: rest) e.start (source.length + 1) := by
      rcases Nat.lt_or_eq_of_le hle with hwide | hthin
      · have hlater : laidBetween source (e :: rest) e.stop (source.length + 1) =
            laidBetween source rest e.stop (source.length + 1) :=
          laidBetween_congr fun n hn _ => laidAt_cons_of_elsewhere (.inr ⟨by omega, hn⟩)
        rw [← laidBetween_append hle (by omega), laidBetween_cons_of_wide hwide hbehind, hlater]
      · have hlater : laidBetween source (e :: rest) (e.stop + 1) (source.length + 1) =
            laidBetween source rest (e.stop + 1) (source.length + 1) :=
          laidBetween_congr fun n hn _ => laidAt_cons_of_elsewhere (.inr ⟨by omega, by omega⟩)
        rw [hthin, laidBetween_first (i := e.stop) (by omega), laidBetween_first (i := e.stop) (by omega), hlater,
          laidAt_cons_of_insertion hthin rfl, List.append_assoc]
    rw [splice, ih, List.append_assoc, hback, hfront, laidBetween_append hcursor (by omega)]

/-! ## Order -/

/-- Edits that may stand as they do keep their order when all are sorted. -/
theorem filter_inOrder {p : Edit → Bool} (h : (edits.filter p).Pairwise fun a b => before a b = true) :
    (inOrder edits).filter p = edits.filter p := by
  have hsub : (edits.filter p).Sublist (inOrder edits) := by
    refine List.sublist_mergeSort (fun a b c hab hbc => ?_) (fun a b => ?_) h List.filter_sublist
    · rw [before_iff] at hab hbc ⊢
      omega
    · rw [Bool.or_eq_true, before_iff, before_iff]
      omega
  have hfiltered := hsub.filter p
  rw [List.filter_filter] at hfiltered
  simp only [Bool.and_self] at hfiltered
  exact (hfiltered.eq_of_length ((inOrder_perm edits).filter p).length_eq.symm).symm

/-- Insertions at one offset stay in the order of the list. -/
theorem filter_insertsAt_inOrder (edits : List Edit) (n : Nat) :
    (inOrder edits).filter (insertsAt n) = edits.filter (insertsAt n) := by
  refine filter_inOrder (List.pairwise_of_forall_mem_list fun a ha b hb => ?_)
  have ha := insertsAt_iff.mp (List.mem_filter.mp ha).2
  have hb := insertsAt_iff.mp (List.mem_filter.mp hb).2
  rw [before_iff]
  omega

/-- Of edits that keep apart, one at most replaces a stretch from an offset on. -/
theorem length_filter_replacesFrom_le (h : edits.Pairwise Apart) (n : Nat) :
    (edits.filter (replacesFrom n)).length ≤ 1 := by
  have hpair := List.Pairwise.filter (replacesFrom n) h
  have hmem : ∀ d ∈ edits.filter (replacesFrom n), d.start = n ∧ n < d.stop :=
    fun d hd => replacesFrom_iff.mp (List.mem_filter.mp hd).2
  generalize edits.filter (replacesFrom n) = row at hpair hmem
  match row with
  | [] => exact Nat.zero_le _
  | [_] => exact Nat.le.refl
  | a :: b :: _ =>
    have hapart := (List.pairwise_cons.mp hpair).1 b List.mem_cons_self
    have ha := hmem a List.mem_cons_self
    have hb := hmem b (List.mem_cons_of_mem _ List.mem_cons_self)
    unfold Apart at hapart
    omega

/-- **What edits leave depends on their order only among insertions at one offset.** -/
theorem layOut_perm (hperm : edits.Perm row) (hapart : edits.Pairwise Apart)
    (hinserted : ∀ n, edits.filter (insertsAt n) = row.filter (insertsAt n)) :
    layOut source edits = layOut source row := by
  refine laidBetween_congr fun n _ _ => ?_
  have hreplaced : edits.filter (replacesFrom n) = row.filter (replacesFrom n) := by
    have hle := length_filter_replacesFrom_le hapart n
    have hfiltered := hperm.filter (replacesFrom n)
    match hone : edits.filter (replacesFrom n) with
    | [] => exact (List.perm_nil.mp (hone ▸ hfiltered).symm).symm
    | [a] => exact (List.perm_singleton.mp (hone ▸ hfiltered).symm).symm
    | a :: b :: _ =>
      rw [hone, List.length_cons, List.length_cons] at hle
      omega
  rw [laidAt, laidAt, hinserted n, hreplaced, hperm.any_eq]

/-- Edits that are carried out leave what stands for all offsets. -/
theorem eq_layOut {fixed : Bytes} (h : applyAll source edits = .ok fixed) : fixed = layOut source edits := by
  obtain ⟨hfollow, -, rfl⟩ := applyAll_eq_ok h
  have hapart := (accepted_iff.mp ⟨_, h⟩).2
  rw [splice_eq_laidBetween hfollow]
  exact (layOut_perm (inOrder_perm edits).symm hapart fun n => (filter_insertsAt_inOrder edits n).symm).symm

end Edit

end LogHygiene
