import LogHygiene.Proofs.Splicing
import Mathlib.Algebra.GroupWithZero.Nat
import Mathlib.Algebra.Order.BigOperators.Group.List
import Mathlib.Algebra.Order.Ring.Nat

/-!
# Where edits carry things

A rewrite is followed by a second look at the file, and every rule then speaks of places in the fixed text.
This module says where a place of the file is found there.

A place has two sides. What *starts* at the place of an insertion is moved behind the new text; what *stops*
there stays in front of it. So an offset is carried by two maps, `startAfter` and `stopAfter`, which differ
only at insertions.

> **what no edit touches is found again, unchanged, between the places that its two ends are carried to**
> (`slice_after_untouched`).

A stretch that holds edits changes, but what lies behind the last of them is still its end
(`slice_after_tail`). Both come from cutting one pass over the file in two (`splice_append`).
-/

set_option autoImplicit false

namespace LogHygiene

namespace Edit

variable {source fixed : Bytes} {edits : List Edit}

/-! ## Edits that were accepted -/

theorem follow_of_overlap? : ∀ {edits : List Edit} {cursor : Nat}, cursor ≤ source.length →
    (∀ e ∈ edits.head?, cursor ≤ e.start) → (∀ e ∈ edits, misfit? source e = none) →
    overlap? edits = none → Follow source cursor edits
  | [], _, hcursor, _, _, _ => .nil hcursor
  | e :: rest, cursor, _, hfirst, hfit, hoverlap => by
    obtain ⟨he, hrest⟩ := List.forall_mem_cons.mp hfit
    obtain ⟨hle, hlen, -, -⟩ := misfit?_eq_none.mp he
    refine .cons (hfirst e rfl) hle hlen ?_
    cases rest with
    | nil => exact .nil hlen
    | cons d more =>
      rw [overlap?] at hoverlap
      split at hoverlap
      · exact absurd hoverlap (by simp)
      · rename_i hnot
        refine follow_of_overlap? hlen (fun x hx => ?_) hrest hoverlap
        obtain rfl : d = x := Option.some.inj hx
        exact Nat.not_lt.mp hnot

/-- Edits that are carried out fit the file and follow one another, and the result is one pass over it. -/
theorem applyAll_eq_ok (h : applyAll source edits = .ok fixed) :
    Follow source 0 (inOrder edits) ∧ (∀ e ∈ edits, misfit? source e = none) ∧
      fixed = splice source 0 (inOrder edits) := by
  unfold applyAll at h
  dsimp only at h
  split at h
  · exact absurd h (by simp)
  · rename_i hfault
    obtain ⟨hfit, hoverlap⟩ := Option.or_eq_none_iff.mp hfault
    have hfit := List.findSome?_eq_none_iff.mp hfit
    refine ⟨follow_of_overlap? (Nat.zero_le _) (fun _ _ => Nat.zero_le _) hfit hoverlap, ?_,
      (Except.ok.inj h).symm⟩
    exact fun e he => hfit e ((inOrder_perm edits).mem_iff.mpr he)

/-- Edits that are in order already. -/
theorem applyAll_of_inOrder (hordered : edits.Pairwise fun a b => a.before b = true)
    (hfit : fault? source edits = none) : applyAll source edits = .ok (splice source 0 edits) := by
  rw [applyAll, inOrder, List.mergeSort_of_pairwise hordered]
  simp only [hfit]

namespace Follow

variable {cursor n : Nat}

theorem mem (h : Follow source cursor edits) : ∀ e ∈ edits, cursor ≤ e.start ∧ e.start ≤ e.stop ∧
    e.stop ≤ source.length := by
  induction h with
  | nil _ => simp
  | cons hcursor hle hlen _ ih =>
    refine List.forall_mem_cons.mpr ⟨⟨hcursor, hle, hlen⟩, fun d hd => ?_⟩
    obtain ⟨hstart, hd⟩ := ih d hd
    exact ⟨by omega, hd⟩

theorem cursor_le (h : Follow source cursor edits) : cursor ≤ source.length := by
  cases h with
  | nil hcursor => exact hcursor
  | cons hcursor hle hlen _ => omega

theorem pairwise (h : Follow source cursor edits) : edits.Pairwise fun a b => a.stop ≤ b.start := by
  induction h with
  | nil _ => exact .nil
  | cons _ _ _ hrest ih => exact .cons (fun d hd => (hrest.mem d hd).1) ih

/-- Edits that stand one behind the other follow from every place in front of them. -/
theorem intro : ∀ {edits : List Edit} {cursor : Nat}, cursor ≤ source.length →
    (∀ e ∈ edits, cursor ≤ e.start ∧ e.start ≤ e.stop ∧ e.stop ≤ source.length) →
    (edits.Pairwise fun a b => a.stop ≤ b.start) → Follow source cursor edits
  | [], _, hcursor, _, _ => .nil hcursor
  | e :: rest, _, _, hall, hpair => by
    obtain ⟨⟨hcursor, hle, hlen⟩, hrest⟩ := List.forall_mem_cons.mp hall
    obtain ⟨hfirst, hpair⟩ := List.pairwise_cons.mp hpair
    exact .cons hcursor hle hlen (intro hlen (fun d hd => ⟨hfirst d hd, (hrest d hd).2⟩) hpair)

theorem sublist {some : List Edit} (h : Follow source cursor edits) (hsub : some.Sublist edits) :
    Follow source cursor some :=
  intro h.cursor_le (fun e he => h.mem e (hsub.mem he)) (h.pairwise.sublist hsub)

theorem advance (h : Follow source cursor edits) (hn : n ≤ source.length)
    (hbehind : ∀ e ∈ edits, n ≤ e.start) : Follow source n edits :=
  intro hn (fun e he => ⟨hbehind e he, (h.mem e he).2⟩) h.pairwise

theorem take (h : Follow source cursor edits) (hcursor : cursor ≤ n) (hn : n ≤ source.length)
    (hfront : ∀ e ∈ edits, e.stop ≤ n) : Follow (source.take n) cursor edits := by
  refine intro ?_ (fun e he => ?_) h.pairwise
  · rw [List.length_take]; omega
  · obtain ⟨hstart, hle, -⟩ := h.mem e he
    have hstop := hfront e he
    rw [List.length_take]
    exact ⟨hstart, hle, by omega⟩

end Follow

/-! ## One pass, cut in two -/

theorem slice_append_slice {i j k : Nat} (hij : i ≤ j) (hjk : j ≤ k) :
    source.slice i j ++ source.slice j k = source.slice i k := by
  have hsum : k - i = (j - i) + (k - j) := by omega
  rw [Bytes.slice, Bytes.slice, Bytes.slice, hsum, List.take_add, List.drop_drop,
    Nat.add_sub_cancel' hij]

theorem drop_take {i n : Nat} : (source.take n).drop i = source.slice i n := by
  rw [Bytes.slice, List.drop_take]

theorem slice_take {i j n : Nat} (hj : j ≤ n) : Bytes.slice (source.take n) i j = source.slice i j := by
  rw [Bytes.slice, Bytes.slice, List.drop_take, List.take_take, Nat.min_eq_left (by omega)]

/-- The pass from a place in front of every edit. -/
theorem slice_append_splice {cursor n : Nat} (hcursor : cursor ≤ n) : ∀ {edits : List Edit},
    (∀ e ∈ edits, n ≤ e.start) → source.slice cursor n ++ splice source n edits = splice source cursor edits
  | [], _ => slice_append_drop hcursor
  | e :: rest, hback => by
    have hn : n ≤ e.start := hback e List.mem_cons_self
    rw [splice, splice, ← slice_append_slice hcursor hn, List.append_assoc, List.append_assoc,
      List.append_assoc]

/-- **A pass over the file can be cut where no edit reaches over.** -/
theorem splice_append {n : Nat} {back : List Edit} : ∀ {front : List Edit} {cursor : Nat},
    cursor ≤ n → (∀ e ∈ front, e.start ≤ e.stop ∧ e.stop ≤ n) → (∀ e ∈ back, n ≤ e.start) →
    splice source cursor (front ++ back) = splice (source.take n) cursor front ++ splice source n back
  | [], cursor, hcursor, _, hback => by
    rw [List.nil_append, splice.eq_1 (source.take n), drop_take, slice_append_splice hcursor hback]
  | e :: rest, cursor, hcursor, hfront, hback => by
    obtain ⟨⟨hle, hstop⟩, hrest⟩ := List.forall_mem_cons.mp hfront
    have hslice : Bytes.slice (source.take n) cursor e.start = source.slice cursor e.start :=
      slice_take (Nat.le_trans hle hstop)
    rw [List.cons_append, splice, splice, splice_append hstop hrest hback, hslice, ← List.append_assoc]

/-! ## How long a pass gets -/

/-- The bytes that edits put in. -/
def added (edits : List Edit) : Nat := (edits.map (·.text.length)).sum

/-- The bytes that edits take out. -/
def removed (edits : List Edit) : Nat := (edits.map fun e => e.stop - e.start).sum

theorem added_cons (e : Edit) (rest : List Edit) : added (e :: rest) = e.text.length + added rest :=
  List.sum_cons

theorem removed_cons (e : Edit) (rest : List Edit) :
    removed (e :: rest) = (e.stop - e.start) + removed rest := List.sum_cons

theorem added_perm {a b : List Edit} (h : a.Perm b) : added a = added b := (h.map _).sum_nat

theorem removed_perm {a b : List Edit} (h : a.Perm b) : removed a = removed b := (h.map _).sum_nat

theorem length_splice {cursor : Nat} (h : Follow source cursor edits) :
    (splice source cursor edits).length + cursor + removed edits = source.length + added edits := by
  induction h with
  | nil hcursor =>
    rw [splice, List.length_drop, removed, added]
    simp only [List.map_nil, List.sum_nil]
    omega
  | @cons cursor e rest hcursor hle hlen hrest ih =>
    rw [splice, List.length_append, List.length_append, length_slice hcursor (by omega), added_cons,
      removed_cons]
    omega

/-! ## The two maps -/

/-- Where something that starts at an offset starts after the edits. -/
def startAfter (edits : List Edit) (n : Nat) : Nat :=
  n + added (edits.filter (·.stop ≤ n)) - removed (edits.filter (·.stop ≤ n))

/-- Where something that stops at an offset stops after the edits. -/
def stopAfter (edits : List Edit) (n : Nat) : Nat :=
  n + added (edits.filter (·.start < n)) - removed (edits.filter (·.start < n))

/-- No edit reaches over an offset. -/
def Cut (edits : List Edit) (n : Nat) : Prop := ∀ e ∈ edits, e.stop ≤ n ∨ n ≤ e.start

theorem startAfter_perm {a b : List Edit} (h : a.Perm b) (n : Nat) : startAfter a n = startAfter b n := by
  rw [startAfter, startAfter, added_perm (h.filter _), removed_perm (h.filter _)]

theorem stopAfter_perm {a b : List Edit} (h : a.Perm b) (n : Nat) : stopAfter a n = stopAfter b n := by
  rw [stopAfter, stopAfter, added_perm (h.filter _), removed_perm (h.filter _)]

/-- A row is what passes a test and what does not, if nothing passes behind what does not. -/
theorem filter_append_filter_not {α : Type} {p : α → Bool} : ∀ {xs : List α},
    (xs.Pairwise fun a b => p b = true → p a = true) → xs.filter p ++ xs.filter (fun x => !p x) = xs
  | [], _ => rfl
  | x :: rest, h => by
    obtain ⟨hfirst, hrest⟩ := List.pairwise_cons.mp h
    have ih := filter_append_filter_not hrest
    cases hx : p x with
    | true => rw [List.filter_cons_of_pos hx, List.filter_cons_of_neg (by simp [hx]), List.cons_append, ih]
    | false =>
      have hnone : rest.filter p = [] :=
        List.filter_eq_nil_iff.mpr fun y hy hp => absurd (hfirst y hy hp) (by simp [hx])
      rw [hnone, List.nil_append] at ih
      rw [List.filter_cons_of_neg (by simp [hx]), hnone, List.filter_cons_of_pos (by simp [hx]), ih,
        List.nil_append]

/-- A pass cut at an offset, with the edits in front of it told apart by `p`. -/
theorem splice_cut {p : Edit → Bool} {cursor n : Nat} (h : Follow source cursor edits)
    (hcursor : cursor ≤ n) (hn : n ≤ source.length) (hfront : ∀ e ∈ edits, p e = true → e.stop ≤ n)
    (hback : ∀ e ∈ edits, p e = false → n ≤ e.start)
    (hp : edits.Pairwise fun a b => p b = true → p a = true) :
    splice source cursor edits = splice (source.take n) cursor (edits.filter p) ++
      splice source n (edits.filter fun e => !p e) ∧
    (splice (source.take n) cursor (edits.filter p)).length + cursor + removed (edits.filter p) =
      n + added (edits.filter p) := by
  have hfirst : ∀ e ∈ edits.filter p, e.start ≤ e.stop ∧ e.stop ≤ n := by
    intro e he
    obtain ⟨hmem, hpe⟩ := List.mem_filter.mp he
    exact ⟨(h.mem e hmem).2.1, hfront e hmem hpe⟩
  constructor
  · have hlast : ∀ e ∈ edits.filter (fun e => !p e), n ≤ e.start := by
      intro e he
      obtain ⟨hmem, hpe⟩ := List.mem_filter.mp he
      exact hback e hmem (by simpa using hpe)
    rw [← splice_append hcursor hfirst hlast, filter_append_filter_not hp]
  · have hfollow := (h.sublist (List.filter_sublist (p := p))).take hcursor hn fun e he => (hfirst e he).2
    rw [length_splice hfollow, List.length_take, Nat.min_eq_left hn]

section Carried

variable {a b : Nat}

/-- The edits that lie between two offsets, in order. -/
def between (edits : List Edit) (a b : Nat) : List Edit :=
  (inOrder edits).filter fun e => !decide (e.stop ≤ a) && decide (e.start < b)

theorem cut_start (h : applyAll source edits = .ok fixed) (hn : a ≤ source.length) (ha : Cut edits a) :
    fixed = splice (source.take a) 0 ((inOrder edits).filter (·.stop ≤ a)) ++
      splice source a ((inOrder edits).filter fun e => !decide (e.stop ≤ a)) ∧
    (splice (source.take a) 0 ((inOrder edits).filter (·.stop ≤ a))).length = startAfter edits a := by
  obtain ⟨hfollow, -, rfl⟩ := applyAll_eq_ok h
  have hperm := inOrder_perm edits
  obtain ⟨hsplit, hlength⟩ := splice_cut (p := (·.stop ≤ a)) hfollow (Nat.zero_le a) hn
    (fun e _ hp => by simpa using hp)
    (fun e he hp => by
      have hcut := ha e (hperm.mem_iff.mp he)
      have hnot : ¬ e.stop ≤ a := by simpa using hp
      omega)
    (hfollow.pairwise.imp_of_mem fun {x y} hx hy hxy hp => by
      have hy := hfollow.mem y hy
      have hp : y.stop ≤ a := by simpa using hp
      simp only [decide_eq_true_eq]
      omega)
  refine ⟨hsplit, ?_⟩
  rw [← startAfter_perm hperm, startAfter]
  omega

theorem cut_stop (h : applyAll source edits = .ok fixed) (hn : b ≤ source.length) (hb : Cut edits b) :
    fixed = splice (source.take b) 0 ((inOrder edits).filter (·.start < b)) ++
      splice source b ((inOrder edits).filter fun e => !decide (e.start < b)) ∧
    (splice (source.take b) 0 ((inOrder edits).filter (·.start < b))).length = stopAfter edits b := by
  obtain ⟨hfollow, -, rfl⟩ := applyAll_eq_ok h
  have hperm := inOrder_perm edits
  obtain ⟨hsplit, hlength⟩ := splice_cut (p := (·.start < b)) hfollow (Nat.zero_le b) hn
    (fun e he hp => by
      have hcut := hb e (hperm.mem_iff.mp he)
      have hlt : e.start < b := by simpa using hp
      omega)
    (fun e _ hp => by simpa using hp)
    (hfollow.pairwise.imp_of_mem fun {x y} hx hy hxy hp => by
      have hx := hfollow.mem x hx
      have hp : y.start < b := by simpa using hp
      simp only [decide_eq_true_eq]
      omega)
  refine ⟨hsplit, ?_⟩
  rw [← stopAfter_perm hperm, stopAfter]
  omega

/-- A pass up to an offset goes on from an earlier one with the edits between them. -/
theorem splice_front (h : applyAll source edits = .ok fixed) (ha : Cut edits a) (hb : Cut edits b)
    (hab : a < b) (hlen : b ≤ source.length) :
    splice (source.take b) 0 ((inOrder edits).filter (·.start < b)) =
      splice (source.take a) 0 ((inOrder edits).filter (·.stop ≤ a)) ++
        splice (source.take b) a (between edits a b) := by
  have hperm := inOrder_perm edits
  obtain ⟨hfollow, -, -⟩ := applyAll_eq_ok h
  obtain ⟨hstart, -⟩ := cut_start h (by omega) ha
  obtain ⟨hstop, -⟩ := cut_stop h hlen hb
  -- what is not in front of `a`, cut at `b`
  have hrest : Follow source a ((inOrder edits).filter fun e => !decide (e.stop ≤ a)) := by
    refine (hfollow.sublist List.filter_sublist).advance (by omega) fun e he => ?_
    obtain ⟨hmem, hnot⟩ := List.mem_filter.mp he
    have hcut := ha e (hperm.mem_iff.mp hmem)
    have hnot : ¬ e.stop ≤ a := by simpa using hnot
    omega
  have hmiddle := (splice_cut (p := (·.start < b)) hrest (by omega) hlen
    (fun e he hp => by
      have hcut := hb e (hperm.mem_iff.mp (List.mem_filter.mp he).1)
      have hlt : e.start < b := by simpa using hp
      omega)
    (fun e _ hp => by simpa using hp)
    (hrest.pairwise.imp_of_mem fun {x y} hx hy hxy hp => by
      have hx := hrest.mem x hx
      have hp : y.start < b := by simpa using hp
      simp only [decide_eq_true_eq]
      omega)).1
  have hbehind : ((inOrder edits).filter fun e => !decide (e.stop ≤ a)).filter
      (fun e => !decide (e.start < b)) = (inOrder edits).filter fun e => !decide (e.start < b) := by
    rw [List.filter_filter]
    refine List.filter_congr fun e he => ?_
    have hle := hfollow.mem e he
    by_cases hlt : e.start < b
    · simp [hlt]
    · have hnot : ¬ e.stop ≤ a := by omega
      simp [hlt, hnot]
  have hinside : ((inOrder edits).filter fun e => !decide (e.stop ≤ a)).filter (·.start < b) =
      between edits a b := by
    rw [between, List.filter_filter]
    exact List.filter_congr fun e _ => Bool.and_comm _ _
  rw [hbehind, hinside] at hmiddle
  rw [hmiddle, ← List.append_assoc] at hstart
  exact (List.append_cancel_right (hstart.symm.trans hstop)).symm

/-- **How far apart two offsets are carried**: what is between them stays, but for the edits there. -/
theorem stopAfter_eq (h : applyAll source edits = .ok fixed) (ha : Cut edits a) (hb : Cut edits b)
    (hab : a < b) (hlen : b ≤ source.length) :
    stopAfter edits b = startAfter edits a + (splice (source.take b) a (between edits a b)).length := by
  have hlengths := congrArg List.length (splice_front h ha hb hab hlen)
  rwa [List.length_append, (cut_start h (by omega) ha).2, (cut_stop h hlen hb).2] at hlengths

/-- **What lies between two offsets is found between the places they are carried to**, with the edits
between them carried out. -/
theorem slice_after (h : applyAll source edits = .ok fixed) (ha : Cut edits a) (hb : Cut edits b)
    (hab : a < b) (hlen : b ≤ source.length) :
    fixed.slice (startAfter edits a) (stopAfter edits b) =
      splice (source.take b) a (between edits a b) := by
  have hfixed := (cut_stop h hlen hb).1
  rw [splice_front h ha hb hab hlen] at hfixed
  rw [hfixed, stopAfter_eq h ha hb hab hlen, Bytes.slice, ← (cut_start h (by omega) ha).2,
    List.append_assoc, List.drop_left, Nat.add_sub_cancel_left, List.take_left]

theorem stopAfter_le_startAfter (h : ∀ e ∈ edits, e.stop ≤ a ∨ a ≤ e.start)
    (hle : ∀ e ∈ edits, e.start ≤ e.stop) : stopAfter edits a ≤ startAfter edits a := by
  have hsums : added (edits.filter (·.start < a)) ≤ added (edits.filter (·.stop ≤ a)) ∧
      removed (edits.filter (·.start < a)) = removed (edits.filter (·.stop ≤ a)) := by
    induction edits with
    | nil => exact ⟨Nat.le.refl, rfl⟩
    | cons e rest ih =>
      obtain ⟨he, hrest⟩ := List.forall_mem_cons.mp h
      obtain ⟨hee, hlerest⟩ := List.forall_mem_cons.mp hle
      obtain ⟨hadded, hremoved⟩ := ih hrest hlerest
      by_cases hstart : e.start < a
      · have hstop : e.stop ≤ a := by omega
        rw [List.filter_cons_of_pos (by simpa using hstart), List.filter_cons_of_pos (by simpa using hstop),
          added_cons, added_cons, removed_cons, removed_cons]
        omega
      · rw [List.filter_cons_of_neg (by simpa using hstart)]
        by_cases hstop : e.stop ≤ a
        · rw [List.filter_cons_of_pos (by simpa using hstop), added_cons, removed_cons]
          omega
        · rw [List.filter_cons_of_neg (by simpa using hstop)]
          exact ⟨hadded, hremoved⟩
  rw [startAfter, stopAfter]
  omega

/-- What ends in front of something is carried to a place in front of it. -/
theorem stopAfter_le (h : applyAll source edits = .ok fixed) (ha : Cut edits a) (hb : Cut edits b)
    (hab : a ≤ b) (hlen : b ≤ source.length) : stopAfter edits a ≤ startAfter edits b := by
  obtain ⟨hfollow, -, -⟩ := applyAll_eq_ok h
  have hforward : ∀ e ∈ edits, e.start ≤ e.stop :=
    fun e he => (hfollow.mem e ((inOrder_perm edits).mem_iff.mpr he)).2.1
  rcases Nat.lt_or_eq_of_le hab with hlt | rfl
  · calc stopAfter edits a
      _ ≤ startAfter edits a := stopAfter_le_startAfter ha hforward
      _ ≤ stopAfter edits b := (stopAfter_eq h ha hb hlt hlen) ▸ Nat.le_add_right _ _
      _ ≤ startAfter edits b := stopAfter_le_startAfter hb hforward
  · exact stopAfter_le_startAfter ha hforward

/-- All that edits put in is in the pass. -/
theorem added_le_length_splice (source : Bytes) : ∀ (cursor : Nat) (edits : List Edit),
    added edits ≤ (splice source cursor edits).length
  | _, [] => Nat.zero_le _
  | cursor, e :: rest => by
    have ih := added_le_length_splice source e.stop rest
    rw [splice, List.length_append, List.length_append, added_cons]
    omega

/-- An edit that puts something in is in front of what ends behind it. -/
theorem startAfter_add_le {e : Edit} (h : applyAll source edits = .ok fixed) (he : e ∈ edits)
    (ha : Cut edits e.start) (hb : Cut edits b) (hbefore : e.start < b) (hwide : e.start < e.stop)
    (hlen : b ≤ source.length) : startAfter edits e.start + e.text.length ≤ stopAfter edits b := by
  have hmem : e ∈ between edits e.start b := by
    refine List.mem_filter.mpr ⟨(inOrder_perm edits).mem_iff.mpr he, ?_⟩
    simp only [Bool.and_eq_true, Bool.not_eq_true', decide_eq_false_iff_not, decide_eq_true_eq]
    omega
  have hone : e.text.length ≤ added (between edits e.start b) :=
    List.le_sum_of_mem (List.mem_map.mpr ⟨e, hmem, rfl⟩)
  have hall := added_le_length_splice (source.take b) e.start (between edits e.start b)
  rw [stopAfter_eq h ha hb hbefore hlen]
  omega

/-- **What no edit touches is found again, unchanged.** -/
theorem slice_after_untouched (h : applyAll source edits = .ok fixed)
    (hclear : ∀ e ∈ edits, e.stop ≤ a ∨ b ≤ e.start) (hab : a ≤ b) (hlen : b ≤ source.length) :
    fixed.slice (startAfter edits a) (stopAfter edits b) = source.slice a b := by
  obtain ⟨hfollow, -, -⟩ := applyAll_eq_ok h
  have hperm := inOrder_perm edits
  rcases Nat.lt_or_eq_of_le hab with hlt | rfl
  · have hnone : between edits a b = [] := by
      refine List.filter_eq_nil_iff.mpr fun e he => ?_
      have hclear := hclear e (hperm.mem_iff.mp he)
      simp only [Bool.and_eq_true, Bool.not_eq_true', decide_eq_false_iff_not, decide_eq_true_eq]
      omega
    rw [slice_after h (fun e he => by have := hclear e he; omega) (fun e he => by have := hclear e he; omega)
      hlt hlen, hnone, splice, drop_take]
  · have hle := stopAfter_le_startAfter hclear fun e he => (hfollow.mem e (hperm.mem_iff.mpr he)).2.1
    rw [Bytes.slice, Bytes.slice, Nat.sub_eq_zero_of_le hle, Nat.sub_self, List.take_zero, List.take_zero]

/-- An edit that takes something out leaves its text between the places that its ends are carried to. -/
theorem slice_after_edit {e : Edit} (h : applyAll source edits = .ok fixed) (he : e ∈ edits)
    (hwide : e.start < e.stop) :
    fixed.slice (startAfter edits e.start) (stopAfter edits e.stop) = e.text := by
  obtain ⟨hfollow, -, -⟩ := applyAll_eq_ok h
  have hperm := inOrder_perm edits
  obtain ⟨front, back, horder⟩ := List.append_of_mem (hperm.mem_iff.mpr he)
  have hpair := hfollow.pairwise
  have hall := hfollow.mem
  rw [horder] at hpair hall
  obtain ⟨-, hback, hfront⟩ := List.pairwise_append.mp hpair
  obtain ⟨hback, -⟩ := List.pairwise_cons.mp hback
  have hfront : ∀ d ∈ front, d.stop ≤ e.start := fun d hd => hfront d hd e List.mem_cons_self
  have hle : ∀ d ∈ front ++ e :: back, d.start ≤ d.stop := fun d hd => (hall d hd).2.1
  have hcut : ∀ d ∈ edits, d.stop ≤ e.start ∨ d = e ∨ e.stop ≤ d.start := by
    intro d hd
    have hd := hperm.mem_iff.mpr hd
    rw [horder, List.mem_append, List.mem_cons] at hd
    rcases hd with hd | hd | hd
    · exact .inl (hfront d hd)
    · exact .inr (.inl hd)
    · exact .inr (.inr (hback d hd))
  have hself : between edits e.start e.stop = [e] := by
    rw [between, horder, List.filter_append, List.filter_cons_of_pos (by simp; omega),
      List.filter_eq_nil_iff.mpr fun d hd => ?_, List.filter_eq_nil_iff.mpr fun d hd => ?_, List.nil_append]
    · have hd := hback d hd
      simp only [Bool.and_eq_true, Bool.not_eq_true', decide_eq_false_iff_not, decide_eq_true_eq]
      omega
    · have hd := hfront d hd
      simp only [Bool.and_eq_true, Bool.not_eq_true', decide_eq_false_iff_not, decide_eq_true_eq]
      omega
  have hlen := (hall e (List.mem_append_right _ List.mem_cons_self)).2.2
  rw [slice_after h (fun d hd => ?_) (fun d hd => ?_) hwide hlen, hself, splice, splice, drop_take,
    Bytes.slice, Bytes.slice, Nat.sub_self, Nat.sub_self, List.take_zero, List.take_zero, List.nil_append,
    List.append_nil]
  · rcases hcut d hd with hd | rfl | hd
    · exact .inl hd
    · exact .inr Nat.le.refl
    · exact .inr (by omega)
  · have hledit := (hfollow.mem d (hperm.mem_iff.mpr hd)).2.1
    rcases hcut d hd with hd | rfl | hd
    · exact .inl (by omega)
    · exact .inl Nat.le.refl
    · exact .inr hd

/-! ### Text -/

/-- A pass over a text up to a place between two characters is text. -/
theorem text?_splice (htext : source.text?.isSome = true) {n : Nat} (hn : source.isBoundary n = true) :
    ∀ {edits : List Edit} {cursor : Nat}, source.isBoundary cursor = true → cursor ≤ n →
      Follow source cursor edits → (∀ e ∈ edits, e.stop ≤ n ∧ misfit? source e = none ∧
        e.text.text?.isSome = true) → (splice (source.take n) cursor edits).text?.isSome = true := by
  intro edits cursor hcursor hle hfollow hall
  induction hfollow with
  | nil _ =>
    rw [splice, drop_take]
    exact Bytes.text?_isSome_slice htext hcursor hn hle
  | @cons cursor e rest hstart hforward _ hrest ih =>
    obtain ⟨⟨hstop, hfit, hnew⟩, hall⟩ := List.forall_mem_cons.mp hall
    obtain ⟨-, -, hstartBetween, hstopBetween⟩ := misfit?_eq_none.mp hfit
    have hslice : Bytes.slice (source.take n) cursor e.start = source.slice cursor e.start :=
      slice_take (Nat.le_trans hforward hstop)
    rw [splice, hslice]
    exact Bytes.text?_isSome_append (Bytes.text?_isSome_append
      (Bytes.text?_isSome_slice htext hcursor hstartBetween hstart) hnew) (ih hstopBetween hstop hall)

/-- Texts put into a text give a text. -/
theorem text?_applyAll (h : applyAll source edits = .ok fixed) (htext : source.text?.isSome = true)
    (hnew : ∀ e ∈ edits, e.text.text?.isSome = true) : fixed.text?.isSome = true := by
  obtain ⟨hfollow, hfit, rfl⟩ := applyAll_eq_ok h
  have hwhole := text?_splice htext (Bytes.isBoundary_length source) (Bytes.isBoundary_zero htext)
    (Nat.zero_le _) hfollow fun e he =>
      have he' := (inOrder_perm edits).mem_iff.mp he
      ⟨(hfollow.mem e he).2.2, hfit e he', hnew e he'⟩
  rwa [List.take_length] at hwhole

/-- What lies between two offsets, behind the last edit there, is still the end of it. -/
theorem slice_after_tail {m : Nat} (h : applyAll source edits = .ok fixed)
    (htext : source.text?.isSome = true) (hnew : ∀ e ∈ edits, e.text.text?.isSome = true)
    (ha : Cut edits a) (hlast : ∀ e ∈ edits, e.stop ≤ m ∨ b ≤ e.start) (ham : a ≤ m) (hmb : m ≤ b)
    (hab : a < b) (hlen : b ≤ source.length) (hstart : source.isBoundary a = true)
    (hmiddle : source.isBoundary m = true) :
    ∃ front : String, fixed.slice (startAfter edits a) (stopAfter edits b) =
      Bytes.ofText front ++ source.slice m b := by
  obtain ⟨hfollow, hfit, -⟩ := applyAll_eq_ok h
  have hperm := inOrder_perm edits
  have hinside : ∀ e ∈ between edits a b, e ∈ edits ∧ a ≤ e.start ∧ e.start ≤ e.stop ∧ e.stop ≤ m := by
    intro e he
    obtain ⟨hmem, hp⟩ := List.mem_filter.mp he
    simp only [Bool.and_eq_true, Bool.not_eq_true', decide_eq_false_iff_not, decide_eq_true_eq] at hp
    have hle := (hfollow.mem e hmem).2.1
    have hmem := hperm.mem_iff.mp hmem
    have hcut := ha e hmem
    have hlast := hlast e hmem
    exact ⟨hmem, by omega, hle, by omega⟩
  have hsplit : splice (source.take b) a (between edits a b) =
      splice (source.take m) a (between edits a b) ++ source.slice m b := by
    have happend : splice (source.take b) a (between edits a b ++ []) = _ :=
      splice_append ham (fun e he => (hinside e he).2.2) (by simp)
    rwa [List.append_nil, splice.eq_1, drop_take, List.take_take, Nat.min_eq_left hmb] at happend
  have hpair : Follow source a (between edits a b) := by
    refine (hfollow.sublist List.filter_sublist).advance (by omega) fun e he => (hinside e he).2.1
  obtain ⟨front, hfront⟩ := Option.isSome_iff_exists.mp (text?_splice htext hmiddle hstart ham hpair
    fun e he => ⟨(hinside e he).2.2.2, hfit e (hinside e he).1, hnew e (hinside e he).1⟩)
  refine ⟨front, ?_⟩
  rw [slice_after h ha (fun e he => ?_) hab hlen, hsplit, Bytes.text?_eq_some.mp hfront]
  have hlast := hlast e he
  omega

/-! ### Insertions -/

/-- New text in front of all other edits stands behind what was in front of it. -/
theorem applyAll_insert {i : Nat} {text : Bytes} (h : applyAll source (.insert i text :: edits) = .ok fixed)
    (hbehind : ∀ e ∈ edits, i ≤ e.start ∧ e.start < e.stop) :
    ∃ rest, fixed = source.take i ++ (text ++ rest) := by
  obtain ⟨-, hfit, -⟩ := applyAll_eq_ok h
  have hi : i ≤ source.length := (misfit?_eq_none.mp (hfit _ List.mem_cons_self)).2.1
  have hcut : Cut (.insert i text :: edits) i := by
    refine List.forall_mem_cons.mpr ⟨.inl Nat.le.refl, fun e he => .inr (hbehind e he).1⟩
  obtain ⟨hfixed, -⟩ := cut_start h hi hcut
  have hnone : edits.filter (·.stop ≤ i) = [] := by
    refine List.filter_eq_nil_iff.mpr fun e he => ?_
    have hbehind := hbehind e he
    simp only [decide_eq_true_eq]
    omega
  have hself : (inOrder (.insert i text :: edits)).filter (·.stop ≤ i) = [.insert i text] := by
    have hperm := (inOrder_perm (.insert i text :: edits)).filter (·.stop ≤ i)
    rw [List.filter_cons_of_pos (by simp [insert]), hnone] at hperm
    exact List.perm_singleton.mp hperm
  rw [hself, splice, splice, insert, drop_take, slice_take Nat.le.refl] at hfixed
  generalize splice source i _ = rest at hfixed
  refine ⟨rest, ?_⟩
  rw [hfixed, Bytes.slice, Bytes.slice, Nat.sub_self, List.take_zero, List.append_nil, List.drop_zero,
    Nat.sub_zero, List.append_assoc]

end Carried

end Edit

end LogHygiene
