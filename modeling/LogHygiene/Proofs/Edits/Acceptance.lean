import LogHygiene.Proofs.Edits.Layout

/-!
# Which edits are carried out, and what the order of the list decides

Edits are looked at twice before any is carried out: each one against the text, then each one against its
neighbour in the sorted row. What is refused, and with which fault, is settled there, and what is accepted
can be copied without a further look.

> **edits are carried out exactly if each of them fits the text and no two of them touch the same bytes**;
> what does not fit is named before what overlaps, and nothing is cut where a text cannot be cut
> (`applyAll_iff_apart`).

Both looks see where an edit starts and where it stops, and nothing else (`fault?_emptied`). Two lists of the
same edits lead to rows that agree in that, whatever the order of the lists, so they are refused with one
fault. Accepted edits at one offset are insertions in front of at most one other, so only the order of the
insertions can be seen in the result.

> **the order of the edits decides nothing but the order of what is inserted at one place**
> (`applyAll_perm`).
-/

set_option autoImplicit false

namespace LogHygiene

namespace Edit

variable {source : Bytes} {edits row others : List Edit} {fault : EditFault}

/-! ## Faults -/

/-- Neighbours that overlap. -/
theorem overlap?_eq_some (h : overlap? row = some fault) :
    ∃ a b, [a, b].Sublist row ∧ b.start < a.stop ∧ fault = .overlap a.stop b.start := by
  induction row with
  | nil => exact absurd h (by simp [overlap?])
  | cons a rest ih =>
    cases rest with
    | nil => exact absurd h (by simp [overlap?])
    | cons b more =>
      rw [overlap?] at h
      split at h
      · rename_i hlt
        exact ⟨a, b, ((List.nil_sublist more).cons_cons b).cons_cons a, hlt, (Option.some.inj h).symm⟩
      · obtain ⟨c, d, hsub, hlt, hfault⟩ := ih h
        exact ⟨c, d, hsub.cons a, hlt, hfault⟩

/-- In a row in order, an edit that starts inside an earlier one touches its bytes. -/
theorem not_apart_of_lt {a b : Edit} (hbefore : before a b = true) (hforward : b.start ≤ b.stop)
    (hlt : b.start < a.stop) : ¬ Apart a b := by
  rw [before_iff] at hbefore
  unfold Apart
  omega

/-- Why edits are refused: one of them does not fit, or all fit and two touch the same bytes. -/
theorem error_cases (h : applyAll source edits = .error fault) :
    (∃ e ∈ edits, misfit? source e = some fault) ∨
      (∀ e ∈ edits, e.Fits source) ∧
        ∃ a b, [a, b].Subperm edits ∧ ¬ Apart a b ∧ fault = .overlap a.stop b.start := by
  have hperm := inOrder_perm edits
  have hfault : fault? source (inOrder edits) = some fault := by
    unfold applyAll at h
    dsimp only at h
    split at h
    · rename_i f hf
      rw [hf, Except.error.inj h]
    · exact absurd h (by simp)
  rcases Option.or_eq_some_iff.mp hfault with hmisfit | ⟨hfit, hoverlap⟩
  · obtain ⟨e, he, hmisfit⟩ := List.exists_of_findSome?_eq_some hmisfit
    exact .inl ⟨e, hperm.mem_iff.mp he, hmisfit⟩
  · have hall : ∀ e ∈ inOrder edits, e.Fits source :=
      fun e he => misfit?_eq_none_iff.mp (List.findSome?_eq_none_iff.mp hfit e he)
    obtain ⟨a, b, hsub, hlt, hfault⟩ := overlap?_eq_some hoverlap
    have hbefore : before a b = true :=
      (List.pairwise_cons.mp ((inOrder_sorted edits).sublist hsub)).1 b List.mem_cons_self
    have hforward := (hall b (hsub.mem (List.mem_cons_of_mem _ List.mem_cons_self))).forward
    exact .inr ⟨fun e he => hall e (hperm.mem_iff.mpr he), a, b, hsub.subperm.trans hperm.subperm,
      not_apart_of_lt hbefore hforward hlt, hfault⟩

/-! ## No cut fails -/

/-- Carrying out edits with cuts that fail where a text cannot be cut. -/
def applyCutting? (source : Bytes) (edits : List Edit) : Option (Except EditFault Bytes) :=
  let ordered := inOrder edits
  match fault? source ordered with
  | some f => some (.error f)
  | none => (spliceCutting? source 0 ordered).map .ok

/-- What is carried out on a text needs no cut that the text does not allow. -/
theorem applyCutting?_eq (htext : source.text?.isSome = true) (edits : List Edit) :
    applyCutting? source edits = some (applyAll source edits) := by
  unfold applyCutting? applyAll
  dsimp only
  cases hfault : fault? source (inOrder edits) with
  | some f => rfl
  | none =>
    obtain ⟨hfit, hoverlap⟩ := fault?_eq_none_iff.mp hfault
    have hfollow : Follow source 0 (inOrder edits) := follow_of_overlap? (Nat.zero_le _)
      (fun _ _ => Nat.zero_le _) (fun e he => misfit?_eq_none_iff.mpr (hfit e he)) hoverlap
    dsimp only
    rw [spliceCutting?_eq hfollow (Bytes.isBoundary_zero htext) hfit, Option.map_some]

/-- **Edits are carried out exactly if each fits the text and no two touch the same bytes.** The result is
then what carrying them out one at a time from the back leaves, and what is laid out offset by offset: the
insertions at an offset in the order of the list, then what replaces a stretch from there, then the byte
unless it is taken out. A fault of one edit is named before any overlap, and no cut ever fails. -/
theorem applyAll_iff_apart (text : String) (edits : List Edit) :
    let source := Bytes.ofText text
    ((∃ fixed, applyAll source edits = .ok fixed) ↔
      (∀ e ∈ edits, e.Fits source) ∧ edits.Pairwise Apart) ∧
    (∀ fixed, applyAll source edits = .ok fixed →
      fixed = spliceFromBack source (inOrder edits) ∧ fixed = layOut source edits) ∧
    (∀ fault, applyAll source edits = .error fault →
      (∃ e ∈ edits, misfit? source e = some fault) ∨
      (∀ e ∈ edits, e.Fits source) ∧
        ∃ a b, [a, b].Subperm edits ∧ ¬ Apart a b ∧ fault = .overlap a.stop b.start) ∧
    applyCutting? source edits = some (applyAll source edits) := by
  intro source
  have htext : source.text?.isSome = true := by rw [Bytes.text?_ofText]; rfl
  refine ⟨accepted_iff, fun fixed h => ⟨?_, eq_layOut h⟩, fun fault h => error_cases h,
    applyCutting?_eq htext edits⟩
  obtain ⟨hfollow, -, hfixed⟩ := applyAll_eq_ok h
  rw [spliceFromBack_eq hfollow, List.take_zero, List.nil_append, hfixed]

/-! ## Another order of the list -/

/-- The edit that takes out the same bytes and puts nothing in. -/
def emptied (e : Edit) : Edit := { e with text := [] }

theorem overlap?_emptied : ∀ row : List Edit, overlap? (row.map emptied) = overlap? row
  | [] => rfl
  | [_] => rfl
  | a :: b :: rest => by
    have ih := overlap?_emptied (b :: rest)
    rw [List.map_cons, List.map_cons, overlap?, overlap?]
    rw [List.map_cons] at ih
    rw [ih]
    rfl

/-- Whether edits are refused, and why, depends on where they start and stop. -/
theorem fault?_emptied (source : Bytes) (row : List Edit) :
    fault? source (row.map emptied) = fault? source row := by
  rw [fault?, fault?, overlap?_emptied, List.findSome?_map]
  rfl

/-- In two lists of the same edits the same places come one after the other. -/
theorem inOrder_emptied_perm (h : edits.Perm others) :
    (inOrder edits).map emptied = (inOrder others).map emptied := by
  have hsorted : ∀ row : List Edit, ((inOrder row).map emptied).Pairwise fun a b => before a b = true :=
    fun row => List.pairwise_map.mpr (inOrder_sorted row)
  have hperm := (((inOrder_perm edits).trans h).trans (inOrder_perm others).symm).map emptied
  refine hperm.eq_of_pairwise (fun a b ha hb hab hba => ?_) (hsorted edits) (hsorted others)
  obtain ⟨a, -, rfl⟩ := List.mem_map.mp ha
  obtain ⟨b, -, rfl⟩ := List.mem_map.mp hb
  rw [before_iff] at hab hba
  simp only [emptied, Edit.mk.injEq, and_true] at hab hba ⊢
  omega

theorem fault?_perm (source : Bytes) (h : edits.Perm others) :
    fault? source (inOrder edits) = fault? source (inOrder others) := by
  rw [← fault?_emptied source (inOrder edits), inOrder_emptied_perm h, fault?_emptied]

/-- **The order of the edits decides nothing but the order of what is inserted at one place**: another order
is refused with the same fault or accepted as well, and if the insertions at each offset come in the same
order, the results are the same. -/
theorem applyAll_perm (source : Bytes) (h : edits.Perm others) :
    ((∃ fault, applyAll source edits = .error fault ∧ applyAll source others = .error fault) ∨
      ∃ fixed fixed', applyAll source edits = .ok fixed ∧ applyAll source others = .ok fixed') ∧
    ((∀ n, edits.filter (insertsAt n) = others.filter (insertsAt n)) →
      applyAll source edits = applyAll source others) := by
  have hsame := fault?_perm source h
  cases hfault : fault? source (inOrder edits) with
  | some f =>
    have hedits : applyAll source edits = .error f := by simp only [applyAll, hfault]
    have hothers : applyAll source others = .error f := by simp only [applyAll, ← hsame, hfault]
    exact ⟨.inl ⟨f, hedits, hothers⟩, fun _ => hedits.trans hothers.symm⟩
  | none =>
    have hedits : applyAll source edits = .ok (splice source 0 (inOrder edits)) := by
      simp only [applyAll, hfault]
    have hothers : applyAll source others = .ok (splice source 0 (inOrder others)) := by
      simp only [applyAll, ← hsame, hfault]
    refine ⟨.inr ⟨_, _, hedits, hothers⟩, fun hinserted => ?_⟩
    have hapart := (accepted_iff.mp ⟨_, hedits⟩).2
    rw [hedits, hothers, eq_layOut hedits, eq_layOut hothers, layOut_perm h hapart hinserted]

/-- A replacement is named last or first, behind or in front of two insertions at the place it starts. -/
theorem applyAll_perm_twoInsertions :
    let first := insert 0 (Bytes.ofText "a")
    let second := insert 0 (Bytes.ofText "b")
    let replacement : Edit := ⟨0, 1, Bytes.ofText "c"⟩
    [first, second, replacement].Perm [replacement, first, second] ∧
      (∀ n, [first, second, replacement].filter (insertsAt n) = [replacement, first, second].filter (insertsAt n)) ∧
      applyAll (Bytes.ofText "xy") [first, second, replacement] =
        applyAll (Bytes.ofText "xy") [replacement, first, second] ∧
      applyAll (Bytes.ofText "xy") [replacement, first, second] = .ok (Bytes.ofText "abcy") := by
  intro first second replacement
  have hperm : [first, second, replacement].Perm [replacement, first, second] :=
    show ([first, second] ++ [replacement]).Perm ([replacement] ++ [first, second]) from List.perm_append_comm
  have hinserted : ∀ n, [first, second, replacement].filter (insertsAt n) =
      [replacement, first, second].filter (insertsAt n) := by
    intro n
    cases n <;> rfl
  have hsame := (applyAll_perm (Bytes.ofText "xy") hperm).2 hinserted
  have hsorted : [first, second, replacement].Pairwise fun a b => before a b = true := by decide
  have hresult : applyAll (Bytes.ofText "xy") [first, second, replacement] = .ok (Bytes.ofText "abcy") := by
    simp only [applyAll, inOrder, List.mergeSort_of_pairwise hsorted]
    decide +kernel
  exact ⟨hperm, hinserted, hsame, hsame.symm.trans hresult⟩

end Edit

end LogHygiene
