import LogHygiene.Cache.Entry
import LogHygiene.Proofs.Rows
import Mathlib.Data.String.Basic

/-!
# The index as a map

The index is a row of keys with what is known about their entries. It is looked up and changed like a map
(`get?_insert`, `get?_erase`), whatever the row, and the row stays sorted by key (`Sorted.insert`,
`Sorted.filter`), so that writing it out and reading it in again gives the same row.
-/

set_option autoImplicit false

namespace LogHygiene.Cache.Index

variable {key : String} {r : IndexRow} {rows : List (String × IndexRow)}

/-! ## As a map -/

theorem lookup_insertRow (key : String) (r : IndexRow) (k : String) :
    ∀ rows : List (String × IndexRow),
      (insertRow key r rows).lookup k = if k = key then some r else rows.lookup k
  | [] => by
    by_cases hk : k = key
    · simp [insertRow, hk]
    · simp [insertRow, List.lookup_cons, hk, beq_false_of_ne hk]
  | (l, s) :: rest => by
    have ih := lookup_insertRow key r k rest
    unfold insertRow
    split
    · by_cases hk : k = key
      · simp [hk]
      · simp [List.lookup_cons, hk, beq_false_of_ne hk]
    · split
      · rename_i heq
        obtain rfl : key = l := by simpa using heq
        by_cases hk : k = key
        · simp [hk]
        · simp [List.lookup_cons, hk, beq_false_of_ne hk]
      · rename_i hne
        have hkl : key ≠ l := by simpa using hne
        rw [List.lookup_cons, List.lookup_cons, ih]
        by_cases hk : k = key
        · subst hk
          simp [beq_false_of_ne hkl]
        · simp [hk]

theorem get?_insert (i : Index) (key : String) (r : IndexRow) (k : String) :
    (i.insert key r).get? k = if k = key then some r else i.get? k :=
  lookup_insertRow key r k i.rows

theorem get?_erase (i : Index) (key k : String) :
    (i.erase key).get? k = if k = key then none else i.get? k :=
  lookup_filter_ne key k i.rows

theorem mem_of_get? {i : Index} {k : String} (h : i.get? k = some r) : (k, r) ∈ i.rows := mem_of_lookup h

theorem mem_insertRow {x : String × IndexRow} :
    ∀ {rows : List (String × IndexRow)}, x ∈ insertRow key r rows → x = (key, r) ∨ x ∈ rows
  | [], h => .inl (by simpa [insertRow] using h)
  | (l, s) :: rest, h => by
    unfold insertRow at h
    split at h
    · exact List.mem_cons.mp h
    · split at h
      · exact (List.mem_cons.mp h).imp_right (List.mem_cons_of_mem _)
      · rcases List.mem_cons.mp h with rfl | hrest
        · exact .inr List.mem_cons_self
        · exact (mem_insertRow hrest).imp_right (List.mem_cons_of_mem _)

/-! ## As a sorted row -/

/-- The keys stand in order, and none stands twice. -/
def Sorted (i : Index) : Prop := i.rows.Pairwise fun a b => a.1 < b.1

theorem insertRow_of_lt : ∀ {rows : List (String × IndexRow)}, (∀ x ∈ rows, x.1 < key) →
    insertRow key r rows = rows ++ [(key, r)]
  | [], _ => rfl
  | (l, s) :: rest, h => by
    have hl : l < key := h (l, s) (by simp)
    have ih : insertRow key r rest = rest ++ [(key, r)] := insertRow_of_lt fun x hx => h x (by simp [hx])
    simp [insertRow, lt_asymm hl, hl.ne', ih]

theorem sorted_insertRow : ∀ {rows : List (String × IndexRow)},
    rows.Pairwise (fun a b => a.1 < b.1) → (insertRow key r rows).Pairwise (fun a b => a.1 < b.1)
  | [], _ => by simp [insertRow]
  | (l, s) :: rest, h => by
    obtain ⟨hl, hrest⟩ := List.pairwise_cons.mp h
    unfold insertRow
    split
    · rename_i hlt
      refine List.pairwise_cons.mpr ⟨fun x hx => ?_, h⟩
      rcases List.mem_cons.mp hx with rfl | hx
      · exact hlt
      · exact lt_trans hlt (hl x hx)
    · split
      · rename_i heq
        obtain rfl : key = l := by simpa using heq
        exact List.pairwise_cons.mpr ⟨hl, hrest⟩
      · rename_i hle hne
        refine List.pairwise_cons.mpr ⟨fun x hx => ?_, sorted_insertRow hrest⟩
        rcases mem_insertRow hx with rfl | hx
        · exact lt_of_le_of_ne (not_lt.mp hle) fun heq : l = key => hne (by simp [heq])
        · exact hl x hx

/-- Putting a row into a sorted index is putting it in front and taking the old one away, but for the order. -/
theorem perm_insertRow : ∀ {rows : List (String × IndexRow)}, rows.Pairwise (fun a b => a.1 < b.1) →
    (insertRow key r rows).Perm ((key, r) :: rows.filter (·.1 != key))
  | [], _ => by simp [insertRow]
  | (l, s) :: rest, h => by
    obtain ⟨hl, hrest⟩ := List.pairwise_cons.mp h
    have hkeep : ∀ {rows : List (String × IndexRow)}, (∀ x ∈ rows, x.1 ≠ key) →
        rows.filter (·.1 != key) = rows := fun hne => List.filter_eq_self.mpr (by simpa using hne)
    unfold insertRow
    split
    · rename_i hlt
      rw [hkeep fun x hx => ?_]
      rcases List.mem_cons.mp hx with rfl | hx
      · exact hlt.ne'
      · exact (lt_trans hlt (hl x hx)).ne'
    · split
      · rename_i heq
        obtain rfl : key = l := by simpa using heq
        rw [List.filter_cons_of_neg (by simp), hkeep fun x hx => (hl x hx).ne']
      · rename_i hne
        rw [List.filter_cons_of_pos (by simpa using fun heq : l = key => hne (by simp [heq]))]
        exact ((perm_insertRow hrest).cons _).trans (List.Perm.swap _ _ _)

theorem Sorted.nodup {i : Index} (h : i.Sorted) : (i.rows.map Prod.fst).Nodup :=
  List.pairwise_map.mpr (h.imp fun hlt => hlt.ne)

theorem Sorted.insert {i : Index} (h : i.Sorted) (key : String) (r : IndexRow) : (i.insert key r).Sorted :=
  sorted_insertRow h

theorem Sorted.filter {i : Index} (h : i.Sorted) (p : String × IndexRow → Bool) :
    Sorted ⟨i.rows.filter p⟩ := List.Pairwise.filter p h

theorem Sorted.erase {i : Index} (h : i.Sorted) (key : String) : (i.erase key).Sorted := h.filter _

end LogHygiene.Cache.Index
