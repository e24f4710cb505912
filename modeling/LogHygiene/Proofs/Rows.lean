import Mathlib.Data.List.Nodup

/-!
# Rows as maps

Much that is looked up here is a row of pairs, of which the first with a key counts: the levels of calls,
the nodes of a disk, the index and the memory of a store. What is found is in the row (`mem_of_lookup`), what is in
a row without double keys is found (`lookup_of_mem`), and taking a key out of a row or putting one in touches no other
key (`lookup_filter_ne`, `lookup_replace`).
-/

set_option autoImplicit false

namespace LogHygiene

theorem mem_of_lookup {α β : Type} [BEq α] [LawfulBEq α] {a : α} {b : β} :
    ∀ {rows : List (α × β)}, rows.lookup a = some b → (a, b) ∈ rows
  | [], h => absurd h (by simp)
  | (a', b') :: rows, h => by
    rw [List.lookup_cons] at h
    split at h
    · rename_i heq
      obtain rfl := eq_of_beq heq
      obtain rfl := Option.some.inj h
      exact List.mem_cons_self
    · exact List.mem_cons_of_mem _ (mem_of_lookup h)

/-- Where no key stands twice, what is in the row is found. -/
theorem lookup_of_mem {α β : Type} [BEq α] [LawfulBEq α] {a : α} {b : β} :
    ∀ {rows : List (α × β)}, (rows.map Prod.fst).Nodup → (a, b) ∈ rows → rows.lookup a = some b
  | (a', b') :: rows, hnodup, h => by
    obtain ⟨hfresh, hnodup⟩ := List.nodup_cons.mp hnodup
    rcases List.mem_cons.mp h with heq | hrest
    · cases heq
      simp
    · have hne : a ≠ a' := by
        rintro rfl
        exact hfresh (List.mem_map.mpr ⟨_, hrest, rfl⟩)
      rw [List.lookup_cons, beq_false_of_ne hne]
      exact lookup_of_mem hnodup hrest

/-- Where no key stands twice, one row is found. -/
theorem filter_of_lookup {α β : Type} [BEq α] [LawfulBEq α] {a : α} {b : β} :
    ∀ {rows : List (α × β)}, (rows.map Prod.fst).Nodup → rows.lookup a = some b → rows.filter (·.1 == a) = [(a, b)]
  | (a', b') :: rows, hnodup, h => by
    obtain ⟨hfresh, hnodup⟩ := List.nodup_cons.mp hnodup
    rw [List.lookup_cons] at h
    split at h
    · rename_i heq
      obtain rfl := eq_of_beq heq
      obtain rfl := Option.some.inj h
      have hnone : rows.filter (·.1 == a) = [] := List.filter_eq_nil_iff.mpr fun x hx hxa =>
        hfresh (List.mem_map.mpr ⟨x, hx, eq_of_beq hxa⟩)
      simp [hnone]
    · rename_i hne
      have hother : (a' == a) = false := Bool.eq_false_iff.mpr fun heq => by simp [eq_of_beq heq] at hne
      simpa [hother] using filter_of_lookup hnodup h

/-- Only keys that are kept are found. -/
theorem lookup_filter {α β : Type} [BEq α] [LawfulBEq α] (keep : α → Bool) (q : α) :
    ∀ rows : List (α × β), (rows.filter fun x => keep x.1).lookup q = if keep q then rows.lookup q else none
  | [] => by simp
  | (r, n) :: rest => by
    have ih := lookup_filter keep q rest
    by_cases hq : q = r
    · subst hq
      cases hkeep : keep q with
      | true => simp [hkeep]
      | false => simpa [hkeep] using ih
    · cases hkeep : keep r with
      | true => simpa [hkeep, List.lookup_cons, beq_false_of_ne hq] using ih
      | false => simpa [hkeep, List.lookup_cons, beq_false_of_ne hq] using ih

theorem lookup_map {α β γ : Type} [BEq α] (f : β → γ) (a : α) : ∀ rows : List (α × β),
    (rows.map fun x => (x.1, f x.2)).lookup a = (rows.lookup a).map f
  | [] => rfl
  | (a', b) :: rest => by
    rw [List.map_cons, List.lookup_cons, List.lookup_cons, lookup_map f a rest]
    cases a == a' <;> rfl

/-- A row without a key is not found under that key, and under others as before. -/
theorem lookup_filter_ne {α β : Type} [DecidableEq α] [BEq α] [LawfulBEq α] (p q : α)
    (rows : List (α × β)) :
    (rows.filter (·.1 != p)).lookup q = if q = p then none else rows.lookup q := by
  rw [lookup_filter (· != p)]
  by_cases hq : q = p <;> simp [hq]

/-- What is put in under a key is found under it, and under other keys what was found before. -/
theorem lookup_replace {α β : Type} [DecidableEq α] [BEq α] [LawfulBEq α] (p q : α) (x : β)
    (rows : List (α × β)) :
    ((p, x) :: rows.filter (·.1 != p)).lookup q = if q = p then some x else rows.lookup q := by
  rw [List.lookup_cons, lookup_filter_ne]
  by_cases hq : q = p
  · simp [hq]
  · rw [beq_false_of_ne hq, if_neg hq, if_neg hq]

end LogHygiene
