import LogHygiene.Path
import Mathlib.Data.List.Basic

/-!
# Texts of paths

A path is cut at its slashes, and of the parts only some mean anything. Putting texts together with slashes puts
their parts together (`parts_append_slash`, `parts_intercalate`), so that

> **the components of a joined path are those of the directory and, behind them, those of the path**
> (`components_join`),

as long as the path is not absolute by itself.
-/

set_option autoImplicit false

namespace LogHygiene.Path

/-! ## Parts -/

theorem parts_append_slash (a b : String) : parts (a ++ "/" ++ b) = parts a ++ parts b := by
  have hsplit : (a ++ "/" ++ b).toList = a.toList ++ '/' :: b.toList := by simp
  rw [parts, hsplit, List.splitOn_append_cons_self, List.map_append, parts, parts]

theorem parts_of_plain {name : String} (h : '/' ∉ name.toList) : parts name = [name] := by
  rw [parts, List.splitOn_eq_singleton h, List.map_singleton, String.ofList_toList]

theorem slash_not_mem_parts (path : String) : ∀ part ∈ parts path, '/' ∉ part.toList := by
  have hmem : ∀ (cs : List Char), ∀ part ∈ cs.splitOn '/', '/' ∉ part := by
    intro cs
    induction cs with
    | nil => simp
    | cons c cs ih =>
      intro part hpart
      rw [List.splitOn_cons_eq_if_modifyHead] at hpart
      split at hpart
      · rcases List.mem_cons.mp hpart with rfl | hpart
        · simp
        · exact ih part hpart
      · rename_i hc
        cases hsplit : cs.splitOn '/' with
        | nil => exact absurd hsplit (by simp)
        | cons first rest =>
          rw [hsplit] at hpart ih
          rcases List.mem_cons.mp hpart with rfl | hpart
          · intro hslash
            rcases List.mem_cons.mp hslash with rfl | hslash
            · exact hc (by simp)
            · exact ih first (by simp) hslash
          · exact ih part (by simp [hpart])
  intro part hpart
  obtain ⟨cs, hcs, rfl⟩ := List.mem_map.mp hpart
  rw [String.toList_ofList]
  exact hmem _ cs hcs

/-- Parts that are put together with slashes are cut apart again. -/
theorem parts_intercalate {ps : List String} (hne : ps ≠ []) (h : ∀ p ∈ ps, '/' ∉ p.toList) :
    parts ("/".intercalate ps) = ps := by
  have hsplit : (['/'].intercalate (ps.map String.toList)).splitOn '/' = ps.map String.toList := by
    refine List.splitOn_intercalate '/' (fun cs hcs => ?_) (by simpa using hne)
    obtain ⟨p, hp, rfl⟩ := List.mem_map.mp hcs
    exact h p hp
  rw [parts, String.toList_intercalate, show "/".toList = ['/'] from rfl, hsplit, List.map_map]
  simp

/-- A text without a slash goes onto the last part. -/
theorem parts_append_plain (path : String) {more : String} (h : '/' ∉ more.toList) :
    ∃ front last, parts path = front ++ [last] ∧ parts (path ++ more) = front ++ [last ++ more] := by
  have hend : ∀ (front : List (List Char)) (last : List Char),
      ['/'].intercalate (front ++ [last ++ more.toList]) = ['/'].intercalate (front ++ [last]) ++ more.toList := by
    intro front last
    induction front with
    | nil => simp
    | cons cs front ih =>
      obtain ⟨first, rest, hrest⟩ := List.exists_cons_of_ne_nil (l := front ++ [last]) (by simp)
      obtain ⟨first', rest', hrest'⟩ := List.exists_cons_of_ne_nil (l := front ++ [last ++ more.toList]) (by simp)
      rw [List.cons_append, List.cons_append, hrest, hrest', List.intercalate_cons_cons, List.intercalate_cons_cons,
        ← hrest, ← hrest', ih]
      simp only [List.append_assoc]
  obtain ⟨front, last, hsplit⟩ : ∃ front last, path.toList.splitOn '/' = front ++ [last] :=
    ⟨_, _, (List.dropLast_append_getLast (List.splitOn_ne_nil '/' path.toList)).symm⟩
  refine ⟨front.map String.ofList, String.ofList last, by rw [parts, hsplit, List.map_append]; rfl, ?_⟩
  have hplain : ∀ part ∈ front ++ [last], '/' ∉ part := by
    intro part hpart
    have hmem : String.ofList part ∈ parts path := List.mem_map_of_mem (hsplit ▸ hpart)
    simpa using slash_not_mem_parts path _ hmem
  have hwhole := hend front last
  rw [← hsplit, List.intercalate_splitOn, ← String.toList_append] at hwhole
  rw [parts, ← hwhole, List.splitOn_intercalate '/' (fun part hpart => ?_) (by simp), List.map_append, List.map_singleton,
    String.ofList_append, String.ofList_toList]
  rcases List.mem_append.mp hpart with hfront | hlast
  · exact hplain part (List.mem_append_left _ hfront)
  · rw [List.mem_singleton.mp hlast, List.mem_append]
    exact not_or.mpr ⟨hplain last (by simp), h⟩

/-- What stands between the slashes stands in a part. -/
theorem mem_iff_mem_parts {path : String} {c : Char} (hc : c ≠ '/') :
    c ∈ path.toList ↔ ∃ part ∈ parts path, c ∈ part.toList := by
  have hmem : ∀ l : List (List Char), c ∈ ['/'].intercalate l ↔ ∃ cs ∈ l, c ∈ cs := by
    intro l
    induction l with
    | nil => simp
    | cons a l ih =>
      cases l with
      | nil => simp
      | cons b l =>
        rw [List.intercalate_cons_cons, List.mem_append, ih, List.mem_append]
        simp [hc]
  have hwhole := hmem (path.toList.splitOn '/')
  rw [List.intercalate_splitOn] at hwhole
  rw [hwhole]
  simp [parts]

/-! ## Absolute paths -/

theorem isAbsolute_append {a b : String} (ha : a ≠ "") : isAbsolute (a ++ b) = isAbsolute a := by
  have hne : a.toList ≠ [] := fun h => ha (String.toList_eq_nil_iff.mp h)
  rw [isAbsolute, isAbsolute, String.toList_append, List.head?_append_of_ne_nil _ hne]

theorem isAbsolute_of_plain {name : String} (h : '/' ∉ name.toList) : isAbsolute name = false := by
  refine beq_false_of_ne fun hhead => h ?_
  exact List.mem_of_mem_head? hhead

theorem components_of_isAbsolute {path : String} (h : isAbsolute path = true) :
    components path = .root :: (parts path).filterMap component? := by
  rw [components, if_pos h]

/-- A part that does not come first is a step up or a name. -/
theorem component?_eq_some {part : String} {c : Component} (h : component? part = some c) :
    c = .parent ∨ c = .named part := by
  unfold component? at h
  split at h
  · exact absurd h (by simp)
  · split at h
    · exact .inl (Option.some.inj h).symm
    · exact .inr (Option.some.inj h).symm

theorem isAbsolute_of_head_components {path : String} (h : (components path).head? = some .root) :
    isAbsolute path = true := by
  by_contra hnot
  have hmem : ∀ c ∈ (parts path).filterMap component?, c ≠ .root := by
    intro c hc
    obtain ⟨part, -, hpart⟩ := List.mem_filterMap.mp hc
    rcases component?_eq_some hpart with rfl | rfl
    · simp
    · simp
  rw [components, if_neg hnot] at h
  split at h
  · exact absurd h (by simp)
  · exact hmem _ (List.mem_of_mem_head? h) rfl

/-- The first part of a path decides whether it is absolute. -/
theorem isAbsolute_intercalate {p : String} {ps : List String} (hne : p ≠ "") (h : '/' ∉ p.toList) :
    isAbsolute ("/".intercalate (p :: ps)) = false := by
  cases ps with
  | nil => simpa using isAbsolute_of_plain h
  | cons q ps =>
    rw [String.intercalate_cons_cons, String.append_assoc, isAbsolute_append hne]
    exact isAbsolute_of_plain h

/-! ## Joined paths -/

/-- How a path to a directory and a path seen from there are written as one. -/
theorem join_relative (dir : String) {path : String} (hpath : isAbsolute path = false) :
    (∃ between, join dir path = dir ++ between ++ path ∧ between.utf8ByteSize ≤ 1 ∧
      '\x00' ∉ between.toList) ∧
    isAbsolute (join dir path) = isAbsolute dir ∧
    ∃ ps tail, (tail = [] ∨ tail = [""]) ∧ parts dir = ps ++ tail ∧ parts (join dir path) = ps ++ parts path := by
  by_cases hempty : dir = ""
  · subst hempty
    have hjoin : join "" path = path := by simp [join]
    rw [hjoin]
    exact ⟨⟨"", by simp, by decide, by decide⟩, hpath.trans (by decide), [], [""], .inr rfl, by decide, rfl⟩
  · by_cases hslash : dir.toList.getLast? = some '/'
    · have hjoin : join dir path = dir ++ path := by simp [join, hpath, hempty, hslash]
      obtain ⟨front, hfront⟩ : ∃ front : String, dir = front ++ "/" := by
        refine ⟨String.ofList dir.toList.dropLast, String.toList_injective ?_⟩
        rw [String.toList_append, String.toList_ofList]
        exact (List.dropLast_append_getLast? _ hslash).symm
      rw [hjoin, isAbsolute_append hempty, hfront, parts_append_slash]
      refine ⟨⟨"", by simp, by decide, by decide⟩, rfl, parts front, [""], .inr rfl, ?_, rfl⟩
      have hend : parts "" = [""] := parts_of_plain (by decide)
      simpa [hend] using parts_append_slash front ""
    · have hjoin : join dir path = dir ++ "/" ++ path := by simp [join, hpath, hempty, hslash]
      rw [hjoin, parts_append_slash, String.append_assoc, isAbsolute_append hempty]
      exact ⟨⟨"/", by rw [String.append_assoc], by decide, by decide⟩, rfl, parts dir, [], .inl rfl, by simp, rfl⟩

/-- How a path to a directory and the path to a file in it are written. -/
theorem join_cases (dir : String) {name : String} (hname : '/' ∉ name.toList) :
    (∃ between, join dir name = dir ++ between ++ name ∧ between.utf8ByteSize ≤ 1 ∧
      '\x00' ∉ between.toList) ∧
    isAbsolute (join dir name) = isAbsolute dir ∧
    ∃ ps tail, (tail = [] ∨ tail = [""]) ∧ parts dir = ps ++ tail ∧ parts (join dir name) = ps ++ [name] := by
  rw [← parts_of_plain hname]
  exact join_relative dir (isAbsolute_of_plain hname)

/-- **A path seen from an absolute directory goes on where the directory ends.** -/
theorem components_join {dir path : String} (hdir : isAbsolute dir = true) (hpath : isAbsolute path = false) :
    components (join dir path) = components dir ++ (parts path).filterMap component? := by
  obtain ⟨-, habs, ps, tail, htail, hparts, hjoin⟩ := join_relative dir hpath
  rw [components_of_isAbsolute (habs.trans hdir), components_of_isAbsolute hdir, hjoin, hparts]
  -- what may follow the last slash of the directory is no component
  have hhollow : tail.filterMap component? = [] := by
    rcases htail with rfl | rfl
    · rfl
    · rfl
  rw [List.filterMap_append, List.filterMap_append, hhollow, List.append_nil, List.cons_append]

theorem join_of_isAbsolute (dir : String) {path : String} (h : isAbsolute path = true) : join dir path = path := by
  rw [join, h, Bool.true_or, if_pos rfl]

end LogHygiene.Path
