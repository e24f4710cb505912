import LogHygiene.Proofs.Paths
import LogHygiene.Selection
import Mathlib.Data.List.Nodup

/-!
# Paths in order

Paths are put in order by their components, not by their characters: `a/b` stands in front of `a.b`, and `a//b`, `a/./b`
and `a/b` are one path. That order is a strict total order of component lists, and everything that is said here about
sorted rows of paths rests on it: a row that increases strictly is determined, up to spelling, by which paths are in it
(`components_eq_of_ascending`).

> **files that are named one by one are listed as a sorted set** (`explicit_sortedSet`).
-/

set_option autoImplicit false

namespace LogHygiene

/-! ## The order of components -/

namespace Component

/-- The place of the kind of a component, and the name that settles the rest. -/
def place : Component → Nat × String
  | root => (0, "")
  | current => (1, "")
  | parent => (2, "")
  | named name => (3, name)

/-- Components are ordered by their kind, and names among themselves. -/
theorem compare_eq_place : Component.compare =
    compareLex (compareOn fun c => c.place.1) (compareOn fun c => c.place.2) := by
  funext a b
  cases a <;> cases b <;> rfl

instance : Std.TransCmp Component.compare := by
  rw [compare_eq_place]
  infer_instance

theorem place_injective {a b : Component} (h : a.place = b.place) : a = b := by
  cases a <;> cases b <;> simp_all [place]

instance : Std.LawfulEqCmp Component.compare where
  eq_of_compare {a b} h := by
    rw [compare_eq_place] at h
    obtain ⟨hkind, hname⟩ := Ordering.then_eq_eq.mp h
    exact place_injective (Prod.ext (Std.LawfulEqCmp.eq_of_compare hkind) (Std.LawfulEqCmp.eq_of_compare hname))

end Component

namespace Path

variable {a b c p q : String} {ps qs : List String}

/-! ## The order of paths -/

theorem compareComponents_eq : compareComponents = List.compareLex Component.compare := by
  funext as bs
  induction as generalizing bs with
  | nil => cases bs <;> rfl
  | cons a as ih =>
    cases bs with
    | nil => rfl
    | cons b bs => rw [compareComponents, List.compareLex_cons_cons, ih]

instance : Std.TransCmp compareComponents := by
  rw [compareComponents_eq]
  infer_instance

instance : Std.LawfulEqCmp compareComponents := by
  rw [compareComponents_eq]
  infer_instance

instance : Std.TransCmp Path.compare where
  eq_swap {a b} := @Std.OrientedCmp.eq_swap _ compareComponents _ (components a) (components b)
  isLE_trans {a b c} := @Std.TransCmp.isLE_trans _ compareComponents _ (components a) (components b) (components c)

/-- One path stands in front of another. -/
def Precedes (a b : String) : Prop := Path.compare a b = .lt

instance (a b : String) : Decidable (Precedes a b) := inferInstanceAs (Decidable (Path.compare a b = .lt))

theorem compare_eq_iff : Path.compare a b = .eq ↔ components a = components b :=
  @Std.LawfulEqCmp.compare_eq_iff_eq _ compareComponents _ _ _

theorem Precedes.trans (hab : Precedes a b) (hbc : Precedes b c) : Precedes a c :=
  Std.TransCmp.lt_trans hab hbc

/-- Of two spellings of one path none stands in front of the other. -/
theorem Precedes.components_ne (h : Precedes a b) : components a ≠ components b := by
  intro heq
  rw [Precedes, compare_eq_iff.mpr heq] at h
  exact absurd h (by decide)

/-- Whether one path stands in front of another does not depend on how they are spelled. -/
theorem Precedes.congr (h : Precedes a b) (ha : components a = components p) (hb : components b = components q) :
    Precedes p q := by
  rw [Precedes, Path.compare, ← ha, ← hb]
  exact h

theorem precedes_of_gt (h : Path.compare a b = .gt) : Precedes b a := Std.OrientedCmp.lt_of_gt h

/-- What stands in front of the first path of a row that increases stands in front of all of them. -/
theorem Precedes.head (h : Precedes p q) (hrest : ∀ b ∈ qs, Precedes q b) : ∀ b ∈ q :: qs, Precedes p b := by
  intro b hb
  rcases List.mem_cons.mp hb with rfl | hb
  · exact h
  · exact h.trans (hrest b hb)

/-- No path is in a row that increases under two spellings. -/
theorem nodup_components (h : ps.Pairwise Precedes) : (ps.map components).Nodup :=
  List.pairwise_map.mpr (h.imp Precedes.components_ne)

/-- **Rows that increase and hold the same paths are the same**, but for the spelling. -/
theorem components_eq_of_ascending (hps : ps.Pairwise Precedes) (hqs : qs.Pairwise Precedes)
    (h : ∀ cs, cs ∈ ps.map components ↔ cs ∈ qs.map components) : ps.map components = qs.map components := by
  have hordered : ∀ {rs : List String}, rs.Pairwise Precedes →
      (rs.map components).Pairwise fun as bs => compareComponents as bs = .lt := fun hrs => List.pairwise_map.mpr hrs
  have hperm : (ps.map components).Perm (qs.map components) :=
    (List.perm_ext_iff_of_nodup (nodup_components hps) (nodup_components hqs)).mpr h
  refine hperm.eq_of_pairwise (fun as bs _ _ hlt hgt => ?_) (hordered hps) (hordered hqs)
  have hback : compareComponents as bs = .gt := Std.OrientedCmp.gt_of_lt hgt
  rw [hlt] at hback
  exact absurd hback (by decide)

end Path

namespace Selection

open LogHygiene.Path

variable {root p q : String} {ps : List String}

/-! ## Insertion -/

theorem mem_of_mem_insertSorted (h : q ∈ insertSorted p ps) : q = p ∨ q ∈ ps := by
  induction ps with
  | nil => exact .inl (List.mem_singleton.mp h)
  | cons first rest ih =>
    rw [insertSorted] at h
    split at h
    · exact List.mem_cons.mp h
    · exact (List.mem_cons.mp h).imp_right (List.mem_cons_of_mem first)
    · rcases List.mem_cons.mp h with rfl | h
      · exact .inr List.mem_cons_self
      · exact (ih h).imp_right (List.mem_cons_of_mem first)

/-- A path that is inserted comes to what is there, and takes the place of another spelling of it. -/
theorem mem_components_insertSorted (p : String) (cs : List Component) : ∀ ps : List String,
    cs ∈ (insertSorted p ps).map components ↔ cs = components p ∨ cs ∈ ps.map components
  | [] => by simp [insertSorted]
  | q :: rest => by
    rw [insertSorted]
    split
    · simp
    · rename_i hsame
      simp [compare_eq_iff.mp hsame]
    · rw [List.map_cons, List.mem_cons, mem_components_insertSorted p cs rest, List.map_cons, List.mem_cons]
      exact or_left_comm

/-- A row that increases still does so after an insertion. -/
theorem ascending_insertSorted (p : String) (h : ps.Pairwise Precedes) : (insertSorted p ps).Pairwise Precedes := by
  induction ps with
  | nil => exact List.pairwise_singleton _ p
  | cons q rest ih =>
    obtain ⟨hfirst, hrest⟩ := List.pairwise_cons.mp h
    rw [insertSorted]
    split
    · rename_i hlt
      exact List.pairwise_cons.mpr ⟨Precedes.head hlt hfirst, h⟩
    · rename_i hsame
      refine List.pairwise_cons.mpr ⟨fun b hb => ?_, hrest⟩
      exact (hfirst b hb).congr (compare_eq_iff.mp hsame).symm rfl
    · rename_i hgt
      refine List.pairwise_cons.mpr ⟨fun b hb => ?_, ih hrest⟩
      rcases mem_of_mem_insertSorted hb with rfl | hb
      · exact precedes_of_gt hgt
      · exact hfirst b hb

/-- What stands behind all paths of a row is put at its end. -/
theorem insertSorted_of_behind (h : ∀ q ∈ ps, Precedes q p) : insertSorted p ps = ps ++ [p] := by
  induction ps with
  | nil => rfl
  | cons q rest ih =>
    obtain ⟨hfirst, hrest⟩ := List.forall_mem_cons.mp h
    have hgt : Path.compare p q = .gt := Std.OrientedCmp.gt_of_lt hfirst
    rw [insertSorted, hgt]
    exact congrArg (q :: ·) (ih hrest)

/-! ## Files named one by one -/

theorem foldl_insertSorted_ascending (root : String) (paths : List String) : ∀ {ps : List String},
    ps.Pairwise Precedes → (paths.foldl (fun sorted p => insertSorted (Path.join root p) sorted) ps).Pairwise Precedes := by
  induction paths with
  | nil => exact fun h => h
  | cons p paths ih => exact fun h => ih (ascending_insertSorted _ h)

theorem mem_components_foldl_insertSorted (root : String) (cs : List Component) (paths : List String) :
    ∀ ps : List String,
      cs ∈ (paths.foldl (fun sorted p => insertSorted (Path.join root p) sorted) ps).map components ↔
        (∃ p ∈ paths, cs = components (Path.join root p)) ∨ cs ∈ ps.map components := by
  induction paths with
  | nil => simp
  | cons p paths ih =>
    intro ps
    rw [List.foldl_cons, ih, mem_components_insertSorted, List.exists_mem_cons_iff, or_left_comm, or_assoc]

theorem mem_of_mem_foldl_insertSorted (root : String) (paths : List String) : ∀ {ps : List String},
    q ∈ paths.foldl (fun sorted p => insertSorted (Path.join root p) sorted) ps →
      (∃ p ∈ paths, q = Path.join root p) ∨ q ∈ ps := by
  induction paths with
  | nil => exact fun h => .inr h
  | cons p paths ih =>
    intro ps h
    rw [List.exists_mem_cons_iff]
    rcases ih h with hlater | hmem
    · exact .inl (.inr hlater)
    · exact (mem_of_mem_insertSorted hmem).imp_left .inl

/-- A row of absolute paths that increases goes through as it is. -/
theorem foldl_insertSorted_of_ascending (root : String) (paths : List String) : ∀ {ps : List String},
    (ps ++ paths).Pairwise Precedes → (∀ p ∈ paths, isAbsolute p = true) →
      paths.foldl (fun sorted p => insertSorted (Path.join root p) sorted) ps = ps ++ paths := by
  induction paths with
  | nil => exact fun _ _ => (List.append_nil _).symm
  | cons p paths ih =>
    intro ps hordered habsolute
    obtain ⟨hp, hpaths⟩ := List.forall_mem_cons.mp habsolute
    have hbehind : ∀ q ∈ ps, Precedes q p := fun q hq =>
      (List.pairwise_append.mp hordered).2.2 q hq p List.mem_cons_self
    rw [List.foldl_cons, join_of_isAbsolute root hp, insertSorted_of_behind hbehind,
      ih (by rwa [List.append_assoc]) hpaths, List.append_assoc]
    rfl

theorem explicit_ascending (root : String) (paths : List String) : (explicit root paths).Pairwise Precedes :=
  foldl_insertSorted_ascending root paths .nil

theorem mem_components_explicit (root : String) (paths : List String) (cs : List Component) :
    cs ∈ (explicit root paths).map components ↔ ∃ p ∈ paths, cs = components (Path.join root p) := by
  rw [explicit, mem_components_foldl_insertSorted, List.map_nil]
  simp

theorem exists_of_mem_explicit {path : String} {paths : List String} (h : path ∈ explicit root paths) :
    ∃ p ∈ paths, path = Path.join root p :=
  (mem_of_mem_foldl_insertSorted root paths h).resolve_right (by simp)

/-- The components that a path stands for, seen from a directory. -/
def resolved (root p : String) : List Component :=
  if isAbsolute p then components p else components root ++ (parts p).filterMap component?

theorem components_join_eq_resolved (hroot : isAbsolute root = true) (p : String) :
    components (Path.join root p) = resolved root p := by
  unfold resolved
  split
  · rename_i habsolute
    rw [join_of_isAbsolute root habsolute]
  · rename_i hrelative
    exact components_join hroot (by simpa using hrelative)

theorem isAbsolute_join (hroot : isAbsolute root = true) (p : String) : isAbsolute (Path.join root p) = true := by
  cases hp : isAbsolute p with
  | true => rwa [join_of_isAbsolute root hp]
  | false => rw [(join_relative root hp).2.1, hroot]

/-- **Files that are named one by one are listed as a sorted set**: strictly increasing, each path that is given once,
seen from the root and in one of the spellings that are given, whatever the order and however often, and a row that is
listed is listed again as it is. -/
theorem explicit_sortedSet {root : String} (hroot : isAbsolute root = true) (paths : List String) :
    (explicit root paths).Pairwise (fun a b => Path.compare a b = .lt) ∧
    (∀ path ∈ explicit root paths, ∃ p ∈ paths, path = if isAbsolute p then p else Path.join root p) ∧
    (∀ p ∈ paths, ∃! path, path ∈ explicit root paths ∧ components path = resolved root p) ∧
    (∀ others, (∀ p, p ∈ others ↔ p ∈ paths) →
      (explicit root others).map components = (explicit root paths).map components) ∧
    explicit root (explicit root paths) = explicit root paths := by
  have hordered := explicit_ascending root paths
  refine ⟨hordered, fun path hpath => ?_, fun p hp => ?_, fun others hsame => ?_, ?_⟩
  · obtain ⟨p, hp, rfl⟩ := exists_of_mem_explicit hpath
    refine ⟨p, hp, ?_⟩
    split
    · rename_i habsolute
      exact join_of_isAbsolute root habsolute
    · rfl
  · have hlisted := (mem_components_explicit root paths (resolved root p)).mpr
      ⟨p, hp, (components_join_eq_resolved hroot p).symm⟩
    obtain ⟨path, hpath, hcomponents⟩ := List.mem_map.mp hlisted
    refine ⟨path, ⟨hpath, hcomponents⟩, fun other ⟨hother, hsame⟩ => ?_⟩
    exact List.inj_on_of_nodup_map (nodup_components hordered) hother hpath (hsame.trans hcomponents.symm)
  · refine components_eq_of_ascending (explicit_ascending root others) hordered fun cs => ?_
    rw [mem_components_explicit, mem_components_explicit]
    exact exists_congr fun p => and_congr_left' (hsame p)
  · refine @foldl_insertSorted_of_ascending root (explicit root paths) [] hordered fun path hpath => ?_
    obtain ⟨p, -, rfl⟩ := exists_of_mem_explicit hpath
    exact isAbsolute_join hroot p

/-- Three spellings of one file count once, the last one given stays, and `a/c.py` comes before `a.py`. -/
theorem explicit_sortedSet_spellings :
    let paths := ["b.js", "a/c.py", "./b.js", "a.py", "/repo//b.js"]
    let again := paths.reverse ++ paths
    (isAbsolute "/repo" = true ∧ ∀ p, p ∈ again ↔ p ∈ paths) ∧
      explicit "/repo" paths = ["/repo/a/c.py", "/repo/a.py", "/repo//b.js"] ∧
      (explicit "/repo" paths).Pairwise (fun a b => Path.compare a b = .lt) ∧
      (explicit "/repo" again).map components = (explicit "/repo" paths).map components ∧
      explicit "/repo" (explicit "/repo" paths) = explicit "/repo" paths := by
  intro paths again
  have hsame : ∀ p, p ∈ again ↔ p ∈ paths := by simp [again]
  obtain ⟨hordered, -, -, hcongr, hagain⟩ := explicit_sortedSet (show isAbsolute "/repo" = true by decide) paths
  exact ⟨⟨by decide, hsame⟩, by decide +kernel, hordered, hcongr again hsame, hagain⟩

end Selection

end LogHygiene
