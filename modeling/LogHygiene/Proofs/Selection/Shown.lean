import LogHygiene.Proofs.Paths
import LogHygiene.Selection
import Mathlib.Data.List.DropRight

/-!
# Which path is shown

Files are reported, stored and sorted under the text that `Path.relative` makes of their path. The root is taken off,
backslashes are turned into slashes, and `./` is taken off the front. Only the first of these steps can be undone: a
backslash may stand in a name.

> **the text that is shown leads back to the path exactly if no name behind the root has a backslash**
> (`explicit_relative_iff`).

So paths without backslashes are told apart by what is shown for them, and `a\b.js` is not told apart from `a/b.js`.
-/

set_option autoImplicit false

namespace LogHygiene.Path

/-! ## Taking the root off -/

/-- The components of a path behind those of a directory. -/
def behind (base path : String) : List Component := (components path).drop (components base).length

/-- No name behind the directory has a backslash. -/
def IsPlainBehind (base path : String) : Prop := ∀ name, .named name ∈ behind base path → '\\' ∉ name.toList

theorem filterMap_dropComponents : ∀ (n : Nat) (ps : List String),
    (dropComponents n ps).filterMap component? = (ps.filterMap component?).drop n
  | 0, ps => by rw [dropComponents, List.drop_zero]
  | n + 1, [] => rfl
  | n + 1, p :: ps => by
    rw [dropComponents, List.filterMap_cons]
    cases hp : component? p with
    | none => rw [if_neg (by simp), filterMap_dropComponents (n + 1) ps]
    | some c => rw [if_pos (by simp), filterMap_dropComponents n ps, List.drop_succ_cons]

theorem dropComponents_suffix : ∀ (n : Nat) (ps : List String), dropComponents n ps <:+ ps
  | 0, ps => by simp [dropComponents]
  | n + 1, [] => List.suffix_rfl
  | n + 1, p :: ps => by
    rw [dropComponents]
    split
    · exact (dropComponents_suffix n ps).trans (List.suffix_cons p ps)
    · exact (dropComponents_suffix (n + 1) ps).trans (List.suffix_cons p ps)

theorem filterMap_dropWhile_hollow (ps : List String) :
    (ps.dropWhile fun p => (component? p).isNone).filterMap component? = ps.filterMap component? := by
  induction ps with
  | nil => rfl
  | cons p ps ih =>
    rw [List.dropWhile_cons]
    split
    · rename_i hhollow
      rw [ih, List.filterMap_cons_none (Option.isNone_iff_eq_none.mp hhollow)]
    · rfl

/-- Parts without meaning at the ends are no loss. -/
theorem filterMap_trimParts (ps : List String) : (trimParts ps).filterMap component? = ps.filterMap component? := by
  rw [trimParts, List.filterMap_reverse, filterMap_dropWhile_hollow, ← List.filterMap_reverse, List.reverse_reverse,
    filterMap_dropWhile_hollow]

/-- What trimming leaves is a stretch whose first part means something. -/
theorem trimParts_prefix_dropWhile (ps : List String) :
    trimParts ps <+: ps.dropWhile fun p => (component? p).isNone := List.rdropWhile_prefix _ _

theorem mem_of_mem_trimParts {ps : List String} {p : String} (h : p ∈ trimParts ps) : p ∈ ps :=
  (List.dropWhile_sublist _).mem ((trimParts_prefix_dropWhile ps).mem h)

theorem isSome_of_mem_head?_trimParts {ps : List String} {p : String} (h : p ∈ (trimParts ps).head?) :
    (component? p).isSome = true := by
  obtain ⟨rest, hrest⟩ := trimParts_prefix_dropWhile ps
  have hhead : p ∈ (ps.dropWhile fun p => (component? p).isNone).head? := by
    rw [← hrest, List.head?_append, h]
    rfl
  have hnot := List.head?_dropWhile_not (fun p => (component? p).isNone) ps
  rw [hhead] at hnot
  simpa using hnot

/-- As many components as the front of a row has are found in the front. -/
theorem dropComponents_append (ps qs : List String) : ∃ hollow : List String,
    (∀ p ∈ hollow, component? p = none) ∧ dropComponents (ps.filterMap component?).length (ps ++ qs) = hollow ++ qs := by
  induction ps with
  | nil => exact ⟨[], by simp, by rw [List.filterMap_nil, List.length_nil, dropComponents]⟩
  | cons p ps ih =>
    obtain ⟨hollow, hhollow, hdrop⟩ := ih
    cases hp : component? p with
    | some c =>
      refine ⟨hollow, hhollow, ?_⟩
      rw [List.filterMap_cons_some hp, List.length_cons, List.cons_append, dropComponents, hp, if_pos (by rfl), hdrop]
    | none =>
      rw [List.filterMap_cons_none hp]
      cases hlength : (ps.filterMap component?).length with
      | zero =>
        have hnone := List.filterMap_eq_nil_iff.mp (List.length_eq_zero_iff.mp hlength)
        refine ⟨p :: ps, List.forall_mem_cons.mpr ⟨hp, hnone⟩, ?_⟩
        rw [dropComponents]
      | succ n =>
        rw [hlength] at hdrop
        refine ⟨hollow, hhollow, ?_⟩
        rw [List.cons_append, dropComponents, hp, if_neg (by decide), hdrop]

theorem dropWhile_hollow_of_forall {ps : List String} (h : ∀ p ∈ ps, (component? p).isSome = true) :
    (ps.dropWhile fun p => (component? p).isNone) = ps := by
  cases ps with
  | nil => rfl
  | cons p ps =>
    have hp : (component? p).isNone = false := by
      rw [← Option.not_isSome, h p List.mem_cons_self]
      rfl
    exact List.dropWhile_cons_of_neg (by simp [hp])

/-- Parts that mean something are not trimmed. -/
theorem trimParts_append {hollow qs : List String} (hhollow : ∀ p ∈ hollow, component? p = none)
    (hqs : ∀ p ∈ qs, (component? p).isSome = true) : trimParts (hollow ++ qs) = qs := by
  have hback : ∀ p ∈ qs.reverse, (component? p).isSome = true := fun p hp => hqs p (List.mem_reverse.mp hp)
  rw [trimParts, List.dropWhile_append_of_pos fun p hp => by rw [hhollow p hp]; rfl, dropWhile_hollow_of_forall hqs,
    dropWhile_hollow_of_forall hback, List.reverse_reverse]

/-- All components but the start are those of the parts. -/
theorem filter_components (path : String) :
    ((components path).filter fun c => c != .root && c != .current) = (parts path).filterMap component? := by
  have hsteps : ∀ c ∈ (parts path).filterMap component?, (c != .root && c != .current) = true := by
    intro c hc
    obtain ⟨part, -, hpart⟩ := List.mem_filterMap.mp hc
    rcases component?_eq_some hpart with rfl | rfl
    · decide
    · simp
  rw [components]
  split
  · rw [List.filter_cons_of_neg (by decide), List.filter_eq_self.mpr hsteps]
  · split
    · rw [List.filter_cons_of_neg (by decide), List.filter_eq_self.mpr hsteps]
    · rw [List.filter_eq_self.mpr hsteps]

/-- A path that has no components has no text. -/
theorem eq_empty_of_components {path : String} (h : components path = []) : path = "" := by
  by_contra hne
  obtain ⟨c, cs, hcs⟩ := List.exists_cons_of_ne_nil fun hnil => hne (String.toList_eq_nil_iff.mp hnil)
  obtain ⟨first, rest, hrest⟩ := List.exists_cons_of_ne_nil (List.splitOn_ne_nil '/' cs)
  rw [components] at h
  split at h
  · exact absurd h (by simp)
  · rename_i habsolute
    have hslash : c ≠ '/' := by
      rintro rfl
      exact habsolute (by rw [isAbsolute, hcs]; rfl)
    -- the first part has a character, and is not `.`
    have hparts : parts path = String.ofList (c :: first) :: rest.map String.ofList := by
      rw [parts, hcs, List.splitOn_cons_eq_if_modifyHead, if_neg (by simpa using hslash), hrest]
      rfl
    split at h
    · exact absurd h (by simp)
    · rename_i hcurrent
      rw [hparts] at h hcurrent
      have hnone := List.filterMap_eq_nil_iff.mp h _ List.mem_cons_self
      have hfirst : String.ofList (c :: first) ≠ "" := fun hempty => by simpa using congrArg String.toList hempty
      have hdot : String.ofList (c :: first) ≠ "." := fun hdot => hcurrent (by rw [hdot]; rfl)
      rw [component?, beq_false_of_ne hfirst, beq_false_of_ne hdot, Bool.or_self, if_neg (by decide)] at hnone
      split at hnone
      · exact absurd hnone (by simp)
      · exact absurd hnone (by simp)

/-- **Under an absolute directory what is left of a path are its components behind the directory**, and the first of
them comes first. -/
theorem stripBase?_of_prefix {base path : String} (hbase : isAbsolute base = true)
    (hunder : components base <+: components path) :
    ∃ ps, stripBase? base path = some ("/".intercalate ps) ∧ ps.filterMap component? = behind base path ∧
      (∀ p ∈ ps, '/' ∉ p.toList) ∧ ∀ p ∈ ps.head?, (component? p).isSome = true := by
  have hcomponents := components_of_isAbsolute hbase
  have habs : isAbsolute path = true := by
    obtain ⟨rest, hrest⟩ := hunder
    exact isAbsolute_of_head_components (by rw [← hrest, hcomponents]; rfl)
  have hlength : ((components base).filter fun c => c != .root && c != .current).length + 1 =
      (components base).length := by
    rw [filter_components, hcomponents, List.length_cons]
  refine ⟨trimParts (dropComponents ((components base).filter fun c => c != .root && c != .current).length
    (parts path)), ?_, ?_, fun p hp => ?_, fun p hp => isSome_of_mem_head?_trimParts hp⟩
  · have hsome : (components base).isEmpty = false := by rw [hcomponents]; rfl
    rw [stripBase?, if_pos (List.isPrefixOf_iff_prefix.mpr hunder), hsome]
    rfl
  · rw [filterMap_trimParts, filterMap_dropComponents, behind, components_of_isAbsolute habs, ← hlength,
      List.drop_succ_cons]
  · have hpart := (dropComponents_suffix _ _).mem (mem_of_mem_trimParts hp)
    exact slash_not_mem_parts path p hpart

/-! ## Slashes for backslashes -/

theorem mem_of_mem_strip {cs : List Char} {c : Char} (h : c ∈ relative.strip cs) : c ∈ cs := by
  induction cs using relative.strip.induct with
  | case1 rest ih =>
    rw [relative.strip] at h
    exact List.mem_cons_of_mem _ (List.mem_cons_of_mem _ (ih h))
  | case2 cs hother =>
    rw [relative.strip] at h
    · exact h
    · exact hother

theorem strip_eq_self {cs : List Char} (h : ¬ ['.', '/'] <+: cs) : relative.strip cs = cs := by
  unfold relative.strip
  split
  · exact absurd ⟨_, rfl⟩ h
  · rfl

/-- Nothing that is shown has a backslash. -/
theorem backslash_not_mem_relative (base path : String) : '\\' ∉ (relative base path).toList := by
  intro hmem
  rw [relative, String.toList_ofList] at hmem
  obtain ⟨c, -, hc⟩ := List.mem_map.mp (mem_of_mem_strip hmem)
  split at hc
  · exact absurd hc (by decide)
  · rename_i hother
    exact hother (beq_iff_eq.mpr hc)

/-- What has no backslash and does not start with `./` is shown as it is. -/
theorem relative_of_stripBase? {base path text : String} (hstrip : stripBase? base path = some text)
    (hbackslash : '\\' ∉ text.toList) (hcurrent : ¬ ['.', '/'] <+: text.toList) : relative base path = text := by
  have hsame : text.toList.map (fun c => if c == '\\' then '/' else c) = text.toList := by
    refine (List.map_congr_left fun c hc => if_neg fun hslash => ?_).trans (List.map_id _)
    exact hbackslash (beq_iff_eq.mp hslash ▸ hc)
  rw [relative, hstrip, Option.getD_some, hsame, strip_eq_self hcurrent, String.ofList_toList]

/-- A part with some character but a dot is a name. -/
theorem component?_of_mem {part : String} {c : Char} (hc : c ∈ part.toList) (hdot : c ≠ '.') :
    component? part = some (.named part) := by
  have hne : ∀ dots : List Char, (∀ d ∈ dots, d = '.') → part.toList ≠ dots := by
    rintro dots hdots rfl
    exact hdot (hdots c hc)
  have hparent : part ≠ ".." := fun h => hne ['.', '.'] (by simp) (h ▸ rfl)
  have hcurrent : part ≠ "." := fun h => hne ['.'] (by simp) (h ▸ rfl)
  have hempty : part ≠ "" := fun h => hne [] (by simp) (h ▸ rfl)
  rw [component?, if_neg, if_neg]
  · simpa using hparent
  · simpa using ⟨hempty, hcurrent⟩

/-- A name among the components is written in the path. -/
theorem mem_of_mem_named {path name : String} (hname : .named name ∈ (parts path).filterMap component?) {c : Char}
    (hc : c ∈ name.toList) : c ∈ path.toList := by
  obtain ⟨part, hpart, heq⟩ := List.mem_filterMap.mp hname
  rcases component?_eq_some heq with hparent | hnamed
  · exact absurd hparent (by simp)
  · obtain rfl := Component.named.inj hnamed
    have hslash : c ≠ '/' := by
      rintro rfl
      exact slash_not_mem_parts path name hpart hc
    exact (mem_iff_mem_parts hslash).mpr ⟨name, hpart, hc⟩

/-- What starts with a part that means something does not start with `./`. -/
theorem current_not_prefix_intercalate {p : String} {ps : List String} (hslash : ∀ q ∈ p :: ps, '/' ∉ q.toList)
    (hp : (component? p).isSome = true) : ¬ ['.', '/'] <+: ("/".intercalate (p :: ps)).toList := by
  rintro ⟨rest, hrest⟩
  have hparts : parts ("/".intercalate (p :: ps)) = p :: ps := parts_intercalate (by simp) hslash
  have htext : "/".intercalate (p :: ps) = "." ++ "/" ++ String.ofList rest :=
    String.toList_injective (by rw [← hrest]; simp)
  rw [htext, parts_append_slash, parts_of_plain (by decide)] at hparts
  obtain rfl : "." = p := (List.cons.inj hparts).1
  exact absurd hp (by decide)

/-- What is left of a path that has no backslash behind the directory is shown as it is. -/
theorem relative_of_plain {base path : String} (hbase : isAbsolute base = true)
    (hunder : components base <+: components path) (hplain : IsPlainBehind base path) :
    isAbsolute (relative base path) = false ∧
      (parts (relative base path)).filterMap component? = behind base path := by
  obtain ⟨ps, hstrip, hsteps, hslash, hfirst⟩ := stripBase?_of_prefix hbase hunder
  cases ps with
  | nil =>
    have hshown : relative base path = "" := by rw [relative, hstrip]; rfl
    rw [hshown, ← hsteps]
    exact ⟨by decide, by decide⟩
  | cons p ps =>
    have hparts : parts ("/".intercalate (p :: ps)) = p :: ps := parts_intercalate (by simp) hslash
    have hp : (component? p).isSome = true := hfirst p rfl
    have hbackslash : '\\' ∉ ("/".intercalate (p :: ps)).toList := by
      intro hmem
      obtain ⟨part, hpart, hin⟩ := (mem_iff_mem_parts (by decide)).mp hmem
      rw [hparts] at hpart
      refine hplain part ?_ hin
      rw [← hsteps]
      exact List.mem_filterMap.mpr ⟨part, hpart, component?_of_mem hin (by decide)⟩
    have hcurrent := current_not_prefix_intercalate hslash hp
    have hne : p ≠ "" := by
      rintro rfl
      exact absurd hp (by decide)
    rw [relative_of_stripBase? hstrip hbackslash hcurrent, hparts, ← hsteps]
    exact ⟨isAbsolute_intercalate hne (hslash p List.mem_cons_self), rfl⟩

end LogHygiene.Path

namespace LogHygiene.Selection

open LogHygiene.Path

/-! ## The way back -/

@[simp] theorem explicit_singleton (root path : String) : explicit root [path] = [Path.join root path] := rfl

/-- Under an absolute root, the text that is shown for a path leads back to it exactly if no name behind the root has
a backslash. -/
theorem components_join_relative_iff {root path : String} (hroot : isAbsolute root = true)
    (hunder : components root <+: components path) :
    components (Path.join root (relative root path)) = components path ↔ IsPlainBehind root path := by
  have hwhole : components path = components root ++ behind root path := by
    rw [behind, ← List.prefix_iff_eq_append.mp hunder]
    simp
  constructor
  · intro hback name hname hmem
    cases habs : isAbsolute (relative root path) with
    | true =>
      rw [join_of_isAbsolute root habs, components_of_isAbsolute habs] at hback
      have hin : Component.named name ∈ (parts (relative root path)).filterMap component? := by
        have hin : Component.named name ∈ components path := List.mem_of_mem_drop hname
        rw [← hback] at hin
        simpa using hin
      exact backslash_not_mem_relative root path (mem_of_mem_named hin hmem)
    | false =>
      rw [components_join hroot habs, hwhole, List.append_cancel_left_eq] at hback
      rw [← hback] at hname
      exact backslash_not_mem_relative root path (mem_of_mem_named hname hmem)
  · intro hplain
    obtain ⟨habs, hsteps⟩ := relative_of_plain hroot hunder hplain
    rw [components_join hroot habs, hsteps, hwhole]

/-- **What is shown for a path under an absolute root leads back to it exactly if no name behind the root has a
backslash**, and of two different paths that are shown alike one has such a name. -/
theorem explicit_relative_iff {root path : String} (hroot : isAbsolute root = true)
    (hunder : components root <+: components path) :
    ((explicit root [relative root path]).map components = [components path] ↔ IsPlainBehind root path) ∧
    ∀ other, components root <+: components other → components path ≠ components other →
      relative root path = relative root other → ¬ (IsPlainBehind root path ∧ IsPlainBehind root other) := by
  refine ⟨?_, fun other hother hne hsame ⟨hplain, hplainOther⟩ => hne ?_⟩
  · rw [explicit_singleton, List.map_singleton, List.cons.injEq, and_iff_left rfl]
    exact components_join_relative_iff hroot hunder
  · rw [← (components_join_relative_iff hroot hunder).mpr hplain, hsame,
      (components_join_relative_iff hroot hother).mpr hplainOther]

/-- A name with a backslash is shown as two names, and does not lead back. -/
theorem explicit_relative_iff_backslash :
    let path := "/repo/a\\b.js"
    let other := "/repo/a/b.js"
    (isAbsolute "/repo" = true ∧ components "/repo" <+: components path ∧ components "/repo" <+: components other ∧
        components path ≠ components other ∧ relative "/repo" path = relative "/repo" other) ∧
      (explicit "/repo" [relative "/repo" path]).map components ≠ [components path] ∧
      ¬ (IsPlainBehind "/repo" path ∧ IsPlainBehind "/repo" other) := by
  intro path other
  have hunder : components "/repo" <+: components path := ⟨[.named "a\\b.js"], by decide +kernel⟩
  have hother : components "/repo" <+: components other := ⟨[.named "a", .named "b.js"], by decide +kernel⟩
  have hne : components path ≠ components other := by decide +kernel
  have hsame : relative "/repo" path = relative "/repo" other := by decide +kernel
  have hname : Component.named "a\\b.js" ∈ behind "/repo" path := by decide +kernel
  obtain ⟨hback, halike⟩ := explicit_relative_iff (by decide) hunder
  refine ⟨⟨by decide, hunder, hother, hne, hsame⟩, fun heq => ?_, halike other hother hne hsame⟩
  exact hback.mp heq _ hname (by decide)

end LogHygiene.Selection
