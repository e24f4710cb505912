import LogHygiene.Proofs.Disk.Scratch

/-!
# Making a directory in a directory

`Disk.makeDirectory` goes over the parts of a path and makes what is not there. Where a path leads to a
directory, so does each front of its parts (`Follows.front`), and for those nothing is made. So

> **making a directory that is there changes nothing, and making one in a directory makes that one alone**
> (`makeDirectory_join`),

and a path that is too long is the only reason why it should fail.
-/

set_option autoImplicit false

namespace LogHygiene

namespace Disk

variable {d : Disk} {dir name path : String} {p : Place}

/-! ## Taking away -/

theorem node?_erase (d : Disk) {s : Place} (hs : s ≠ []) (q : Place) :
    (d.erase s).node? q = if s <+: q then none else d.node? q := by
  cases q with
  | nil => simp [hs]
  | cons name rest =>
    simp only [node?, erase, List.isEmpty_cons, Bool.false_eq_true, if_false,
      lookup_filter (fun r => !s.isPrefixOf r)]
    by_cases hq : s <+: name :: rest
    · simp [hq]
    · simp [hq]

/-! ## Making -/

/-- Each front of a row of parts leads to a directory. -/
def Passable (d : Disk) (path : String) (parts : List String) : Prop :=
  ∀ front back, front ++ back = parts →
    ∃ q, Follows d true maxLinks (d.startOf path) front q ∧ d.IsDirectory q

/-- What was passed so far, when the rest of a path is still to be made. -/
structure Passed (path before : String) (done rest : List String) : Prop where
  text : rest ≠ [] → path.toList = before.toList ++ ['/'].intercalate (rest.map String.toList)
  parts : ∀ part : String, '/' ∉ part.toList → Path.parts (before ++ part) = done ++ [part]

theorem Passed.step {before part : String} {done rest : List String}
    (h : Passed path before done (part :: rest)) (hpart : '/' ∉ part.toList) :
    Passed path (before ++ part ++ "/") (done ++ [part]) rest where
  text hrest := by
    obtain ⟨next, rest, rfl⟩ := List.exists_cons_of_ne_nil hrest
    rw [h.text (by simp), List.map_cons, List.map_cons, List.intercalate_cons_cons]
    simp
  parts next hnext := by
    rw [Path.parts_append_slash, h.parts part hpart, Path.parts_of_plain hnext]

theorem Passed.text_eq {before part : String} {done rest : List String}
    (h : Passed path before done (part :: rest)) : ∃ more : String, path = before ++ part ++ more := by
  cases rest with
  | nil => exact ⟨"", String.toList_injective (by simpa using h.text (by simp))⟩
  | cons next rest =>
    refine ⟨"/" ++ String.ofList (['/'].intercalate ((next :: rest).map String.toList)),
      String.toList_injective ?_⟩
    rw [h.text (by simp), List.map_cons, List.map_cons, List.intercalate_cons_cons]
    simp

/-- Over a directory that is there, nothing is made. -/
theorem makeParts_cons {before part : String} {done rest : List String}
    (hzero : '\x00' ∉ path.toList) (h : Passed path before done (part :: rest)) (hpart : '/' ∉ part.toList)
    (hpass : ∃ q, Follows d true maxLinks (d.startOf path) (done ++ [part]) q ∧ d.IsDirectory q) :
    maxPath < path.utf8ByteSize ∧ d.makeParts before (part :: rest) = .error .nameTooLong ∨
      d.makeParts before (part :: rest) = d.makeParts (before ++ part ++ "/") rest := by
  rw [makeParts]
  by_cases hollow : (part == "" || part == "." || part == "..") = true
  · exact .inr (if_pos hollow)
  · rw [if_neg hollow]
    obtain ⟨more, hmore⟩ := h.text_eq
    have hzero' : '\x00' ∉ (before ++ part).toList := by
      intro hmem
      rw [hmore, String.toList_append] at hzero
      exact hzero (List.mem_append_left _ hmem)
    have hpartne : before ++ part ≠ "" := by
      intro hempty
      have hpart' := congrArg String.toList hempty
      simp only [String.toList_append, String.toList_empty, List.append_eq_nil_iff] at hpart'
      obtain rfl : part = "" := String.toList_eq_nil_iff.mp hpart'.2
      exact hollow rfl
    by_cases hshort : (before ++ part).utf8ByteSize ≤ maxPath
    · obtain ⟨q, hq, mode, hmode⟩ := hpass
      have hlocate : d.locate true (before ++ part) = .ok q := by
        refine locate_eq_ok.mpr ⟨⟨hpartne, hzero', hshort⟩, ?_⟩
        have habs : Path.isAbsolute path = Path.isAbsolute (before ++ part) := by
          rw [hmore, Path.isAbsolute_append hpartne]
        rw [h.parts part hpart, startOf, ← habs]
        exact hq
      rw [hlocate]
      simp only [bind, Except.bind]
      rw [hmode]
      exact .inr rfl
    · rw [locate_of_long hzero' (by omega)]
      refine .inl ⟨?_, rfl⟩
      rw [hmore, String.utf8ByteSize_append]
      omega

theorem makeParts_passable (hzero : '\x00' ∉ path.toList) : ∀ {ps qs done : List String} {before : String},
    Passed path before done (ps ++ qs) → (∀ part ∈ ps, '/' ∉ part.toList) →
    Passable d path (done ++ ps) →
    maxPath < path.utf8ByteSize ∧ d.makeParts before (ps ++ qs) = .error .nameTooLong ∨
      ∃ before', Passed path before' (done ++ ps) qs ∧
        d.makeParts before (ps ++ qs) = d.makeParts before' qs
  | [], qs, done, before, h, _, _ => .inr ⟨before, by simpa using h, rfl⟩
  | part :: ps, qs, done, before, h, hslash, hpass => by
    have hpart := hslash part (by simp)
    have hdir := hpass (done ++ [part]) ps (by simp)
    have h : Passed path before done (part :: (ps ++ qs)) := h
    rcases makeParts_cons hzero h hpart hdir with ⟨hlong, herror⟩ | hgo
    · exact .inl ⟨hlong, herror⟩
    · rw [List.cons_append, hgo]
      have hrest := makeParts_passable hzero (h.step hpart) (fun q hq => hslash q (by simp [hq]))
        (by rwa [List.append_assoc, List.singleton_append])
      rwa [List.append_assoc, List.singleton_append] at hrest

theorem passed_start (path : String) : Passed path "" [] (Path.parts path) where
  text _ := by
    have hback : (Path.parts path).map String.toList = path.toList.splitOn '/' := by
      rw [Path.parts, List.map_map]
      exact (List.map_congr_left fun cs _ => String.toList_ofList).trans (List.map_id _)
    rw [hback, List.intercalate_splitOn]
    simp
  parts part hpart := by simpa using Path.parts_of_plain hpart

namespace Leads

theorem passable (h : Leads d dir p) : Passable d dir (Path.parts dir) := by
  rintro front back hparts
  have hfollows := h.follows
  rw [← hparts] at hfollows
  exact hfollows.front fun _ => ⟨rfl, h.directory⟩

/-- Making a directory that is there changes nothing. -/
theorem makeDirectory (h : Leads d dir p) :
    maxPath < dir.utf8ByteSize ∧ d.makeDirectory dir = .error .nameTooLong ∨
      d.makeDirectory dir = .ok d := by
  unfold Disk.makeDirectory
  split
  · exact .inr rfl
  · have hstart : Passed dir "" [] (Path.parts dir ++ []) := by simpa using passed_start dir
    have hmake := makeParts_passable h.no_zero hstart (Path.slash_not_mem_parts dir) (by simpa using h.passable)
    rw [List.append_nil] at hmake
    refine hmake.imp_right fun ⟨before', _, hdone⟩ => ?_
    rw [hdone, makeParts]

/-- **Making a directory in a directory makes that one alone.** -/
theorem makeDirectory_join (h : Leads d dir p) (hname : IsFileName name)
    (hfree : d.node? (p ++ [name]) = none) :
    maxPath < (Path.join dir name).utf8ByteSize ∧
        d.makeDirectory (Path.join dir name) = .error .nameTooLong ∨
      d.makeDirectory (Path.join dir name) = .ok (d.put (p ++ [name]) (.directory newDirectoryMode)) := by
  obtain ⟨⟨between, hwritten, -⟩, habs, ps, tail, -, hdir, hjoin⟩ := Path.join_cases dir hname.no_slash
  have hne : Path.join dir name ≠ "" := by simp [hwritten, hname.ne_empty]
  have hzero := h.no_zero_join hname
  have hpass : Passable d (Path.join dir name) ps := by
    intro front back hparts
    have hfront := h.passable front (back ++ tail) (by rw [hdir, ← hparts, List.append_assoc])
    rwa [startOf, habs]
  have hslash : ∀ part ∈ ps, '/' ∉ part.toList := fun part hpart =>
    Path.slash_not_mem_parts dir part (by rw [hdir]; exact List.mem_append_left _ hpart)
  have hstart := passed_start (Path.join dir name)
  rw [hjoin] at hstart
  have hmake := makeParts_passable (d := d) hzero hstart hslash (by simpa using hpass)
  rw [Disk.makeDirectory, if_neg (by simpa using hne), hjoin]
  rcases hmake with hlong | ⟨before', hpassed, hdone⟩
  · exact .inl hlong
  · have htext : before' ++ name = Path.join dir name :=
      (String.toList_injective (by simpa using hpassed.text (by simp))).symm
    have hnode : ∀ t, ¬ d.IsLink (p ++ [name]) t := fun t ht => by
      rw [IsLink, hfree] at ht
      exact absurd ht (by simp)
    rw [hdone, makeParts, if_neg (by simp [hname.ne_empty, hname.ne_current, hname.ne_parent]), htext]
    by_cases hshort : (Path.join dir name).utf8ByteSize ≤ maxPath
    · refine .inr ?_
      rw [h.locate_join hname hnode hshort]
      simp only [bind, Except.bind]
      rw [hfree]
      rfl
    · refine .inl ⟨by omega, ?_⟩
      rw [locate_of_long hzero (by omega)]
      rfl

end Leads

end Disk

end LogHygiene
