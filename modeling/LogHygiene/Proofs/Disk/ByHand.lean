import LogHygiene.Proofs.Cache.Confining

/-!
# What people do to a disk

Between two runs people save files, take files away and make directories. Each of this puts or takes one thing at a
place where no way goes through, so

> **ways lead where they led** (`Ways.put_file`, `Ways.erase_file`, `Ways.makeParts`),

and where it does not happen in a store it comes to the same on a disk with stores and on one without.
-/

set_option autoImplicit false

namespace LogHygiene

namespace Disk

variable {d d' e e' : Disk} {stores : List Place} {path before : String} {p q r : Place} {body : Bytes}
  {mode : Nat} {modified : Instant} {m : Mishaps}

/-- Save a file, as of a time. -/
def save (d : Disk) (path : String) (body : Bytes) (modified : Instant) : Except FileFault Disk := do
  let d ← d.overwrite path body
  d.stamp path modified

/-! ## Ways -/

theorem Ways.put_file (hnil : p ≠ []) (hfree : d.IsFileAt p ∨ d.node? p = none) :
    Ways d (d.put p (.file body mode modified)) := by
  have hdir : ¬ d.IsDirectory p := by
    rintro ⟨k, hk⟩
    rcases hfree with hfile | hnone
    · exact hfile.not_isDirectory ⟨k, hk⟩
    · rw [hnone] at hk
      exact absurd hk (by simp)
  have hlink : ∀ t, ¬ d.IsLink p t := by
    intro t ht
    rcases hfree with hfile | hnone
    · exact hfile.not_isLink t ht
    · rw [IsLink, hnone] at ht
      exact absurd ht (by simp)
  refine ⟨rfl, ?_, ?_⟩
  · intro q hq
    have hne : q ≠ p := by
      rintro rfl
      exact hdir hq
    rwa [IsDirectory, node?_put hnil, if_neg hne]
  · intro q t
    rw [IsLink, IsLink, node?_put hnil]
    by_cases hqp : q = p
    · subst hqp
      rw [if_pos rfl]
      exact ⟨fun h => absurd h (by simp), fun h => absurd h (hlink t)⟩
    · rw [if_neg hqp]

theorem Ways.put_directory (hnil : p ≠ []) (hfree : d.node? p = none) : Ways d (d.put p (.directory mode)) := by
  refine ⟨rfl, ?_, ?_⟩
  · intro q ⟨k, hk⟩
    rw [IsDirectory, node?_put hnil]
    by_cases hqp : q = p
    · exact ⟨mode, if_pos hqp⟩
    · exact ⟨k, by rw [if_neg hqp, hk]⟩
  · intro q t
    rw [IsLink, IsLink, node?_put hnil]
    by_cases hqp : q = p
    · subst hqp
      rw [if_pos rfl, hfree]
      simp
    · rw [if_neg hqp]

/-- Where nothing is below, nothing else is taken away. -/
theorem node?_erase_of_below (hnil : p ≠ []) (hbelow : ∀ r, r ≠ [] → d.node? (p ++ r) = none) (q : Place) :
    (d.erase p).node? q = if q = p then none else d.node? q := by
  rw [node?_erase d hnil]
  by_cases hfront : p <+: q
  · rw [if_pos hfront]
    obtain ⟨r, rfl⟩ := hfront
    split
    · rfl
    · rename_i hne
      exact (hbelow r fun hr => hne (by rw [hr, List.append_nil])).symm
  · rw [if_neg hfront, if_neg]
    rintro rfl
    exact hfront (List.prefix_refl _)

/-- A file, and nothing below it. -/
structure IsLeaf (d : Disk) (p : Place) : Prop where
  file : d.IsFileAt p
  below : ∀ r, r ≠ [] → d.node? (p ++ r) = none

namespace IsLeaf

theorem ne_nil (h : d.IsLeaf p) : p ≠ [] := by
  rintro rfl
  exact h.file.not_isDirectory ⟨_, rfl⟩

/-- Nothing else that is on the disk is behind it. -/
theorem eq_of_front (h : d.IsLeaf p) (hq : d.node? q ≠ none) (hfront : p <+: q) : q = p := by
  obtain ⟨r, rfl⟩ := hfront
  by_contra hne
  exact hq (h.below r fun hr => hne (by rw [hr, List.append_nil]))

theorem node?_erase (h : d.IsLeaf p) (q : Place) : (d.erase p).node? q = if q = p then none else d.node? q :=
  node?_erase_of_below h.ne_nil h.below q

end IsLeaf

theorem Ways.erase_file (h : d.IsLeaf p) : Ways d (d.erase p) := by
  refine ⟨rfl, ?_, ?_⟩
  · intro q hq
    have hne : q ≠ p := by
      rintro rfl
      exact h.file.not_isDirectory hq
    rwa [IsDirectory, h.node?_erase, if_neg hne]
  · intro q t
    rw [IsLink, IsLink, h.node?_erase]
    by_cases hqp : q = p
    · subst hqp
      rw [if_pos rfl]
      exact ⟨fun ht => absurd ht (by simp), fun ht => absurd ht (h.file.not_isLink t)⟩
    · rw [if_neg hqp]

/-! ## Directories that are made -/

/-- The second disk is the first one with more directories, at places where nothing was. -/
structure Furnished (d d' : Disk) : Prop where
  ways : Ways d d'
  process : d'.process = d.process
  node? : ∀ q, d'.node? q = d.node? q ∨ d.node? q = none ∧ d'.IsDirectory q

namespace Furnished

theorem refl (d : Disk) : Furnished d d := ⟨.refl d, rfl, fun _ => .inl rfl⟩

theorem trans {d'' : Disk} (h : Furnished d d') (h' : Furnished d' d'') : Furnished d d'' := by
  refine ⟨h.ways.trans h'.ways, h'.process.trans h.process, fun q => ?_⟩
  rcases h.node? q with hsame | ⟨hnone, hdir⟩
  · rw [← hsame]
    exact h'.node? q
  · exact .inr ⟨hnone, h'.ways.directory q hdir⟩

theorem kept (h : Furnished d d') (hq : d.node? q ≠ none) : d'.node? q = d.node? q := by
  rcases h.node? q with hsame | ⟨hnone, -⟩
  · exact hsame
  · exact absurd hnone hq

end Furnished

theorem Furnished.put (hfree : d.node? p = none) : Furnished d (d.put p (.directory mode)) := by
  have hnil : p ≠ [] := by
    rintro rfl
    exact absurd hfree (by simp)
  refine ⟨.put_directory hnil hfree, rfl, fun q => ?_⟩
  rw [IsDirectory, node?_put hnil]
  by_cases hqp : q = p
  · subst hqp
    exact .inr ⟨hfree, mode, if_pos rfl⟩
  · exact .inl (if_neg hqp)

/-- What one part of a path comes to when directories are made. -/
theorem makeParts_step {part : String} {rest : List String} (h : d.makeParts before (part :: rest) = .ok d') :
    ∃ mid, mid.makeParts (before ++ part ++ "/") rest = .ok d' ∧
      (mid = d ∨ ∃ p, d.locate true (before ++ part) = .ok p ∧ d.node? p = none ∧
        mid = d.put p (.directory newDirectoryMode)) := by
  rw [makeParts] at h
  split at h
  · exact ⟨d, h, .inl rfl⟩
  · cases hlocate : d.locate true (before ++ part) with
    | error f => rw [hlocate] at h; exact absurd h (by simp [bind, Except.bind])
    | ok p =>
      rw [hlocate] at h
      simp only [bind, Except.bind] at h
      split at h
      · exact ⟨d, h, .inl rfl⟩
      · exact absurd h (by simp)
      · rename_i hnone
        exact ⟨_, h, .inr ⟨p, rfl, hnone, rfl⟩⟩

/-- **Making directories makes directories**, and nothing else. -/
theorem Furnished.makeParts : ∀ {parts : List String} {before : String} {d : Disk},
    d.makeParts before parts = .ok d' → Furnished d d'
  | [], _, d, h => by
    obtain rfl := Except.ok.inj h
    exact .refl d
  | _ :: _, _, d, h => by
    obtain ⟨mid, hrest, rfl | ⟨p, -, hnone, rfl⟩⟩ := makeParts_step h
    · exact Furnished.makeParts hrest
    · exact (Furnished.put hnone).trans (Furnished.makeParts hrest)

theorem Furnished.makeDirectory (h : d.makeDirectory path = .ok d') : Furnished d d' := by
  rw [Disk.makeDirectory] at h
  split at h
  · obtain rfl := Except.ok.inj h
    exact .refl d
  · exact .makeParts h

/-! ## With stores and without -/

theorem apart_erase (d : Disk) (p : Place) :
    (d.erase p).apart m stores = (d.apart m stores).filter fun x => !p.isPrefixOf x.1 := by
  simp only [apart, erase, List.filter_map, List.filter_filter]
  congr 1
  exact List.filter_congr fun x _ => Bool.and_comm _ _

namespace Alike

/-- What is free on one disk is free on the other one, and what is a file is one. -/
theorem isFileAt_or_free (h : Alike m stores d e) (hp : Disk.isApart stores p) (hplain : ¬ e.IsScratch p)
    (hfree : e.IsFileAt p ∨ e.node? p = none) : d.IsFileAt p ∨ d.node? p = none := by
  rcases hfree with ⟨body, mode, modified, hfile⟩ | hnone
  · obtain ⟨mode', modified', hd, -⟩ := h.file hplain hfile
    exact .inl ⟨body, mode', modified', hd⟩
  · exact .inr ((h.free hp fun hscratch => hplain (h.isScratch.mp hscratch)).mpr hnone)

end Alike

/-- Where a file is saved. -/
structure Saves (stores : List Place) (d : Disk) (path : String) (p : Place) : Prop where
  locate : d.locate true path = .ok p
  free : d.IsFileAt p ∨ d.node? p = none
  apart : isApart stores p
  plain : ¬ d.IsScratch p

namespace Saves

theorem ne_nil (h : Saves stores d path p) : p ≠ [] := by
  rintro rfl
  rcases h.free with hfile | hnone
  · exact hfile.not_isDirectory ⟨_, rfl⟩
  · exact absurd hnone (by simp)

/-- Saving a file puts it where the path leads. -/
theorem save_eq (h : Saves stores d path p) (body : Bytes) (modified : Instant) :
    d.save path body modified = .ok (d.put p (.file body (d.modeAt p) modified)).tick := by
  have hover : d.overwrite path body = .ok (d.fill p body) := by
    rw [overwrite, h.locate]
    rcases h.free with ⟨old, mode, t, hfile⟩ | hnone
    · simp only [bind, Except.bind, hfile, pure, Except.pure]
    · simp only [bind, Except.bind, hnone, pure, Except.pure]
  have hways : Ways d (d.fill p body) :=
    have hput := Ways.put_file h.ne_nil h.free
    ⟨hput.here, hput.directory, hput.link⟩
  have hlocate := locate_mono hways h.locate
  have hnode : (d.fill p body).node? p = some (.file body (d.modeAt p) d.clock) := by
    rw [node?_fill h.ne_nil, if_pos rfl]
  rw [save, hover]
  simp only [bind, Except.bind, stamp, visit, hlocate, hnode, pure, Except.pure]
  exact congrArg (fun e : Disk => Except.ok e.tick) (put_put d p _ _)

theorem alike (h : Saves stores e path p) (halike : Alike m stores d e) : Saves stores d path p where
  locate := locate_mono halike.ways h.locate
  free := halike.isFileAt_or_free h.apart h.plain h.free
  apart := h.apart
  plain hscratch := h.plain (halike.isScratch.mp hscratch)

/-- The file is the same on both disks, as far as it is compared. -/
theorem agreed_eq (h : Saves stores e path p) (halike : Alike m stores d e) (body : Bytes) (modified : Instant) :
    (DiskNode.file body (d.modeAt p) modified).agreed m = (DiskNode.file body (e.modeAt p) modified).agreed m := by
  simp only [DiskNode.agreed]
  split
  · rfl
  · rename_i hdiscard
    rw [modeAt, modeAt]
    rcases h.free with ⟨old, mode, t, hfile⟩ | hnone
    · obtain ⟨mode', t', hd, hmode⟩ := halike.file h.plain hfile
      rw [hfile, hd, hmode (by simpa using hdiscard)]
    · rw [hnone, (halike.free h.apart (h.alike halike).plain).mpr hnone]

end Saves

namespace Alike

/-- Taking away a file is the same on both disks. -/
theorem erase (h : Alike m stores d e) (hp : e.IsLeaf p) : Alike m stores (d.erase p) (e.erase p) where
  here := h.here
  process := h.process
  nodes := by rw [apart_erase, apart_erase, h.nodes]
  bare q hq := by
    rw [hp.node?_erase, h.bare q hq]
    split <;> rfl
  links q t hq := by
    rw [IsLink, Disk.node?_erase d hp.ne_nil] at hq
    split at hq
    · exact absurd hq (by simp)
    · exact h.links q t hq
  scratch q hq hscratch := by
    obtain ⟨hd, he⟩ := h.scratch q hq hscratch
    refine ⟨?_, ?_⟩
    · by_cases hprefix : p <+: q
      · exact .inl (by rw [Disk.node?_erase d hp.ne_nil, if_pos hprefix])
      · exact hd.congr (by rw [Disk.node?_erase d hp.ne_nil, if_neg hprefix])
    · by_cases hqp : q = p
      · exact .inl (by rw [hp.node?_erase, if_pos hqp])
      · exact he.congr (by rw [hp.node?_erase, if_neg hqp])

/-- **Directories that are made outside of the stores are made on both disks.** -/
theorem makeParts (hapart : ∀ q, e'.IsDirectory q → Disk.isApart stores q ∧ ¬ e'.IsScratch q) :
    ∀ {parts : List String} {before : String} {d e : Disk}, Alike m stores d e →
      e.makeParts before parts = .ok e' → ∃ d', d.makeParts before parts = .ok d' ∧ Alike m stores d' e' ∧
        ∀ q, Disk.isApart stores q = false → d'.node? q = d.node? q
  | [], _, d, e, h, hmake => by
    obtain rfl := Except.ok.inj hmake
    exact ⟨d, rfl, h, fun _ _ => rfl⟩
  | part :: rest, before, d, e, h, hmake => by
    rw [Disk.makeParts] at hmake ⊢
    split at hmake
    · rename_i hpart
      rw [if_pos hpart]
      exact makeParts hapart h hmake
    · rename_i hpart
      rw [if_neg hpart]
      cases hlocate : e.locate true (before ++ part) with
      | error f => rw [hlocate] at hmake; exact absurd hmake (by simp [bind, Except.bind])
      | ok p =>
        rw [hlocate] at hmake
        rw [locate_mono h.ways hlocate]
        simp only [bind, Except.bind] at hmake ⊢
        cases hnode : e.node? p with
        | none =>
          rw [hnode] at hmake
          simp only at hmake
          have hnil : p ≠ [] := by
            rintro rfl
            exact absurd hnode (by simp)
          -- what was made is still there in the end, so it is in no store
          have hfurnished := Furnished.makeParts hmake
          obtain ⟨hp, hplain⟩ := hapart p (hfurnished.ways.directory p ⟨_, by rw [node?_put hnil, if_pos rfl]⟩)
          have hplain : ¬ d.IsScratch p := fun hscratch =>
            hplain ((isScratch_congr hfurnished.process).mpr (h.isScratch.mp hscratch))
          rw [(h.free hp hplain).mpr hnode]
          obtain ⟨d', hmade, halike, hstores⟩ := makeParts hapart (h.put hp hplain hnil rfl) hmake
          refine ⟨d', hmade, halike, fun q hq => ?_⟩
          rw [hstores q hq, node?_put hnil, if_neg]
          rintro rfl
          exact absurd (hp.symm.trans hq) (by simp)
        | some n =>
          rw [hnode] at hmake
          cases n with
          | directory mode =>
            obtain ⟨mode', hd⟩ := h.directory ⟨mode, hnode⟩
            rw [hd]
            exact makeParts hapart h hmake
          | file _ _ _ => exact absurd hmake (by simp)
          | link _ => exact absurd hmake (by simp)

theorem makeDirectory (h : Alike m stores d e) (hmake : e.makeDirectory path = .ok e')
    (hapart : ∀ q, e'.IsDirectory q → Disk.isApart stores q ∧ ¬ e'.IsScratch q) :
    ∃ d', d.makeDirectory path = .ok d' ∧ Alike m stores d' e' ∧
      ∀ q, Disk.isApart stores q = false → d'.node? q = d.node? q := by
  rw [Disk.makeDirectory] at hmake ⊢
  split at hmake
  · rename_i hempty
    obtain rfl := Except.ok.inj hmake
    rw [if_pos hempty]
    exact ⟨d, rfl, h, fun _ _ => rfl⟩
  · rename_i hpath
    rw [if_neg hpath]
    exact makeParts hapart h hmake

end Alike

end Disk

end LogHygiene
