import LogHygiene.Proofs.Disk.ByHand
import Mathlib.Data.Set.Insert

/-!
# A disk that is thinned out

What a store does to a disk, whatever its index says, is of two kinds: it removes what some paths lead to, and it puts
one file in place again and again. `Thinned` says how far the disk can come from the first one by that.

> **Where a path leads on a disk that was thinned out, it led on the disk from before** (`Thinned.locate_back`), so
> nothing is gone but what one of the paths led to at the beginning.

The way back is not the way forth: a link that was removed may have been on the way to something else, and that is
still there then. If no path leads to a link, what the paths led to is gone, all of it (`Thinned.gone`).

A disk is taken to be one on which everything is in a directory (`Rooted`), and nothing but a directory has the name of
a scratch file (`Bare`), since a file or a link with such a name would be destroyed.
-/

set_option autoImplicit false

namespace LogHygiene

namespace Disk

variable {d d' : Disk} {p q : Place} {path : String} {whole : Bool}

/-! ## Everything is in a directory -/

/-- Below what is not a directory nothing is. -/
def Rooted (d : Disk) : Prop := ∀ p q, q ≠ [] → d.node? (p ++ q) ≠ none → d.IsDirectory p

theorem isDirectory_top (d : Disk) : d.IsDirectory [] := ⟨_, node?_top d⟩

theorem IsDirectory.node?_ne_none (h : d.IsDirectory p) : d.node? p ≠ none := by
  obtain ⟨mode, hmode⟩ := h
  rw [hmode]
  exact Option.some_ne_none _

namespace Rooted

/-- It is enough to look at what is on the disk. -/
theorem of_nodes (h : ∀ x ∈ d.nodes, ∀ n < x.1.length, d.IsDirectory (x.1.take n)) : d.Rooted := by
  intro p q hq hnode
  have hpos := List.length_pos_of_ne_nil hq
  obtain ⟨n, hn⟩ := Option.ne_none_iff_exists'.mp hnode
  have hdir := h _ (mem_nodes_of_node? (by simp [hq]) hn) p.length (by rw [List.length_append]; omega)
  rwa [List.take_left] at hdir

theorem directory_dropLast (h : d.Rooted) (hp : d.node? p ≠ none) : d.IsDirectory p.dropLast := by
  rcases List.eq_nil_or_concat p with rfl | ⟨front, name, rfl⟩
  · exact d.isDirectory_top
  · rw [List.concat_eq_append] at hp ⊢
    rw [List.dropLast_concat]
    exact h front [name] (by simp) hp

/-- Each front of a place is a directory, if its longest one is. -/
theorem directory_of_dropLast (h : d.Rooted) (hq : q ≠ []) (hlast : d.IsDirectory (p ++ q).dropLast) :
    d.IsDirectory p := by
  rw [List.dropLast_append_of_ne_nil hq] at hlast
  by_cases hrest : q.dropLast = []
  · rwa [hrest, List.append_nil] at hlast
  · exact h p _ hrest hlast.node?_ne_none

/-- Taking away what is not a directory takes nothing else away. -/
theorem node?_erase (h : d.Rooted) (hp : ¬ d.IsDirectory p) (q : Place) :
    (d.erase p).node? q = if q = p then none else d.node? q := by
  refine node?_erase_of_below ?_ (fun r hr => ?_) q
  · rintro rfl
    exact hp d.isDirectory_top
  · by_contra hnode
    exact hp (h p r hr hnode)

theorem put_directory (h : d.Rooted) (hfree : d.node? p = none) (hlast : d.IsDirectory p.dropLast) (mode : Nat) :
    (d.put p (.directory mode)).Rooted := by
  have hnil : p ≠ [] := by
    rintro rfl
    exact d.isDirectory_top.node?_ne_none hfree
  have hways : Ways d (d.put p (.directory mode)) := .put_directory hnil hfree
  intro a r hr hnode
  refine hways.directory a ?_
  rw [node?_put hnil] at hnode
  split at hnode
  · rename_i hplace
    exact h.directory_of_dropLast hr (hplace.symm ▸ hlast)
  · exact h a r hr hnode

end Rooted

/-! ## Where new things go -/

/-- A way with a last step ends in a directory, at something or at nothing. -/
theorem Follows.directory_dropLast {links : Nat} {at_ goal : Place} {parts : List String} (hrooted : d.Rooted)
    (h : Follows d whole links at_ parts goal) (hparts : parts ≠ []) : d.IsDirectory goal.dropLast := by
  induction h with
  | stop => exact absurd rfl hparts
  | @stay _ at_ _ _ rest hdir _ hrest ih =>
    by_cases hend : rest = []
    · subst hend
      cases hrest
      exact hrooted.directory_dropLast hdir.node?_ne_none
    · exact ih hend
  | @up _ at_ _ rest hdir hrest ih =>
    by_cases hend : rest = []
    · subst hend
      cases hrest
      exact hrooted.directory_dropLast (hrooted.directory_dropLast hdir.node?_ne_none).node?_ne_none
    · exact ih hend
  | @down _ at_ _ part rest hdir _ _ hrest ih =>
    by_cases hend : rest = []
    · subst hend
      cases hrest
      rwa [List.dropLast_concat]
    · exact ih hend
  | link _ _ _ _ _ ih => exact ih (by simp [parts_ne_nil])
  | atLink hdir _ _ _ => rwa [List.dropLast_concat]

theorem Rooted.makeParts : ∀ {parts : List String} {before : String} {d : Disk},
    d.Rooted → d.makeParts before parts = .ok d' → d'.Rooted
  | [], _, d, h, hmake => by
    obtain rfl := Except.ok.inj hmake
    exact h
  | _ :: _, _, d, h, hmake => by
    obtain ⟨mid, hrest, rfl | ⟨p, hlocate, hnone, rfl⟩⟩ := makeParts_step hmake
    · exact Rooted.makeParts h hrest
    · have hlast := (locate_eq_ok.mp hlocate).2.directory_dropLast h (parts_ne_nil _)
      exact Rooted.makeParts (h.put_directory hnone hlast _) hrest

theorem Rooted.makeDirectory (h : d.Rooted) (hmake : d.makeDirectory path = .ok d') : d'.Rooted := by
  rw [Disk.makeDirectory] at hmake
  split at hmake
  · obtain rfl := Except.ok.inj hmake
    exact h
  · exact h.makeParts hmake

/-! ## Removing, whether it can be or not -/

/-- The disk after somebody tried to remove what a path leads to. -/
def without (d : Disk) (path : String) : Disk :=
  match d.remove path with
  | .ok d' => d'
  | .error _ => d

theorem without_cases (d : Disk) (path : String) :
    (d.without path = d ∧ ∀ q, d.locate false path = .ok q → d.node? q = none ∨ d.IsDirectory q) ∨
    ∃ q, d.locate false path = .ok q ∧ ¬ d.IsDirectory q ∧ d.without path = d.erase q := by
  rw [without, remove]
  cases hlocate : d.locate false path with
  | error f => exact .inl ⟨rfl, fun q hq => absurd hq (by simp)⟩
  | ok q =>
    simp only [bind, Except.bind]
    cases hnode : d.node? q with
    | none => exact .inl ⟨rfl, fun r hr => .inl (Except.ok.inj hr ▸ hnode)⟩
    | some n =>
      cases n with
      | directory mode => exact .inl ⟨rfl, fun r hr => .inr ⟨mode, Except.ok.inj hr ▸ hnode⟩⟩
      | file _ _ _ =>
        refine .inr ⟨q, rfl, ?_, rfl⟩
        rintro ⟨mode, hmode⟩
        exact absurd (hnode.symm.trans hmode) (by simp)
      | link _ =>
        refine .inr ⟨q, rfl, ?_, rfl⟩
        rintro ⟨mode, hmode⟩
        exact absurd (hnode.symm.trans hmode) (by simp)

/-! ## Putting in place, where it can be -/

theorem placeFor_iff : d.placeFor path = .ok p ↔ d.locate false path = .ok p ∧ d.IsDirectory p.dropLast := by
  rw [placeFor]
  cases hlocate : d.locate false path with
  | error f => simp [bind, Except.bind]
  | ok q =>
    simp only [bind, Except.bind, Except.ok.injEq]
    constructor
    · intro h
      split at h
      · rename_i mode hmode
        obtain rfl := Except.ok.inj h
        exact ⟨rfl, mode, hmode⟩
      · exact absurd h (by simp)
    · rintro ⟨rfl, mode, hmode⟩
      rw [hmode]
      rfl

/-! ## Thinning out -/

/-- None of some paths leads to a link, and no more does the path of the index. -/
def Unlinked (d : Disk) (index : String) (named : Set String) : Prop :=
  ∀ path, path = index ∨ path ∈ named → ∀ q, d.locate false path = .ok q → ∀ t, ¬ d.IsLink q t

/-- The second disk is the first one without what some paths led to there, and with a file at the place of the index
that may be another one than before. -/
structure Thinned (d : Disk) (index : String) (named : Set String) (d' : Disk) : Prop where
  here : d'.here = d.here
  process : d'.process = d.process
  directory : ∀ q, d'.IsDirectory q ↔ d.IsDirectory q
  link : ∀ q t, d'.IsLink q t → d.IsLink q t
  node? : ∀ q, d'.node? q = d.node? q ∨ (d'.node? q = none ∧ ∃ path ∈ named, d.locate false path = .ok q) ∨
    (d.placeFor index = .ok q ∧ d'.IsFileAt q)
  gone : Unlinked d index named → ∀ path ∈ named, ∀ q, d.locate false path = .ok q →
    d'.node? q = none ∨ d.IsDirectory q ∨ d.placeFor index = .ok q

variable {index : String} {named : Set String}

theorem Unlinked.subset {fewer : Set String} (h : Unlinked d index named) (hfewer : fewer ⊆ named) :
    Unlinked d index fewer := fun path hpath => h path (hpath.imp_right fun hin => hfewer hin)

namespace Thinned

theorem refl (d : Disk) (index : String) : Thinned d index ∅ d where
  here := rfl
  process := rfl
  directory _ := .rfl
  link _ _ h := h
  node? _ := .inl rfl
  gone _ _ hpath := absurd hpath (Set.notMem_empty _)

/-- **Where a path leads now, it led before.** -/
theorem locate_back (h : Thinned d index named d') (hlocate : d'.locate false path = .ok q) :
    d.locate false path = .ok q := by
  obtain ⟨hpath, hfollows⟩ := locate_eq_ok.mp hlocate
  rw [startOf, h.here] at hfollows
  exact locate_eq_ok.mpr ⟨hpath, hfollows.back (fun q => (h.directory q).mp) h.link (by simp)⟩

theorem placeFor_back (h : Thinned d index named d') (hplace : d'.placeFor path = .ok q) :
    d.placeFor path = .ok q := by
  obtain ⟨hlocate, hlast⟩ := placeFor_iff.mp hplace
  exact placeFor_iff.mpr ⟨h.locate_back hlocate, (h.directory _).mp hlast⟩

theorem rooted (h : Thinned d index named d') (hrooted : d.Rooted) : d'.Rooted := by
  intro p q hq hnode
  refine (h.directory p).mpr ?_
  rcases h.node? (p ++ q) with hsame | ⟨hnone, -⟩ | ⟨hplace, -⟩
  · exact hrooted p q hq (hsame ▸ hnode)
  · exact absurd hnone hnode
  · exact hrooted.directory_of_dropLast hq (placeFor_iff.mp hplace).2

/-- If the index has no such name, still nothing but a directory has the name of a scratch file. -/
theorem bare (h : Thinned d index named d') (hbare : d.Bare)
    (hindex : ∀ q, d.placeFor index = .ok q → ¬ d.IsScratch q) :
    d'.Bare := by
  intro q hq
  rw [isScratch_congr h.process] at hq
  rcases h.node? q with hsame | ⟨hnone, -⟩ | ⟨hplace, -⟩
  · rw [hsame, h.directory]
    exact hbare q hq
  · exact .inl hnone
  · exact absurd hq (hindex q hplace)

/-- If no path leads to a link, the ways are the same. -/
theorem ways (h : Thinned d index named d') (hunlinked : Unlinked d index named) : Ways d d' := by
  refine ⟨h.here, fun q => (h.directory q).mpr, fun q t => ⟨h.link q t, fun ht => ?_⟩⟩
  rcases h.node? q with hsame | ⟨-, path, hpath, hlocate⟩ | ⟨hplace, -⟩
  · exact hsame.trans ht
  · exact absurd ht (hunlinked path (.inr hpath) q hlocate t)
  · exact absurd ht (hunlinked index (.inl rfl) q (placeFor_eq_ok hplace).1 t)

/-- Another disk with the same things on it. -/
theorem congr {e : Disk} (h : Thinned d index named d') (hhere : e.here = d'.here) (hprocess : e.process = d'.process)
    (hnode : ∀ q, e.node? q = d'.node? q) : Thinned d index named e where
  here := hhere.trans h.here
  process := hprocess.trans h.process
  directory q := by
    rw [IsDirectory, hnode]
    exact h.directory q
  link q t := by
    rw [IsLink, hnode]
    exact h.link q t
  node? q := by
    rw [IsFileAt, hnode]
    exact h.node? q
  gone hunlinked path hpath q hq := by
    rw [hnode]
    exact h.gone hunlinked path hpath q hq

theorem node?_insert (h : Thinned d index named d') (path : String) (q : Place) : d'.node? q = d.node? q ∨
    (d'.node? q = none ∧ ∃ other ∈ insert path named, d.locate false other = .ok q) ∨
    (d.placeFor index = .ok q ∧ d'.IsFileAt q) := by
  rcases h.node? q with hsame | ⟨hnone, other, hother, hq⟩ | hput
  · exact .inl hsame
  · exact .inr (.inl ⟨hnone, other, Set.mem_insert_of_mem _ hother, hq⟩)
  · exact .inr (.inr hput)

/-- What one more path leads to is removed. -/
theorem erase (h : Thinned d index named d') (hrooted : d.Rooted) (hlocate : d'.locate false path = .ok p)
    (hdir : ¬ d'.IsDirectory p) : Thinned d index (insert path named) (d'.erase p) := by
  have hnode := (h.rooted hrooted).node?_erase hdir
  refine ⟨h.here, h.process, fun q => ?_, fun q t ht => ?_, fun q => ?_, fun hunlinked other hother q hq => ?_⟩
  · refine Iff.trans ?_ (h.directory q)
    rw [IsDirectory, IsDirectory, hnode]
    split
    · rename_i hqp
      refine ⟨?_, fun hp => absurd (hqp ▸ hp) hdir⟩
      rintro ⟨mode, hmode⟩
      exact absurd hmode (by simp)
    · rfl
  · rw [IsLink, hnode] at ht
    split at ht
    · exact absurd ht (by simp)
    · exact h.link q t ht
  · rw [IsFileAt, hnode]
    split
    · rename_i hqp
      exact .inr (.inl ⟨rfl, path, Set.mem_insert _ _, hqp ▸ h.locate_back hlocate⟩)
    · exact h.node?_insert path q
  · rw [hnode]
    split
    · exact .inl rfl
    · rename_i hqp
      rcases Set.mem_insert_iff.mp hother with rfl | hother
      · exact absurd (Except.ok.inj (hq.symm.trans (h.locate_back hlocate))) hqp
      · exact h.gone (hunlinked.subset (Set.subset_insert _ _)) other hother q hq

/-- What one more path leads to cannot be removed, since it is a directory or nothing. -/
theorem idle (h : Thinned d index named d')
    (hidle : ∀ q, d'.locate false path = .ok q → d'.node? q = none ∨ d'.IsDirectory q) :
    Thinned d index (insert path named) d' := by
  refine ⟨h.here, h.process, h.directory, h.link, h.node?_insert path, fun hunlinked other hother q hq => ?_⟩
  have hfewer := hunlinked.subset (Set.subset_insert _ _)
  rcases Set.mem_insert_iff.mp hother with rfl | hother
  · exact (hidle q (locate_mono (h.ways hfewer) hq)).imp_right fun hdir => .inl ((h.directory q).mp hdir)
  · exact h.gone hfewer other hother q hq

/-- **Somebody tries to remove what one more path leads to.** -/
theorem without (h : Thinned d index named d') (hrooted : d.Rooted) (path : String) :
    Thinned d index (insert path named) (d'.without path) := by
  rcases d'.without_cases path with ⟨hsame, hidle⟩ | ⟨p, hlocate, hdir, herased⟩
  · rw [hsame]
    exact h.idle hidle
  · rw [herased]
    exact h.erase hrooted hlocate hdir

/-- **Somebody tries to put the index in place.** -/
theorem replace {m : Mishaps} (h : Thinned d index named d') (hbare : d'.Bare) (hdiscard : m.fault .discard = none)
    (body : Bytes) : Thinned d index named (d'.replace m index body).2 := by
  have hreplaced := hbare.replaced m index body
  have hhere := hreplaced.here
  have hprocess := hreplaced.process
  rcases hreplaced.swapped hbare with ⟨-, p, n, hplace, hdir, ⟨mode, modified, rfl⟩, hswapped⟩ |
    ⟨-, hsame | ⟨-, -, -, -, hfails, -⟩⟩
  rotate_left
  · exact h.congr hhere hprocess hsame
  · exact absurd hdiscard hfails
  · refine ⟨hhere.trans h.here, hprocess.trans h.process, fun q => ?_, fun q t ht => ?_, fun q => ?_,
      fun hunlinked path hpath q hq => ?_⟩
    all_goals by_cases hqp : q = p
    · subst hqp
      refine ⟨?_, fun hq => absurd ((h.directory q).mpr hq) hdir⟩
      rintro ⟨mode, hmode⟩
      exact absurd (hswapped.there.symm.trans hmode) (by simp)
    · rw [IsDirectory, hswapped.others q hqp]
      exact h.directory q
    · subst hqp
      exact absurd (hswapped.there.symm.trans ht) (by simp)
    · rw [IsLink, hswapped.others q hqp] at ht
      exact h.link q t ht
    · subst hqp
      exact .inr (.inr ⟨h.placeFor_back hplace, _, _, _, hswapped.there⟩)
    · rw [IsFileAt, hswapped.others q hqp]
      exact h.node? q
    · subst hqp
      exact .inr (.inr (h.placeFor_back hplace))
    · rw [hswapped.others q hqp]
      exact h.gone hunlinked path hpath q hq

end Thinned

end Disk

end LogHygiene
