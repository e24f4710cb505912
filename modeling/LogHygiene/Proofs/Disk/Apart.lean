import LogHygiene.Proofs.Disk.Renewal

/-!
# Two disks that differ below some places

One disk has stores and the other one has not. Apart from what is below the places of the stores they hold
the same, in the same order, though maybe written at other times (`Alike`). So

> **a path that leads to a file on the disk without stores leads to the same file on the other one, and
> replacing the file does the same to both** (`Alike.replaceable`, `Alike.replace`).

The other direction does not hold: the directories of a store are there to be passed, on the one disk only.

Scratch files have other names on the two disks, since a store puts files in place too. So nothing is said about
places that have the name of one, but that no more than a file that nobody could remove is there.
-/

set_option autoImplicit false

namespace LogHygiene

/-- What is compared of a node: not when it was written, and its permissions only if scratch files can be removed,
since one that stays behind is opened with those that it has. -/
def DiskNode.agreed (m : Mishaps) : DiskNode → DiskNode
  | file body mode _ => file body (if (m.fault .discard).isSome then 0 else mode) 0
  | n => n

namespace Disk

variable {d e d' e' : Disk} {stores : List Place} {path : String} {p q r : Place} {body : Bytes} {m : Mishaps}

/-! ## Below a place -/

/-- Whether a place is in a directory, or in one below it. -/
def isBelow (p q : Place) : Bool := !q.isEmpty && p.isPrefixOf q.dropLast

theorem isBelow_iff : isBelow p q ↔ ∃ r, r ≠ [] ∧ q = p ++ r := by
  simp only [isBelow, Bool.and_eq_true, Bool.not_eq_true', List.isPrefixOf_iff_prefix]
  constructor
  · rintro ⟨hq, r, hr⟩
    have hq : q ≠ [] := by simpa using hq
    refine ⟨r ++ [q.getLast hq], by simp, ?_⟩
    rw [← List.append_assoc, hr, List.dropLast_append_getLast hq]
  · rintro ⟨r, hr, rfl⟩
    refine ⟨by simp [hr], ?_⟩
    rw [List.dropLast_append_of_ne_nil hr]
    exact List.prefix_append _ _

/-- Whether a place is apart from what is below the places of stores. -/
def isApart (stores : List Place) (q : Place) : Bool := stores.all fun p => !isBelow p q

theorem isApart_iff : isApart stores q ↔ ∀ p ∈ stores, ¬ isBelow p q := by simp [isApart]

theorem not_isApart_iff : isApart stores q = false ↔ ∃ p ∈ stores, ∃ r, r ≠ [] ∧ q = p ++ r := by
  rw [← Bool.not_eq_true, isApart_iff]
  simp only [not_forall, not_not, isBelow_iff, exists_prop]

/-- Who is beside one that is apart is apart too. -/
theorem isApart_beside (hq : q ≠ []) (h : isApart stores q) (name : String) :
    isApart stores (q.dropLast ++ [name]) := by
  rw [isApart_iff] at h ⊢
  intro p hp hbelow
  refine h p hp ?_
  simp only [isBelow, List.dropLast_concat, Bool.and_eq_true] at hbelow ⊢
  exact ⟨by simpa using hq, hbelow.2⟩

/-- So is the directory that it is in. -/
theorem isApart_dropLast (h : isApart stores q) : isApart stores q.dropLast := by
  rw [isApart_iff] at h ⊢
  intro p hp hbelow
  obtain ⟨r, hr, hq⟩ := isBelow_iff.mp hbelow
  refine h p hp ?_
  simp only [isBelow, Bool.and_eq_true, Bool.not_eq_true', List.isPrefixOf_iff_prefix]
  refine ⟨?_, hq ▸ List.prefix_append _ _⟩
  have hne : q.dropLast ≠ [] := by rw [hq]; simp [hr]
  cases q with
  | nil => exact absurd rfl hne
  | cons _ _ => rfl

/-! ## Changes below a place -/

/-- The second disk is the first but for what is below a place. -/
structure Within (p : Place) (d d' : Disk) : Prop where
  here : d'.here = d.here
  process : d'.process = d.process
  nodes : (d'.nodes.filter fun x => !isBelow p x.1) = d.nodes.filter fun x => !isBelow p x.1

namespace Within

theorem refl (p : Place) (d : Disk) : Within p d d := ⟨rfl, rfl, rfl⟩

theorem trans {d'' : Disk} (h : Within p d d') (h' : Within p d' d'') : Within p d d'' :=
  ⟨h'.here.trans h.here, h'.process.trans h.process, h'.nodes.trans h.nodes⟩

theorem later (h : Within p d d') (clock : Instant) (writes : UInt64) : Within p d (d'.later clock writes) :=
  ⟨h.here, h.process, h.nodes⟩

theorem put (d : Disk) (hq : isBelow p q) (n : DiskNode) : Within p d (d.put q n) where
  here := rfl
  process := rfl
  nodes := by
    simp only [Disk.put, List.filter_cons, hq, Bool.not_true, Bool.false_eq_true, if_false, List.filter_filter]
    refine List.filter_congr fun x _ => ?_
    by_cases hx : x.1 = q
    · simp [hx, hq]
    · simp [hx]

theorem clear (d : Disk) (hq : isBelow p q) : Within p d (d.clear q) where
  here := rfl
  process := rfl
  nodes := by
    simp only [Disk.clear, List.filter_filter]
    refine List.filter_congr fun x _ => ?_
    by_cases hx : x.1 = q
    · simp [hx, hq]
    · simp [hx]

theorem erase (d : Disk) (hq : isBelow p q) : Within p d (d.erase q) where
  here := rfl
  process := rfl
  nodes := by
    obtain ⟨r, hr, rfl⟩ := isBelow_iff.mp hq
    simp only [Disk.erase, List.filter_filter]
    refine List.filter_congr fun x _ => ?_
    by_cases hx : isBelow p x.1
    · simp [hx]
    · have hprefix : (p ++ r).isPrefixOf x.1 = false := by
        rw [← Bool.not_eq_true, List.isPrefixOf_iff_prefix]
        rintro ⟨s, hs⟩
        exact hx (isBelow_iff.mpr ⟨r ++ s, by simp [hr], by rw [← hs, List.append_assoc]⟩)
      simp [hx, hprefix]

/-- What is not below the place is as it was. -/
theorem node? (h : Within p d d') (hq : isBelow p q = false) : d'.node? q = d.node? q := by
  have hlookup := congrArg (List.lookup q) h.nodes
  rw [lookup_filter (fun q => !isBelow p q), lookup_filter (fun q => !isBelow p q), hq] at hlookup
  rw [Disk.node?, Disk.node?]
  split
  · rfl
  · simpa using hlookup

end Within

/-! ## Disks that are alike -/

open Classical in
/-- Whether a place is apart from the stores and has not the name of a scratch file. -/
noncomputable def isCompared (process : Nat) (stores : List Place) (q : Place) : Bool :=
  isApart stores q && !decide (IsScratchName process (q.getLastD ""))

theorem isCompared_iff : isCompared d.process stores q = true ↔ isApart stores q ∧ ¬ d.IsScratch q := by
  simp [isCompared, IsScratch]

/-- What is compared. -/
noncomputable def apart (d : Disk) (m : Mishaps) (stores : List Place) : List (Place × DiskNode) :=
  (d.nodes.filter fun x => isCompared d.process stores x.1).map fun x => (x.1, x.2.agreed m)

/-- The first disk has stores, the second one has not, and otherwise they are the same. -/
structure Alike (m : Mishaps) (stores : List Place) (d e : Disk) : Prop where
  here : d.here = e.here
  process : d.process = e.process
  nodes : d.apart m stores = e.apart m stores
  bare : ∀ q, isApart stores q = false → e.node? q = none
  links : ∀ q t, d.IsLink q t → isApart stores q
  scratch : ∀ q, isApart stores q → d.IsScratch q → Cleared m d q ∧ Cleared m e q

theorem node?_agreed (hq : isApart stores q) (hplain : ¬ d.IsScratch q) :
    (d.node? q).map (DiskNode.agreed m) =
      if q.isEmpty then some (.directory newDirectoryMode) else (d.apart m stores).lookup q := by
  rw [node?, apart, lookup_map, lookup_filter (isCompared d.process stores), if_pos (isCompared_iff.mpr ⟨hq, hplain⟩)]
  split <;> rfl

theorem apart_put (hp : isApart stores p) (hplain : ¬ d.IsScratch p) (n : DiskNode) :
    (d.put p n).apart m stores = (p, n.agreed m) :: (d.apart m stores).filter (·.1 != p) := by
  have hkeep : isCompared d.process stores p = true := isCompared_iff.mpr ⟨hp, hplain⟩
  simp only [apart, put, List.filter_cons, hkeep, if_true, List.map_cons, List.filter_map, List.filter_filter]
  congr 2
  exact List.filter_congr fun x _ => Bool.and_comm _ _

/-- What happens at the place of a scratch file is not compared. -/
theorem apart_clear (hq : d.IsScratch q) : (d.clear q).apart m stores = d.apart m stores := by
  have hno : isCompared d.process stores q = false := by
    rw [← Bool.not_eq_true, isCompared_iff]
    exact fun h => h.2 hq
  simp only [apart, clear, List.filter_filter]
  congr 1
  refine List.filter_congr fun x _ => ?_
  by_cases hx : x.1 = q
  · simp [hx, hno]
  · simp [hx]

theorem apart_put_scratch (hq : d.IsScratch q) (n : DiskNode) : (d.put q n).apart m stores = d.apart m stores := by
  have hno : isCompared d.process stores q = false := by
    rw [← Bool.not_eq_true, isCompared_iff]
    exact fun h => h.2 hq
  rw [← apart_clear (m := m) hq]
  simp only [apart, put, clear, List.filter_cons, hno, Bool.false_eq_true, if_false]

theorem agreed_eq_link {n : DiskNode} {t : String} (h : n.agreed m = .link t) : n = .link t := by
  cases n with
  | file _ _ _ => exact absurd h (by simp [DiskNode.agreed])
  | directory _ => exact absurd h (by simp [DiskNode.agreed])
  | link _ => exact h

theorem agreed_eq_directory {n : DiskNode} {mode : Nat} (h : n.agreed m = .directory mode) : n = .directory mode := by
  cases n with
  | file _ _ _ => exact absurd h (by simp [DiskNode.agreed])
  | directory _ => exact h
  | link _ => exact absurd h (by simp [DiskNode.agreed])

namespace Alike

theorem isScratch (h : Alike m stores d e) : d.IsScratch q ↔ e.IsScratch q := isScratch_congr h.process

theorem node? (h : Alike m stores d e) (hq : isApart stores q) (hplain : ¬ d.IsScratch q) :
    (d.node? q).map (DiskNode.agreed m) = (e.node? q).map (DiskNode.agreed m) := by
  rw [node?_agreed hq hplain, node?_agreed hq fun hscratch => hplain (h.isScratch.mpr hscratch), h.nodes]

/-- If scratch files can be removed, they are the same at every place that is apart. -/
theorem node?_of_discard (h : Alike m stores d e) (hq : isApart stores q) (hdiscard : m.fault .discard = none) :
    (d.node? q).map (DiskNode.agreed m) = (e.node? q).map (DiskNode.agreed m) := by
  by_cases hscratch : d.IsScratch q
  · obtain ⟨hd, he⟩ := h.scratch q hq hscratch
    rw [hd.node?_eq_none hdiscard, he.node?_eq_none hdiscard]
  · exact h.node? hq hscratch

/-- What is on the disk without stores is apart from them. -/
theorem isApart (h : Alike m stores d e) (hq : e.node? q ≠ none) : isApart stores q := by
  by_contra hnot
  exact hq (h.bare q (by simpa using hnot))

theorem swept (h : Alike m stores d e) : Swept m e := by
  intro q hq
  by_cases hnone : e.node? q = none
  · exact .inl hnone
  · exact (h.scratch q (h.isApart hnone) (h.isScratch.mpr hq)).2

theorem isDirectory_iff (h : Alike m stores d e) (hq : Disk.isApart stores q) : d.IsDirectory q ↔ e.IsDirectory q := by
  by_cases hscratch : d.IsScratch q
  · obtain ⟨hd, he⟩ := h.scratch q hq hscratch
    exact iff_of_false hd.not_isDirectory he.not_isDirectory
  have hsame := h.node? hq hscratch
  constructor
  · rintro ⟨mode, hd⟩
    rw [hd] at hsame
    obtain ⟨n, hn, heq⟩ := Option.map_eq_some_iff.mp hsame.symm
    exact ⟨mode, by rw [hn, agreed_eq_directory heq]⟩
  · rintro ⟨mode, he⟩
    rw [he] at hsame
    obtain ⟨n, hn, heq⟩ := Option.map_eq_some_iff.mp hsame
    exact ⟨mode, by rw [hn, agreed_eq_directory heq]⟩

theorem directory (h : Alike m stores d e) (hq : e.IsDirectory q) : d.IsDirectory q := by
  refine (h.isDirectory_iff (h.isApart ?_)).mpr hq
  obtain ⟨mode, hq⟩ := hq
  rw [hq]
  simp

theorem isLink_iff (h : Alike m stores d e) {t : String} : d.IsLink q t ↔ e.IsLink q t := by
  by_cases hq : Disk.isApart stores q
  · by_cases hscratch : d.IsScratch q
    · obtain ⟨hd, he⟩ := h.scratch q hq hscratch
      exact iff_of_false (hd.not_isLink t) (he.not_isLink t)
    have hsame := h.node? hq hscratch
    constructor
    · intro hd
      rw [hd] at hsame
      obtain ⟨n, hn, heq⟩ := Option.map_eq_some_iff.mp hsame.symm
      rw [IsLink, hn, agreed_eq_link heq]
    · intro he
      rw [he] at hsame
      obtain ⟨n, hn, heq⟩ := Option.map_eq_some_iff.mp hsame
      rw [IsLink, hn, agreed_eq_link heq]
  · refine iff_of_false (fun hd => hq (h.links q t hd)) fun he => hq (h.isApart ?_)
    rw [he]
    simp

theorem ways (h : Alike m stores d e) : Ways e d :=
  ⟨h.here, fun _ => h.directory, fun _ _ => h.isLink_iff⟩

theorem free (h : Alike m stores d e) (hq : Disk.isApart stores q) (hplain : ¬ d.IsScratch q) :
    d.node? q = none ↔ e.node? q = none := by
  have hsame := h.node? hq hplain
  constructor
  · intro hd
    rwa [hd, Option.map_none, eq_comm, Option.map_eq_none_iff] at hsame
  · intro he
    rwa [he, Option.map_none, Option.map_eq_none_iff] at hsame

/-- A file on one disk is on the other one, maybe written at another time. -/
theorem file (h : Alike m stores d e) (hplain : ¬ e.IsScratch q) {mode : Nat} {modified : Instant}
    (he : e.node? q = some (.file body mode modified)) :
    ∃ mode' modified', d.node? q = some (.file body mode' modified') ∧ (m.fault .discard = none → mode' = mode) := by
  have hsame := h.node? (h.isApart (by rw [he]; simp)) fun hscratch => hplain (h.isScratch.mp hscratch)
  rw [he] at hsame
  obtain ⟨n, hn, heq⟩ := Option.map_eq_some_iff.mp hsame
  cases n with
  | file body' mode' modified' =>
    obtain ⟨rfl, hmode, -⟩ := DiskNode.file.inj heq
    refine ⟨mode', modified', hn, fun hdiscard => ?_⟩
    simpa [hdiscard] using hmode
  | directory _ => exact absurd heq (by simp [DiskNode.agreed])
  | link _ => exact absurd heq (by simp [DiskNode.agreed])

/-- **A path to a file leads to it on the other disk too.** -/
theorem denotes (h : Alike m stores d e) (hr : e.Denotes path r) (hplain : ¬ e.IsScratch r) : d.Denotes path r := by
  obtain ⟨body, mode, modified, hfile⟩ := hr.file
  obtain ⟨mode', modified', hd, -⟩ := h.file hplain hfile
  exact ⟨locate_mono h.ways hr.locate, body, mode', modified', hd⟩

theorem read (h : Alike m stores d e) (hr : e.Replaceable path r) : d.read path = e.read path := by
  obtain ⟨body, mode, modified, hfile⟩ := hr.file
  obtain ⟨mode', modified', hd, -⟩ := h.file hr.plain hfile
  rw [(h.denotes hr.toDenotes hr.plain).read hd, hr.read hfile]

theorem placeFor (h : Alike m stores d e) (hr : e.Denotes path r) : d.placeFor path = e.placeFor path := by
  obtain ⟨q, hq, hends⟩ := hr.entry
  have hthere : e.node? q ≠ none := by
    rcases hends with rfl | ⟨t, -, hlink, -⟩
    · obtain ⟨body, mode, modified, hfile⟩ := hr.file
      rw [hfile]
      simp
    · rw [hlink]
      simp
  have hdir := h.isDirectory_iff (isApart_dropLast (h.isApart hthere))
  rw [Disk.placeFor, Disk.placeFor, hq, locate_mono h.ways hq]
  simp only [bind, Except.bind]
  split
  · rename_i k hk
    obtain ⟨k', hk'⟩ := hdir.mp ⟨k, hk⟩
    rw [hk']
  · rename_i hno
    split
    · rename_i k hk
      obtain ⟨k', hk'⟩ := hdir.mpr ⟨k, hk⟩
      exact absurd hk' (hno k')
    · rfl

/-- **A file that may be replaced may be replaced on the other disk too.** -/
theorem replaceable (h : Alike m stores d e) (hr : e.Replaceable path r) : d.Replaceable path r where
  toDenotes := h.denotes hr.toDenotes hr.plain
  plain hscratch := hr.plain (h.isScratch.mp hscratch)
  room := by
    simpa only [ScratchRoom, scratchAt_congr h.process, h.placeFor hr.toDenotes] using hr.room

theorem fate (h : Alike m stores d e) (hr : e.Denotes path r) : d.fate m path = e.fate m path := by
  rw [Disk.fate, Disk.fate, h.placeFor hr]
  cases e.placeFor path with
  | error f => rfl
  | ok p =>
    simp only
    rw [scratchAt_congr h.process]

theorem later (h : Alike m stores d e) (clock clock' : Instant) (writes writes' : UInt64) :
    Alike m stores (d.later clock writes) (e.later clock' writes') :=
  ⟨h.here, h.process, h.nodes, h.bare, h.links, h.scratch⟩

/-- What happens below the place of a store happens on one disk only. -/
theorem within (h : Alike m stores d e) (hp : p ∈ stores) (hwithin : Within p d d') (hways : Ways d d') :
    Alike m stores d' e where
  here := hwithin.here.trans h.here
  process := hwithin.process.trans h.process
  nodes := by
    have hkeep : ∀ nodes : List (Place × DiskNode), (nodes.filter fun x => isCompared d.process stores x.1) =
        (nodes.filter fun x => !isBelow p x.1).filter fun x => isCompared d.process stores x.1 := by
      intro nodes
      rw [List.filter_filter]
      refine List.filter_congr fun x _ => ?_
      cases hx : isCompared d.process stores x.1 with
      | false => rfl
      | true => simpa using isApart_iff.mp (isCompared_iff.mp hx).1 p hp
    rw [← h.nodes, apart, apart, hwithin.process, hkeep d'.nodes, hwithin.nodes, ← hkeep]
  bare := h.bare
  links q t hq := h.links q t ((hways.link q t).mp hq)
  scratch q hq hscratch := by
    obtain ⟨hd, he⟩ := h.scratch q hq ((isScratch_congr hwithin.process).mp hscratch)
    exact ⟨hd.congr (hwithin.node? (by simpa using isApart_iff.mp hq p hp)), he⟩

/-- The same is put at a place that is apart. -/
theorem put (h : Alike m stores d e) (hp : Disk.isApart stores p) (hplain : ¬ d.IsScratch p) (hnil : p ≠ [])
    {n n' : DiskNode} (hn : n.agreed m = n'.agreed m) : Alike m stores (d.put p n) (e.put p n') where
  here := h.here
  process := h.process
  nodes := by rw [apart_put hp hplain, apart_put hp fun hscratch => hplain (h.isScratch.mpr hscratch), h.nodes, hn]
  bare q hq := by
    rw [node?_put hnil, if_neg (by rintro rfl; rw [hp] at hq; exact absurd hq (by simp))]
    exact h.bare q hq
  links q t hq := by
    rw [IsLink, node?_put hnil] at hq
    split at hq
    · rename_i heq
      rwa [heq]
    · exact h.links q t hq
  scratch q hq hscratch := by
    obtain ⟨hd, he⟩ := h.scratch q hq hscratch
    have hne : q ≠ p := by
      rintro rfl
      exact hplain hscratch
    exact ⟨hd.congr (by rw [node?_put hnil, if_neg hne]), he.congr (by rw [node?_put hnil, if_neg hne])⟩

end Alike

/-! ## Replacing a file on both -/

/-- A file that is put in place has the permissions of the old one, if no file has the name of the scratch file. -/
theorem Denotes.modeInPlace (h : d.Denotes path r) {old : Bytes} {mode : Nat} {modified : Instant} {s : Place}
    (hnode : d.node? r = some (.file old mode modified)) (hs : s ≠ []) (hfree : d.node? s = none) :
    d.modeInPlace m path s body = m.modeFrom (some mode) newFileMode := by
  have hcleared : Cleared m d s := .inl hfree
  have hrs : r ≠ s := by
    rintro rfl
    exact absurd (hfree.symm.trans hnode) (by simp)
  have hlocate := locate_mono (ways_holding hs hcleared.not_isLink hcleared.not_isDirectory body (d.modeAt s)) h.locate
  have hmode : (d.midway s body).mode? path = some mode := by
    rw [mode?, visit, midway, hlocate]
    simp only [bind, Except.bind, node?_holding hs, if_neg hrs, hnode]
    rfl
  rw [Disk.modeInPlace, hmode, modeAt, hfree]

namespace Replaced

variable {fault : Option FileFault}

/-- What a replacement that does not fail does where it is compared. -/
theorem apart_of_none (h : Replaced m d path body none d') (hplace : d.placeFor path = .ok p) (hp : isApart stores p)
    (hplain : ¬ d.IsScratch p) : ∃ s modified, d.NextScratch path s ∧ d'.apart m stores =
      (p, (DiskNode.file body (d.modeInPlace m path s body) modified).agreed m) ::
        (d.apart m stores).filter (·.1 != p) := by
  cases h with
  | @placed p' s modified clock hplace' hdir hnext hsdir =>
    obtain rfl := Except.ok.inj (hplace.symm.trans hplace')
    refine ⟨s, modified, hnext, ?_⟩
    rw [← apart_clear (m := m) hnext.isScratch]
    exact apart_put hp (d := d.clear s) hplain _

/-- One that fails does nothing there. -/
theorem apart_of_some {f : FileFault} (h : Replaced m d path body (some f) d') :
    d'.apart m stores = d.apart m stores := by
  cases h with
  | same => rfl
  | discarded hnext => exact apart_clear hnext.isScratch
  | left hnext => exact apart_put_scratch hnext.isScratch _

/-- Where the path is apart from the stores, nothing happens in a store. -/
theorem node?_of_not_isApart (h : Replaced m d path body fault d')
    (hp : ∀ p, d.placeFor path = .ok p → p ≠ [] ∧ isApart stores p) (hq : isApart stores q = false) :
    d'.node? q = d.node? q := by
  rcases h.node?_cases q with hsame | ⟨-, hplace, -⟩ | ⟨⟨p, hplace, -, rfl⟩, -⟩
  · exact hsame
  · exact absurd ((hp q hplace).2.symm.trans hq) (by simp)
  · obtain ⟨hnil, hapart⟩ := hp p hplace
    exact absurd ((isApart_beside hnil hapart _).symm.trans hq) (by simp)

end Replaced

namespace Alike

/-- The next scratch file for a path is beside the file, and so it is apart from the stores too. -/
theorem cleared_next (h : Alike m stores d e) (hr : e.Replaceable path r) {s : Place} (hnext : d.NextScratch path s) :
    Cleared m d s := by
  obtain ⟨p, hplace, hshort, hs⟩ := id hnext
  rw [h.placeFor hr.toDenotes] at hplace
  have hp := h.isApart (hr.node?_ne_none hplace)
  exact (h.scratch s (hs ▸ isApart_beside (hr.place_ne_nil hplace) hp _) hnext.isScratch).1

/-- The new file is the same on both disks, as far as it is compared. -/
theorem agreed_file (h : Alike m stores d e) (hr : e.Replaceable path r) {s s' : Place} (hs : Cleared m d s)
    (hnil : s ≠ []) (hs' : Cleared m e s') (hnil' : s' ≠ []) {t t' : Instant} :
    (DiskNode.file body (d.modeInPlace m path s body) t).agreed m =
      (DiskNode.file body (e.modeInPlace m path s' body) t').agreed m := by
  simp only [DiskNode.agreed]
  split
  · rfl
  · rename_i hdiscard
    have hdiscard : m.fault .discard = none := by simpa using hdiscard
    obtain ⟨old, mode, modified, hfile⟩ := hr.file
    obtain ⟨mode', modified', hfile', hmode⟩ := h.file hr.plain hfile
    obtain rfl := hmode hdiscard
    rw [(h.denotes hr.toDenotes hr.plain).modeInPlace hfile' hnil (hs.node?_eq_none hdiscard),
      hr.modeInPlace hfile hnil' (hs'.node?_eq_none hdiscard)]

/-- **Replacing a file comes to the same on both disks**, and leaves the stores alone. -/
theorem replace (h : Alike m stores d e) (hr : e.Replaceable path r) (body : Bytes) :
    (d.replace m path body).1 = (e.replace m path body).1 ∧
      Alike m stores (d.replace m path body).2 (e.replace m path body).2 ∧
      ∀ q, Disk.isApart stores q = false → (d.replace m path body).2.node? q = d.node? q := by
  have hnext : ∀ s, d.NextScratch path s → Cleared m d s := fun s => h.cleared_next hr
  have hnextU : ∀ s, e.NextScratch path s → Cleared m e s := fun s hs => h.swept s hs.isScratch
  have hfault : (d.replace m path body).1 = (e.replace m path body).1 := by
    rw [(h.replaceable hr).replace_fst hnext, hr.replace_fst hnextU, h.fate hr.toDenotes]
  have hd := replaced_of_cleared path body hnext
  have he := replaced_of_cleared path body hnextU
  rw [hfault] at hd ⊢
  generalize (e.replace m path body).1 = fault at hd he
  generalize (d.replace m path body).2 = d' at hd
  generalize (e.replace m path body).2 = e' at he
  -- the file is put at a place that is apart and that no scratch file has
  have hsame := h.placeFor hr.toDenotes
  have hapart : ∀ p, e.placeFor path = .ok p → p ≠ [] ∧ Disk.isApart stores p := fun p hplace =>
    ⟨hr.place_ne_nil hplace, h.isApart (hr.node?_ne_none hplace)⟩
  have hplain : ∀ p, e.placeFor path = .ok p → ¬ e.IsScratch p := fun p => hr.not_isScratch h.swept
  have hstores : ∀ q, Disk.isApart stores q = false → d'.node? q = d.node? q := fun q hq =>
    hd.node?_of_not_isApart (hsame ▸ hapart) hq
  refine ⟨rfl, ⟨?_, ?_, ?_, fun q hq => ?_, fun q t hq => h.links q t (hd.isLink hq), fun q hq hscratch => ?_⟩, hstores⟩
  · rw [hd.here, he.here, h.here]
  · rw [hd.process, he.process, h.process]
  · cases hcases : fault with
    | some f =>
      subst hcases
      rw [hd.apart_of_some, he.apart_of_some, h.nodes]
    | none =>
      subst hcases
      obtain ⟨p, mode, modified, hplace, -⟩ := he.file_of_none rfl
      obtain ⟨-, hp⟩ := hapart p hplace
      have hpplain := hplain p hplace
      obtain ⟨s, t, hs, hdapart⟩ :=
        hd.apart_of_none (hsame ▸ hplace) hp fun hscratch => hpplain (h.isScratch.mp hscratch)
      obtain ⟨s', t', hs', heapart⟩ := he.apart_of_none hplace hp hpplain
      rw [hdapart, heapart, h.nodes, h.agreed_file hr (hnext s hs) hs.ne_nil (hnextU s' hs') hs'.ne_nil]
  · rw [he.node?_of_not_isApart hapart hq, h.bare q hq]
  · have hq' := hd.isScratch.mp hscratch
    obtain ⟨hdq, heq⟩ := h.scratch q hq hq'
    exact ⟨hd.cleared hdq fun _ hplace => hplain q (hsame ▸ hplace) (h.isScratch.mp hq'),
      he.cleared heq fun _ hplace => hplain q hplace (h.isScratch.mp hq')⟩

end Alike

/-! ## Paths that keep leading somewhere -/

/-- A directory is where it was when files are renewed. -/
theorem Renewal.leads {paths : List String} {written : String → Option Bytes} {dir : String}
    (hswept : Swept m d) (hled : AllDenote d paths) (h : Renewal m d paths written e) (hleads : Leads d dir p) :
    Leads e dir p where
  no_zero := hleads.no_zero
  follows := by
    rw [startOf, h.here]
    refine h.follows hswept hled hleads.follows fun _ path hpath _ hdenotes => ?_
    exact hdenotes.file.not_isDirectory hleads.directory
  directory := (h.isDirectory hswept hled p).mpr hleads.directory

/-- A single path to a file is one that leads to a file of its own. -/
theorem Replaceable.targets (h : d.Replaceable path r) : d.Targets [path] where
  replaceable path' hpath' := by
    obtain rfl := List.mem_singleton.mp hpath'
    exact ⟨r, h⟩
  apart path' hpath' path'' hpath'' _ _ _ := by
    rw [List.mem_singleton.mp hpath', List.mem_singleton.mp hpath'']

end Disk

end LogHygiene
