import LogHygiene.Cache.Store
import LogHygiene.Proofs.Cache.Keys
import LogHygiene.Proofs.Disk.Directories
import LogHygiene.Proofs.Disk.Replacement
import LogHygiene.World

/-!
# The directory of a store

A store keeps its files below one place: the index, the directory `blobs`, and in it a file for each entry.
`Stocked` says that nothing else is there, which makes two things certain. A path of the store is located
where its name says, if it is located at all, since no link is on the way (`Stocked.located_index`,
`Stocked.located_blob`). And

> **whatever the store does to a file, one place below its directory changes and the directory is stocked
> as before** (`Stocked.ways`, `Stocked.swapped`),

so every request of a store comes down to one `Disk.Swapped`.
-/

set_option autoImplicit false

namespace LogHygiene

namespace Disk

/-! ## One file, located or not -/

/-- A path leads to a place if it leads anywhere. -/
def Located (d : Disk) (whole : Bool) (path : String) (q : Place) : Prop :=
  ∀ q', d.locate whole path = .ok q' → q' = q

variable {d d' : Disk} {whole : Bool} {dir path : String} {p q : Place} {body : Bytes}

theorem Leads.located {name : String} (whole : Bool) (h : Leads d dir p) (hname : IsFileName name)
    (hlink : ∀ t, ¬ d.IsLink (p ++ [name]) t) : Located d whole (Path.join dir name) (p ++ [name]) := by
  intro q' hq'
  obtain ⟨-, hfollows⟩ := locate_eq_ok.mp hq'
  exact hfollows.unique (h.follows_join hname hlink)

/-- Through a name at which nothing is, a path leads nowhere. -/
theorem Leads.not_located {inner name : String} (h : Leads d dir p) (hinner : IsFileName inner)
    (hname : IsFileName name) (hnone : d.node? (p ++ [inner]) = none) (q' : Place) :
    d.locate whole (Path.join (Path.join dir inner) name) ≠ .ok q' := by
  intro hq'
  obtain ⟨-, hfollows⟩ := locate_eq_ok.mp hq'
  have hlink : ∀ t, ¬ d.IsLink (p ++ [inner]) t := fun t ht => by
    rw [IsLink, hnone] at ht
    exact absurd ht (by simp)
  have hto : Follows d true maxLinks (d.startOf (Path.join dir inner)) (Path.parts (Path.join dir inner))
      (p ++ [inner]) := h.follows_join hinner hlink
  obtain ⟨-, habs, ps, tail, htail, hdir, hjoin⟩ := Path.join_cases (Path.join dir inner) hname.no_slash
  obtain ⟨-, -, ps', tail', -, -, hinnerjoin⟩ := Path.join_cases dir hinner.no_slash
  -- the inner name is a part of its own, so no empty part stands behind it
  obtain rfl : tail = [] := by
    rcases htail with rfl | rfl
    · rfl
    · rw [hinnerjoin] at hdir
      have hlast := (List.append_inj' hdir rfl).2
      exact absurd (List.cons.inj hlast).1 hinner.ne_empty
  rw [List.append_nil] at hdir
  rw [hjoin, startOf, habs] at hfollows
  obtain ⟨r, hr, mode, hmode⟩ := hfollows.front (by simp)
  rw [hdir] at hto
  obtain rfl := hr.unique hto
  rw [hnone] at hmode
  exact absurd hmode (by simp)

/-- What a file is read as is what is in it. -/
theorem Located.of_read (h : Located d true path q) (hread : d.read path = .ok body) :
    ∃ mode modified, d.node? q = some (.file body mode modified) := by
  rw [read, visit] at hread
  simp only [bind, Except.bind] at hread
  cases hlocate : d.locate true path with
  | error f => rw [hlocate] at hread; exact absurd hread (by simp)
  | ok q' =>
    obtain rfl := h q' hlocate
    rw [hlocate] at hread
    simp only at hread
    cases hnode : d.node? q' with
    | none => rw [hnode] at hread; exact absurd hread (by simp)
    | some n =>
      rw [hnode] at hread
      cases n with
      | file b mode modified => exact ⟨mode, modified, by rw [← Except.ok.inj hread]⟩
      | directory _ => exact absurd hread (by simp [pure, Except.pure])
      | link _ => exact absurd hread (by simp [pure, Except.pure])

theorem read_file {mode : Nat} {modified : Instant} (h : d.locate true path = .ok q)
    (hnode : d.node? q = some (.file body mode modified)) : d.read path = .ok body := by
  simp [read, visit, h, hnode, bind, Except.bind, pure, Except.pure]

theorem read_none (h : d.locate true path = .ok q) (hnode : d.node? q = none) :
    d.read path = .error .notFound := by
  simp [read, visit, h, hnode, bind, Except.bind]

/-- Where nothing is below a file, taking it away takes nothing else away. -/
theorem erase_swapped (hq : q ≠ []) (hbelow : ∀ r, r ≠ [] → d.node? (q ++ r) = none) :
    Swapped d q none (d.erase q) where
  here := rfl
  there := by rw [node?_erase d hq, if_pos (List.prefix_refl q)]
  others r hr := by
    rw [node?_erase d hq]
    split
    · rename_i hprefix
      obtain ⟨s, rfl⟩ := hprefix
      exact (hbelow s fun hs => hr (by rw [hs, List.append_nil])).symm
    · rfl

theorem Located.remove (h : Located d false path q) (hq : q ≠ [])
    (hbelow : ∀ r, r ≠ [] → d.node? (q ++ r) = none) (hremove : d.remove path = .ok d') :
    Swapped d q none d' := by
  rw [Disk.remove] at hremove
  simp only [bind, Except.bind] at hremove
  cases hlocate : d.locate false path with
  | error f => rw [hlocate] at hremove; exact absurd hremove (by simp)
  | ok q' =>
    obtain rfl := h q' hlocate
    rw [hlocate] at hremove
    simp only at hremove
    split at hremove
    · exact absurd hremove (by simp)
    · exact absurd hremove (by simp)
    · obtain rfl := Except.ok.inj hremove
      exact erase_swapped hq hbelow

theorem remove_file {mode : Nat} {modified : Instant} (h : d.locate false path = .ok q)
    (hnode : d.node? q = some (.file body mode modified)) : d.remove path = .ok (d.erase q) := by
  simp [Disk.remove, h, hnode, bind, Except.bind, pure, Except.pure]

theorem mem_entries {name : String} : name ∈ d.entries p ↔ ∃ n, (p ++ [name], n) ∈ d.nodes := by
  rw [entries, List.mem_filterMap]
  constructor
  · rintro ⟨⟨q, n⟩, hq, hname⟩
    simp only [Option.ite_none_right_eq_some, Bool.and_eq_true, beq_iff_eq] at hname
    obtain ⟨⟨hdrop, -⟩, hlast⟩ := hname
    rw [← List.dropLast_append_getLast? name hlast, hdrop] at hq
    exact ⟨n, hq⟩
  · rintro ⟨n, hn⟩
    refine ⟨_, hn, ?_⟩
    simp only [List.dropLast_concat, List.getLast?_concat]
    simp

/-- What stands in the row of nodes is at its place, or something in front of it is. -/
theorem node?_isSome {n : DiskNode} (h : (q, n) ∈ d.nodes) : (d.node? q).isSome := by
  rw [node?]
  split
  · rfl
  · cases hlookup : d.nodes.lookup q with
    | some _ => rfl
    | none =>
      have hne := List.lookup_eq_none_iff.mp hlookup _ h
      simp at hne

/-- What is listed is what is in the directory that the path leads to. -/
theorem Located.list (h : Located d true path q) : ∀ name ∈ d.list path, name ∈ d.entries q := by
  intro name hname
  rw [Disk.list, visit] at hname
  simp only [bind, Except.bind] at hname
  cases hlocate : d.locate true path with
  | error f => rw [hlocate] at hname; exact absurd hname (by simp)
  | ok q' =>
    obtain rfl := h q' hlocate
    rw [hlocate] at hname
    simp only at hname
    cases hnode : d.node? q' with
    | none => rw [hnode] at hname; exact absurd hname (by simp)
    | some n =>
      rw [hnode] at hname
      cases n with
      | directory mode => exact hname
      | file _ _ _ => exact absurd hname (by simp [pure, Except.pure])
      | link _ => exact absurd hname (by simp [pure, Except.pure])

end Disk

namespace Cache

open Disk

/-! ## Names -/

theorem blobName_injective {k k' : String} (h : blobName k = blobName k') : k = k' := by
  rw [blobName, blobName, String.append_left_inj] at h
  exact h

theorem isFileName_index : IsFileName "index.json" := ⟨⟨by decide, by decide, by decide, by decide⟩,
  by decide, by decide⟩

theorem isFileName_blobs : IsFileName "blobs" := ⟨⟨by decide, by decide, by decide, by decide⟩,
  by decide, by decide⟩

theorem size_ofHex {cs : List Char} (h : Sha256.IsHex cs) : (String.ofList cs).utf8ByteSize = cs.length := by
  refine size_of_ascii fun c hc => ?_
  obtain ⟨n, hn, rfl⟩ := h c hc
  have hsizes : ∀ n < 16, (Nat.digitChar n).utf8Size = 1 := by decide
  exact hsizes n hn

theorem IsKey.size_blobName {key : String} (h : IsKey key) : (blobName key).utf8ByteSize = 69 := by
  have hsize := size_ofHex h.hex
  rw [String.ofList_toList, h.length] at hsize
  rw [blobName, String.utf8ByteSize_append, hsize]
  rfl

theorem IsKey.isFileName {key : String} (h : IsKey key) : IsFileName (blobName key) := by
  have hsize := h.size_blobName
  have hlong : ∀ {short : String}, short.utf8ByteSize < 69 → blobName key ≠ short := by
    rintro short hshort rfl
    omega
  have hmem : ∀ {c : Char}, (∀ n < 16, c ≠ Nat.digitChar n) → c ∉ ".json".toList →
      c ∉ (blobName key).toList := by
    intro c hhex hjson
    rw [blobName, String.toList_append, List.mem_append]
    exact not_or.mpr ⟨h.hex.not_mem hhex, hjson⟩
  exact ⟨⟨hlong (by decide), hlong (by decide), hlong (by decide), by rw [hsize]; decide⟩,
    hmem (by decide) (by decide), hmem (by decide) (by decide)⟩

/-- The name of a scratch file that a process may have left. -/
structure IsLeftover (name : String) : Prop where
  scratch : ∃ process, IsScratchName process name
  plain : IsFileName name

theorem IsLeftover.starts {name : String} (h : IsLeftover name) : name.toList.head? = some '.' := by
  obtain ⟨process, hscratch⟩ := h.scratch
  exact hscratch.starts

theorem IsKey.not_isLeftover {key : String} (h : IsKey key) : ¬ IsLeftover (blobName key) := by
  intro hleft
  have hstarts := hleft.starts
  rw [blobName, String.toList_append] at hstarts
  cases hkey : key.toList with
  | nil =>
    have hlength := h.length
    rw [hkey] at hlength
    exact absurd hlength (by decide)
  | cons c cs =>
    rw [hkey] at hstarts
    refine absurd (hkey ▸ List.mem_cons_self : c ∈ key.toList) (h.hex.not_mem fun n hn => ?_)
    obtain rfl := Option.some.inj hstarts
    revert n
    decide

/-! ## What a store keeps -/

/-- What may be where below the directory of a store. -/
inductive IsStored : Place → DiskNode → Prop
  | blobs (mode : Nat) : IsStored ["blobs"] (.directory mode)
  | index (body : Bytes) (mode : Nat) (modified : Instant) :
      IsStored ["index.json"] (.file body mode modified)
  | blob {key : String} (hkey : IsKey key) (body : Bytes) (mode : Nat) (modified : Instant) :
      IsStored ["blobs", blobName key] (.file body mode modified)
  | indexScratch {name : String} (hleft : IsLeftover name) (body : Bytes) (mode : Nat) (modified : Instant) :
      IsStored [name] (.file body mode modified)
  | blobScratch {name : String} (hleft : IsLeftover name) (body : Bytes) (mode : Nat) (modified : Instant) :
      IsStored ["blobs", name] (.file body mode modified)

theorem IsStored.eq_blobs {q : Place} {mode : Nat} (h : IsStored q (.directory mode)) : q = ["blobs"] := by
  cases h
  rfl

theorem IsStored.of_blobs {n : DiskNode} (h : IsStored ["blobs"] n) : ∃ mode, n = .directory mode := by
  generalize hq : ["blobs"] = q at h
  cases h with
  | blobs mode => exact ⟨mode, rfl⟩
  | index => exact absurd hq (by decide)
  | indexScratch hleft =>
    obtain rfl := (List.cons.inj hq).1
    exact absurd hleft.starts (by decide)
  | blob | blobScratch => exact absurd hq (by simp)

theorem IsStored.of_blob {name : String} {n : DiskNode} (h : IsStored ["blobs", name] n) :
    (∃ key, IsKey key ∧ name = blobName key) ∨ IsLeftover name := by
  generalize hq : ["blobs", name] = q at h
  cases h with
  | blobs | index | indexScratch => exact absurd hq (by simp)
  | blob hkey => exact .inl ⟨_, hkey, by simpa using hq⟩
  | blobScratch hleft =>
    obtain rfl : name = _ := by simpa using hq
    exact .inr hleft

/-- A directory below which is nothing but what a store keeps. -/
structure Stocked (d : Disk) (dir : String) (p : Place) : Prop where
  leads : Leads d dir p
  inside : ∀ q n, q ≠ [] → d.node? (p ++ q) = some n → IsStored q n

namespace Stocked

variable {d d' : Disk} {dir : String} {p q : Place} {key : String} {n : Option DiskNode}

theorem not_isLink (h : Stocked d dir p) (hq : q ≠ []) (t : String) : ¬ d.IsLink (p ++ q) t := by
  intro hlink
  cases h.inside q _ hq hlink

/-- Nothing is below a file of the store. -/
theorem below (h : Stocked d dir p) (hq : q = ["index.json"] ∨ ∃ name, q = ["blobs", name]) (r : Place)
    (hr : r ≠ []) : d.node? (p ++ q ++ r) = none := by
  cases hnode : d.node? (p ++ q ++ r) with
  | none => rfl
  | some n =>
    rw [List.append_assoc] at hnode
    have hstored := h.inside (q ++ r) n (by simp [hr]) hnode
    obtain ⟨name, rest, rfl⟩ := List.exists_cons_of_ne_nil hr
    rcases hq with rfl | ⟨_, rfl⟩
    · generalize hplace : ["index.json"] ++ name :: rest = place at hstored
      cases hstored <;> simp at hplace
    · generalize hplace : ["blobs", _] ++ name :: rest = place at hstored
      cases hstored <;> simp at hplace

/-- Whatever happens, a directory is stocked if ways lead where they led and what is new in it may be there. -/
theorem changed (h : Stocked d dir p) (hways : Ways d d') (hnew : ∀ q n, q ≠ [] → d'.node? (p ++ q) = some n →
    d.node? (p ++ q) = some n ∨ IsStored q n) : Stocked d' dir p where
  leads := h.leads.mono hways
  inside q n hq hn := (hnew q n hq hn).elim (h.inside q n hq) id

/-- A change to one place below the directory leaves the ways of the disk as they are, if what is there now
may be there and the directory for entries is not what was taken away. -/
theorem ways (h : Stocked d dir p) (hq : q ≠ []) (hswapped : Swapped d (p ++ q) n d')
    (hn : ∀ m, n = some m → IsStored q m) (hkeep : n = none → q ≠ ["blobs"]) : Ways d d' where
  here := hswapped.here
  directory r hr := by
    by_cases hrq : r = p ++ q
    · subst hrq
      obtain ⟨mode, hmode⟩ := hr
      obtain rfl := (h.inside q _ hq hmode).eq_blobs
      cases hnode : n with
      | none => exact absurd rfl (hkeep hnode)
      | some m =>
        obtain ⟨mode', rfl⟩ := (hn m hnode).of_blobs
        exact ⟨mode', by rw [hswapped.there, hnode]⟩
    · rwa [IsDirectory, hswapped.others r hrq]
  link r t := by
    by_cases hrq : r = p ++ q
    · subst hrq
      refine ⟨fun ht => ?_, fun ht => absurd ht (h.not_isLink hq t)⟩
      rw [IsLink, hswapped.there] at ht
      cases hn _ ht
    · rw [IsLink, IsLink, hswapped.others r hrq]

/-- **Such a change leaves a stocked directory.** -/
theorem swapped (h : Stocked d dir p) (hq : q ≠ []) (hswapped : Swapped d (p ++ q) n d')
    (hn : ∀ m, n = some m → IsStored q m) (hkeep : n = none → q ≠ ["blobs"]) : Stocked d' dir p := by
  refine h.changed (h.ways hq hswapped hn hkeep) fun r m _ hnode => ?_
  by_cases hrq : r = q
  · subst hrq
    exact .inr (hn m (by rw [← hnode, hswapped.there]))
  · rw [hswapped.others (p ++ r) fun heq => hrq (List.append_cancel_left heq)] at hnode
    exact .inl hnode

/-! ## Its paths -/

theorem located_index (h : Stocked d dir p) (whole : Bool) :
    Located d whole (indexPath dir) (p ++ ["index.json"]) :=
  h.leads.located whole isFileName_index (h.not_isLink (by simp))

theorem located_blob {name : String} (h : Stocked d dir p) (hname : IsFileName name) (whole : Bool) :
    Located d whole (Path.join (blobDirectory dir) name) (p ++ ["blobs", name]) := by
  cases hnode : d.node? (p ++ ["blobs"]) with
  | none => exact fun q' hq' => absurd hq' (h.leads.not_located isFileName_blobs hname hnode q')
  | some n =>
    obtain ⟨mode, rfl⟩ := (h.inside ["blobs"] n (by simp) hnode).of_blobs
    have hleads : Leads d (blobDirectory dir) (p ++ ["blobs"]) :=
      h.leads.join isFileName_blobs ⟨mode, hnode⟩
    have hlocated := hleads.located whole hname fun t => by
      rw [List.append_assoc]
      exact h.not_isLink (by simp) t
    rwa [List.append_assoc] at hlocated

/-- Making the directory for entries. -/
theorem makeDirectory (h : Stocked d dir p) :
    maxPath < (blobDirectory dir).utf8ByteSize ∧ d.makeDirectory (blobDirectory dir) = .error .nameTooLong ∨
      ∃ d', d.makeDirectory (blobDirectory dir) = .ok d' ∧
        ∃ mode, Swapped d (p ++ ["blobs"]) (some (.directory mode)) d' ∧ d'.process = d.process := by
  cases hnode : d.node? (p ++ ["blobs"]) with
  | none =>
    refine (h.leads.makeDirectory_join isFileName_blobs hnode).imp_right fun hmade => ?_
    exact ⟨_, hmade, newDirectoryMode, (Swapped.refl d _).put (by simp) _, rfl⟩
  | some n =>
    obtain ⟨mode, rfl⟩ := (h.inside ["blobs"] n (by simp) hnode).of_blobs
    have hleads : Leads d (blobDirectory dir) (p ++ ["blobs"]) :=
      h.leads.join isFileName_blobs ⟨mode, hnode⟩
    refine hleads.makeDirectory.imp_right fun hmade => ⟨d, hmade, mode, ?_, rfl⟩
    rw [← hnode]
    exact .refl d _

end Stocked

/-! ## Its files -/

/-- A path to a file of a store, and where the file is below the directory. -/
inductive StoreFile (dir : String) : String → Place → Prop
  | index : StoreFile dir (indexPath dir) ["index.json"]
  | blob {key : String} (hkey : IsKey key) :
      StoreFile dir (Path.join (blobDirectory dir) (blobName key)) ["blobs", blobName key]
  | leftover {name : String} (hleft : IsLeftover name) :
      StoreFile dir (Path.join (blobDirectory dir) name) ["blobs", name]

/-- What is listed as an entry is one, or a scratch file. -/
theorem Stocked.list {d : Disk} {dir : String} {p : Place} (h : Stocked d dir p) :
    ∀ name ∈ d.list (blobDirectory dir), StoreFile dir (Path.join (blobDirectory dir) name) ["blobs", name] := by
  intro name hname
  have hlocated : Located d true (blobDirectory dir) (p ++ ["blobs"]) :=
    h.leads.located true isFileName_blobs (h.not_isLink (by simp))
  obtain ⟨n, hn⟩ := mem_entries.mp (hlocated.list name hname)
  obtain ⟨n', hn'⟩ := Option.isSome_iff_exists.mp (node?_isSome hn)
  rw [List.append_assoc] at hn'
  rcases (h.inside ["blobs", name] n' (by simp) hn').of_blob with ⟨key, hkey, rfl⟩ | hleft
  · exact .blob hkey
  · exact .leftover hleft

namespace StoreFile

variable {d d' : Disk} {dir path : String} {p q : Place} {n : Option DiskNode}

theorem ne_nil (hfile : StoreFile dir path q) : q ≠ [] := by cases hfile <;> simp

theorem ne_blobs (hfile : StoreFile dir path q) : q ≠ ["blobs"] := by
  cases hfile with
  | index => decide
  | blob | leftover => simp

/-- It is in the directory of the store, or in that for entries. -/
theorem dropLast (hfile : StoreFile dir path q) : q.dropLast = [] ∨ q.dropLast = ["blobs"] := by
  cases hfile with
  | index => exact .inl rfl
  | blob | leftover => exact .inr rfl

theorem plain (hfile : StoreFile dir path q) : IsFileName (q.getLastD "") := by
  cases hfile with
  | index => exact isFileName_index
  | blob hkey => exact hkey.isFileName
  | leftover hleft => exact hleft.plain

theorem isStored (hfile : StoreFile dir path q) {file : DiskNode} {body : Bytes} (h : IsFile body file) :
    IsStored q file := by
  obtain ⟨mode, modified, rfl⟩ := h
  cases hfile with
  | index => exact .index body mode modified
  | blob hkey => exact .blob hkey body mode modified
  | leftover hleft => exact .blobScratch hleft body mode modified

theorem located (hfile : StoreFile dir path q) (h : Stocked d dir p) (whole : Bool) :
    Located d whole path (p ++ q) := by
  cases hfile with
  | index => exact h.located_index whole
  | blob hkey => exact h.located_blob hkey.isFileName whole
  | leftover hleft => exact h.located_blob hleft.plain whole

theorem below (hfile : StoreFile dir path q) (h : Stocked d dir p) (r : Place) (hr : r ≠ []) :
    d.node? (p ++ q ++ r) = none := by
  refine h.below ?_ r hr
  cases hfile with
  | index => exact .inl rfl
  | blob | leftover => exact .inr ⟨_, rfl⟩

/-- What is at the place of a file is nothing or a file. -/
theorem node?_cases (hfile : StoreFile dir path q) (h : Stocked d dir p) :
    d.node? (p ++ q) = none ∨ ∃ body file, d.node? (p ++ q) = some file ∧ IsFile body file := by
  cases hnode : d.node? (p ++ q) with
  | none => exact .inl rfl
  | some n =>
    cases n with
    | file body mode modified => exact .inr ⟨body, _, rfl, mode, modified, rfl⟩
    | directory mode => exact absurd (h.inside q _ hfile.ne_nil hnode).eq_blobs hfile.ne_blobs
    | link t => exact absurd hnode (h.not_isLink hfile.ne_nil t)

/-- A file that comes, goes or changes leaves the ways as they are and the directory stocked. -/
theorem swapped (hfile : StoreFile dir path q) (h : Stocked d dir p)
    (hswapped : Swapped d (p ++ q) n d') (hn : ∀ file, n = some file → ∃ body, IsFile body file) :
    Ways d d' ∧ Stocked d' dir p := by
  have hstored : ∀ m, n = some m → IsStored q m := fun m hm => by
    obtain ⟨body, hbody⟩ := hn m hm
    exact hfile.isStored hbody
  exact ⟨h.ways hfile.ne_nil hswapped hstored fun _ => hfile.ne_blobs,
    h.swapped hfile.ne_nil hswapped hstored fun _ => hfile.ne_blobs⟩

/-! ## Putting a file in place -/

variable {m : Mishaps} {body : Bytes} {fault : Option FileFault} {s : Place}

/-- The scratch file is beside the file. -/
theorem nextScratch (hfile : StoreFile dir path q) (h : Stocked d dir p) (hnext : d.NextScratch path s) :
    ∃ name, IsLeftover name ∧ (s = p ++ [name] ∨ s = p ++ ["blobs", name]) := by
  obtain ⟨r, hplace, hshort, rfl⟩ := hnext
  obtain rfl := hfile.located h false r (placeFor_eq_ok hplace).1
  have hlast : (p ++ q).getLastD "" = q.getLastD "" := by
    rw [List.getLastD_eq_getLast?, List.getLastD_eq_getLast?, List.getLast?_append_of_ne_nil _ hfile.ne_nil]
  simp only [isTooLong, Bool.or_eq_false_iff, decide_eq_false_iff_not, Nat.not_lt] at hshort
  rw [scratchAt, List.getLastD_concat] at hshort
  rw [scratchAt, List.dropLast_append_of_ne_nil hfile.ne_nil]
  rw [hlast] at hshort ⊢
  refine ⟨scratchName d.process d.writes (q.getLastD ""), ⟨⟨d.process, d.writes, _, rfl⟩, ?_⟩, ?_⟩
  · exact isFileName_scratchName hfile.plain.no_slash hfile.plain.no_zero hshort.1
  · rcases hfile.dropLast with hin | hin
    · exact .inl (by rw [hin, List.append_nil])
    · exact .inr (by rw [hin, List.append_assoc]; rfl)

/-- No link is in the way of a replacement. -/
theorem not_isLink (hfile : StoreFile dir path q) (h : Stocked d dir p) {r : Place}
    (hr : d.placeFor path = .ok r ∨ d.NextScratch path r) (t : String) : ¬ d.IsLink r t := by
  rcases hr with hplace | hnext
  · obtain rfl := hfile.located h false r (placeFor_eq_ok hplace).1
    exact h.not_isLink hfile.ne_nil t
  · obtain ⟨name, -, rfl | rfl⟩ := hfile.nextScratch h hnext <;> exact h.not_isLink (by simp) t

theorem replaced (hfile : StoreFile dir path q) (h : Stocked d dir p) (m : Mishaps) (body : Bytes) :
    Replaced m d path body (d.replace m path body).1 (d.replace m path body).2 :=
  replace_replaced m d path body fun _ hs => hfile.not_isLink h (.inr hs)

/-- **A replacement leaves the ways as they are.** -/
theorem ways_of_replaced (hfile : StoreFile dir path q) (h : Stocked d dir p)
    (hreplaced : Replaced m d path body fault d') : Ways d d' :=
  hreplaced.ways fun _ t hr => hfile.not_isLink h hr t

/-- What is in the directory afterwards is what was, or the new file, or a scratch file. -/
theorem node?_of_replaced (hfile : StoreFile dir path q) (h : Stocked d dir p)
    (hreplaced : Replaced m d path body fault d') {r : Place} {file : DiskNode} (hr : d'.node? (p ++ r) = some file) :
    d.node? (p ++ r) = some file ∨ r = q ∧ IsFile body file ∨
      ∃ name part, IsLeftover name ∧ (r = [name] ∨ r = ["blobs", name]) ∧ IsFile part file := by
  rcases hreplaced.node?_cases (p ++ r) with
    hsame | ⟨-, hplace, -, mode, modified, hnew⟩ | ⟨hnext, -, hnone | ⟨-, -, hleft⟩⟩
  · exact .inl (hsame ▸ hr)
  · have hrq := hfile.located h false _ (placeFor_eq_ok hplace).1
    obtain rfl := List.append_cancel_left hrq
    exact .inr (.inl ⟨rfl, mode, modified, Option.some.inj (hr.symm.trans hnew)⟩)
  · exact absurd (hnone.symm.trans hr) (by simp)
  · obtain ⟨part, mode, modified, hleft⟩ := hleft
    obtain ⟨name, hname, hs⟩ := hfile.nextScratch h hnext
    refine .inr (.inr ⟨name, part, hname, ?_, mode, modified, Option.some.inj (hr.symm.trans hleft)⟩)
    exact hs.imp List.append_cancel_left List.append_cancel_left

/-- **A replacement leaves the directory stocked.** -/
theorem stocked_of_replaced (hfile : StoreFile dir path q) (h : Stocked d dir p)
    (hreplaced : Replaced m d path body fault d') : Stocked d' dir p := by
  refine h.changed (hfile.ways_of_replaced h hreplaced) fun r file _ hnode => ?_
  rcases hfile.node?_of_replaced h hreplaced hnode with
    hsame | ⟨rfl, hfile'⟩ | ⟨name, part, hleft, hr, mode, modified, rfl⟩
  · exact .inl hsame
  · exact .inr (hfile.isStored hfile')
  · rcases hr with rfl | rfl
    · exact .inr (.indexScratch hleft part mode modified)
    · exact .inr (.blobScratch hleft part mode modified)

end StoreFile

/-- A world with one empty directory. -/
def oneDirectory : World := { disk := { nodes := [(["store"], .directory newDirectoryMode)] } }

theorem leads_oneDirectory : Disk.Leads oneDirectory.disk "/store" ["store"] where
  no_zero := by decide
  follows := Disk.follows_of_follow (n := 3) (by decide)
  directory := ⟨_, rfl⟩

theorem oneDirectory_empty (q : Place) (hq : q ≠ []) : oneDirectory.disk.node? (["store"] ++ q) = none := by
  obtain ⟨name, rest, rfl⟩ := List.exists_cons_of_ne_nil hq
  simp [Disk.node?, oneDirectory, List.lookup_cons]

end Cache

end LogHygiene
