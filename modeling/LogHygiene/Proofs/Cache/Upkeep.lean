import LogHygiene.Proofs.Cache.Index
import LogHygiene.Proofs.Cache.Records
import LogHygiene.Proofs.Cache.Stock
import LogHygiene.Proofs.Carrying
import LogHygiene.Proofs.Disk.Replacement

/-!
# A store that nothing gets in the way of

Three copies of what is stored have to agree: the entries in memory, the index in memory, and the files.
`Kept` says what agreeing means, with one row of entries for all three: the index lists them, each file of
an entry holds one, the memory holds some of them, and the file of the index reads as the index.

When nothing fails, each operation of a store moves that row as one would move a map, and all copies follow:

> **`set` puts an entry in, `evict` takes one out, `purge` takes the old ones out, `clear` takes all out, and
> `fetch` and `openAt` find what is there** (`Kept.set`, `Kept.evict`, `Kept.purge`, `Kept.clear`,
> `Kept.fetch`, `Kept.openAt`).

Between two requests of one operation the copies disagree. What holds then is `Filed`, which says nothing of
the memory and of the file of the index.
-/

set_option autoImplicit false

namespace LogHygiene.Cache

open Disk

/-! ## Enough room -/

/-- The path of a directory leaves room for the names of the files of a store and of their scratch files. -/
structure Roomy (d : Disk) (dir : String) : Prop where
  path : dir.utf8ByteSize + 128 ≤ maxPath
  process : (toString d.process).utf8ByteSize ≤ 20

/-- No scratch file was left in the directory of a store. -/
def Tidy (d : Disk) (p : Place) : Prop :=
  ∀ name, IsLeftover name → d.node? (p ++ [name]) = none ∧ d.node? (p ++ ["blobs", name]) = none

/-- The directory of an open store. -/
structure Site (d : Disk) (dir : String) (p : Place) : Prop where
  stocked : Stocked d dir p
  tidy : Tidy d p
  roomy : Roomy d dir
  blobs : d.IsDirectory (p ++ ["blobs"])

/-- A file with the given bytes is at a place. -/
def Holds (d : Disk) (q : Place) (body : Bytes) : Prop := ∃ file, d.node? q = some file ∧ IsFile body file

theorem size_blobDirectory_le (dir : String) : (blobDirectory dir).utf8ByteSize ≤ dir.utf8ByteSize + 6 := by
  have hle : (Path.join dir "blobs").utf8ByteSize ≤ dir.utf8ByteSize + 1 + "blobs".utf8ByteSize :=
    size_join_le dir (by decide)
  have hsize : "blobs".utf8ByteSize = 5 := by decide
  rw [blobDirectory]
  omega

/-- A path to a file that a store writes, and where the file is below the directory. -/
inductive OwnFile (dir : String) : String → Place → Prop
  | index : OwnFile dir (indexPath dir) ["index.json"]
  | blob {key : String} (hkey : IsKey key) :
      OwnFile dir (Path.join (blobDirectory dir) (blobName key)) ["blobs", blobName key]

namespace OwnFile

variable {d d' : Disk} {dir path : String} {p q : Place} {body : Bytes}

theorem storeFile (hfile : OwnFile dir path q) : StoreFile dir path q := by
  cases hfile with
  | index => exact .index
  | blob hkey => exact .blob hkey

theorem short (hfile : OwnFile dir path q) : path.utf8ByteSize ≤ dir.utf8ByteSize + 76 := by
  cases hfile with
  | index =>
    have hle : (Path.join dir "index.json").utf8ByteSize ≤ dir.utf8ByteSize + 1 + "index.json".utf8ByteSize :=
      size_join_le dir (by decide)
    have hsize : "index.json".utf8ByteSize = 10 := by decide
    rw [indexPath]
    omega
  | blob hkey =>
    have hle := size_join_le (blobDirectory dir) hkey.isFileName.no_slash
    have hdir := size_blobDirectory_le dir
    rw [hkey.size_blobName] at hle
    omega

theorem last (hfile : OwnFile dir path q) : ∃ front name, q = front ++ [name] ∧
    (front = [] ∨ front = ["blobs"]) ∧ name.utf8ByteSize ≤ 69 := by
  cases hfile with
  | index => exact ⟨[], _, rfl, .inl rfl, by decide⟩
  | blob hkey => exact ⟨["blobs"], _, rfl, .inr rfl, hkey.size_blobName.le⟩

/-- No scratch file has the place of a file that a store writes. -/
theorem ne_leftover (hfile : OwnFile dir path q) {name : String} (hleft : IsLeftover name) :
    q ≠ [name] ∧ q ≠ ["blobs", name] := by
  cases hfile with
  | index =>
    refine ⟨fun h => ?_, by simp⟩
    obtain rfl := (List.cons.inj h).1
    exact absurd hleft.starts (by decide)
  | @blob key hkey =>
    refine ⟨by simp, fun h => hkey.not_isLeftover ?_⟩
    have hname : blobName key = name := by simpa using h
    rwa [hname]

end OwnFile

/-! ## Requests -/

namespace Site

variable {d d' : Disk} {dir path : String} {p q : Place} {body : Bytes} {n : Option DiskNode}

theorem locate (h : Site d dir p) (hfile : OwnFile dir path q) (whole : Bool) :
    d.locate whole path = .ok (p ++ q) := by
  have hshort : path.utf8ByteSize ≤ maxPath := by
    have hpath := hfile.short
    have hroom := h.roomy.path
    omega
  cases hfile with
  | index => exact h.stocked.leads.locate_join isFileName_index (h.stocked.not_isLink (by simp)) hshort
  | @blob key hkey =>
    have hleads : Leads d (blobDirectory dir) (p ++ ["blobs"]) :=
      h.stocked.leads.join isFileName_blobs h.blobs
    have hlink : ∀ t, ¬ d.IsLink ((p ++ ["blobs"]) ++ [blobName key]) t := fun t => by
      rw [List.append_assoc]
      exact h.stocked.not_isLink (by simp) t
    have hlocate : d.locate whole (Path.join (blobDirectory dir) (blobName key)) =
        .ok ((p ++ ["blobs"]) ++ [blobName key]) := hleads.locate_join hkey.isFileName hlink hshort
    rwa [List.append_assoc] at hlocate

theorem swapped (h : Site d dir p) (hfile : OwnFile dir path q) (hswapped : Swapped d (p ++ q) n d')
    (hn : ∀ file, n = some file → ∃ body, IsFile body file) (hprocess : d'.process = d.process) :
    Site d' dir p := by
  obtain ⟨hways, hstocked⟩ := hfile.storeFile.swapped h.stocked hswapped hn
  refine ⟨hstocked, fun name hleft => ?_, ⟨h.roomy.path, hprocess ▸ h.roomy.process⟩, hways.directory _ h.blobs⟩
  obtain ⟨hne, hne'⟩ := hfile.ne_leftover hleft
  rw [hswapped.others _ fun heq => hne (List.append_cancel_left heq).symm,
    hswapped.others _ fun heq => hne' (List.append_cancel_left heq).symm]
  exact h.tidy name hleft

theorem read (h : Site d dir p) (hfile : OwnFile dir path q) (hholds : Holds d (p ++ q) body) :
    d.read path = .ok body := by
  obtain ⟨file, hnode, mode, modified, rfl⟩ := hholds
  exact read_file (h.locate hfile true) hnode

theorem placeFor (h : Site d dir p) (hfile : OwnFile dir path q) : d.placeFor path = .ok (p ++ q) := by
  obtain ⟨mode, hmode⟩ : d.IsDirectory (p ++ q).dropLast := by
    obtain ⟨front, name, rfl, hfront, -⟩ := hfile.last
    rw [← List.append_assoc, List.dropLast_concat]
    rcases hfront with rfl | rfl
    · rw [List.append_nil]
      exact h.stocked.leads.directory
    · exact h.blobs
  rw [Disk.placeFor, h.locate hfile false]
  simp only [bind, Except.bind, hmode]
  rfl

/-- The names of its scratch files are never too long. -/
theorem not_isTooLong (h : Site d dir p) (hfile : OwnFile dir path q) (serial : UInt64) :
    isTooLong path (p ++ q) (d.scratchAt (p ++ q) serial) = false := by
  have hname : ((p ++ q).getLastD "").utf8ByteSize ≤ 69 := by
    obtain ⟨front, name, rfl, -, hsize⟩ := hfile.last
    rwa [← List.append_assoc, List.getLastD_concat]
  have hpath := hfile.short
  have hroom := h.roomy.path
  have hprocess := h.roomy.process
  have hserial := size_serial_le serial
  have hmaxname : maxName = 255 := rfl
  rw [isTooLong_scratchAt, Bool.or_eq_false_iff, decide_eq_false_iff_not, decide_eq_false_iff_not]
  omega

/-- Nothing is where its next scratch file is to be. -/
theorem free (h : Site d dir p) (hfile : OwnFile dir path q) {s : Place} (hs : d.NextScratch path s) :
    d.node? s = none := by
  obtain ⟨name, hleft, rfl | rfl⟩ := hfile.storeFile.nextScratch h.stocked hs
  · exact (h.tidy name hleft).1
  · exact (h.tidy name hleft).2

theorem not_isDirectory (h : Site d dir p) (hfile : OwnFile dir path q) : ¬ d.IsDirectory (p ++ q) := by
  rintro ⟨mode, hmode⟩
  exact hfile.storeFile.ne_blobs (h.stocked.inside q _ hfile.storeFile.ne_nil hmode).eq_blobs

theorem replace_calm (h : Site d dir p) (hfile : OwnFile dir path q) (body : Bytes) :
    (d.replace {} path body).1 = none := by
  have hlong := h.not_isTooLong hfile d.writes
  have hblocked : ¬ d.IsDirectory (d.scratchAt (p ++ q) d.writes) := by
    rintro ⟨mode, hmode⟩
    have hnone := h.free hfile ⟨p ++ q, h.placeFor hfile, hlong, rfl⟩
    exact absurd (hnone.symm.trans hmode) (by simp)
  rw [replace_fst (h.placeFor hfile) fun s hs => hfile.storeFile.not_isLink h.stocked (.inr hs), hlong, outcome,
    decide_eq_false hblocked, decide_eq_false (h.not_isDirectory hfile)]
  exact Mishaps.outcome_calm _

theorem replace (h : Site d dir p) (hfile : OwnFile dir path q) (body : Bytes) :
    ∃ d', d.replace {} path body = (none, d') ∧ d'.process = d.process ∧
      ∃ file, IsFile body file ∧ Swapped d (p ++ q) (some file) d' := by
  have hreplaced := hfile.storeFile.replaced h.stocked {} body
  have hprocess := hreplaced.process
  refine ⟨(d.replace {} path body).2, Prod.ext (h.replace_calm hfile body) rfl, hprocess, ?_⟩
  rw [h.replace_calm hfile body] at hreplaced
  generalize (d.replace {} path body).2 = e at hreplaced ⊢
  cases hreplaced with
  | @placed r s modified clock hplace hdir hnext hsdir =>
    obtain rfl := Except.ok.inj ((h.placeFor hfile).symm.trans hplace)
    rw [clear_of_free hnext.ne_nil (h.free hfile hnext)]
    refine ⟨.file body (d.modeInPlace {} path s body) modified, ⟨_, _, rfl⟩, ?_⟩
    have hput := (Swapped.refl d (p ++ q)).put (by simp [hfile.storeFile.ne_nil])
      (.file body (d.modeInPlace {} path s body) modified)
    exact ⟨hput.here, hput.there, hput.others⟩

theorem remove (h : Site d dir p) (hfile : OwnFile dir path q) (hholds : Holds d (p ++ q) body) :
    ∃ d', d.remove path = .ok d' ∧ d'.process = d.process ∧ Swapped d (p ++ q) none d' := by
  obtain ⟨file, hnode, mode, modified, rfl⟩ := hholds
  exact ⟨_, remove_file (h.locate hfile false) hnode, rfl,
    erase_swapped (by simp [hfile.storeFile.ne_nil]) (hfile.storeFile.below h.stocked)⟩

end Site

/-! ## What agrees with what -/

/-- The row of the index for an entry. -/
def rowOf (x : String × Entry) : String × IndexRow := (x.1, ⟨blobName x.1, x.2.path, x.2.timestamp⟩)

/-- Entries that a store can hold: each under its own key, and none under a key twice. -/
structure Keyed (entries : List (String × Entry)) : Prop where
  own : ∀ x ∈ entries, x.2.key = x.1 ∧ IsKey x.1 ∧ x.2.Fits
  distinct : (entries.map Prod.fst).Nodup

/-- The index lists the entries, and each is in its file. -/
structure Filed (p : Place) (entries : List (String × Entry)) (dir : String) (i : Index) (d : Disk) :
    Prop where
  site : Site d dir p
  keyed : Keyed entries
  sorted : i.Sorted
  listed : i.rows.Perm (entries.map rowOf)
  files : ∀ x ∈ entries, Holds d (p ++ ["blobs", blobName x.1]) x.2.toBytes

/-- All copies of what is stored agree. -/
structure Kept (p : Place) (entries : List (String × Entry)) (c : Cache) (d : Disk) : Prop
    extends Filed p entries c.directory c.index d where
  memory : ∀ k e, c.memory.lookup k = some e → (k, e) ∈ entries
  written : d.node? (p ++ ["index.json"]) = none ∧ c.index = {} ∨
    Holds d (p ++ ["index.json"]) c.index.toBytes

namespace Keyed

variable {entries : List (String × Entry)} {key : String} {e : Entry}

theorem filter (h : Keyed entries) (keep : String × Entry → Bool) : Keyed (entries.filter keep) where
  own x hx := h.own x (List.mem_of_mem_filter hx)
  distinct := (List.filter_sublist.map Prod.fst).nodup h.distinct

theorem insert (h : Keyed entries) (hkey : IsKey key) (he : e.key = key) (hfits : e.Fits) :
    Keyed ((key, e) :: entries.filter (·.1 != key)) where
  own x hx := by
    rcases List.mem_cons.mp hx with rfl | hx
    · exact ⟨he, hkey, hfits⟩
    · exact (h.filter _).own x hx
  distinct := by
    refine List.nodup_cons.mpr ⟨fun hmem => ?_, (h.filter _).distinct⟩
    obtain ⟨x, hx, hxk⟩ := List.mem_map.mp hmem
    have hne := (List.mem_filter.mp hx).2
    exact absurd hxk (by simpa using hne)

end Keyed

namespace Filed

variable {p : Place} {entries : List (String × Entry)} {dir : String} {i : Index} {d d' : Disk} {w : World}

theorem mem_rows (h : Filed p entries dir i d) {x : String × IndexRow} :
    x ∈ i.rows ↔ ∃ e, (x.1, e) ∈ entries ∧ x.2 = (rowOf (x.1, e)).2 := by
  rw [h.listed.mem_iff, List.mem_map]
  constructor
  · rintro ⟨⟨k, e⟩, hmem, rfl⟩
    exact ⟨e, hmem, rfl⟩
  · rintro ⟨e, hmem, hx⟩
    exact ⟨_, hmem, Prod.ext rfl hx.symm⟩

/-- What the index says about a key is what the entries say. -/
theorem get?_eq (h : Filed p entries dir i d) (k : String) :
    i.get? k = (entries.lookup k).map fun e => (rowOf (k, e)).2 := by
  cases hlookup : entries.lookup k with
  | some e => exact lookup_of_mem h.sorted.nodup (h.mem_rows.mpr ⟨e, mem_of_lookup hlookup, rfl⟩)
  | none =>
    cases hget : i.get? k with
    | none => rfl
    | some row =>
      obtain ⟨e, hmem, -⟩ := h.mem_rows.mp (Index.mem_of_get? hget)
      rw [lookup_of_mem h.keyed.distinct hmem] at hlookup
      exact absurd hlookup (by simp)

theorem fits (h : Filed p entries dir i d) : i.Fits := by
  intro x hx
  obtain ⟨e, hmem, hrow⟩ := h.mem_rows.mp hx
  rw [hrow]
  exact ((h.keyed.own _ hmem).2.2).1

theorem size_eq (h : Filed p entries dir i d) : i.size = entries.length := by
  rw [Index.size, h.listed.length_eq, List.length_map]

/-- Fewer entries, when the index is cut down to them and their files are still there. -/
theorem filter (h : Filed p entries dir i d) (keep : String × Entry → Bool)
    (keepRow : String × IndexRow → Bool) (hsame : ∀ x ∈ entries, keepRow (rowOf x) = keep x)
    (hsite : Site d' dir p)
    (hfiles : ∀ x ∈ entries, keep x = true →
      d'.node? (p ++ ["blobs", blobName x.1]) = d.node? (p ++ ["blobs", blobName x.1])) :
    Filed p (entries.filter keep) dir ⟨i.rows.filter keepRow⟩ d' where
  site := hsite
  keyed := h.keyed.filter keep
  sorted := h.sorted.filter keepRow
  listed := by
    refine (h.listed.filter keepRow).trans ?_
    rw [List.filter_map]
    exact List.Perm.of_eq (congrArg _ (List.filter_congr hsame))
  files x hx := by
    obtain ⟨hmem, hkeep⟩ := List.mem_filter.mp hx
    rw [Holds, hfiles x hmem hkeep]
    exact h.files x hmem

/-- Writing the index leaves the files of the entries alone. -/
theorem writeIndex {c : Cache} (h : Filed p entries c.directory c.index w.disk) :
    ∃ d', w.carryOut c.writeIndex = ((), { w with disk := d' }) ∧ Filed p entries c.directory c.index d' ∧
      Holds d' (p ++ ["index.json"]) c.index.toBytes := by
  obtain ⟨d', hreplace, hprocess, file, hfile, hswapped⟩ := h.site.replace .index c.index.toBytes
  refine ⟨d', ?_, ⟨?_, h.keyed, h.sorted, h.listed, fun x hx => ?_⟩, file, hswapped.there, hfile⟩
  · have hrun : w.carryOut c.writeIndex = ((), { w with disk := (w.disk.replace {} (indexPath c.directory)
        c.index.toBytes).2 }) := rfl
    rw [hrun, hreplace]
  · exact h.site.swapped .index hswapped (fun f hf => ⟨_, Option.some.inj hf ▸ hfile⟩) hprocess
  · rw [Holds, hswapped.others _ (by simp)]
    exact h.files x hx

end Filed

/-! ## Removing files of entries -/

/-- The second disk is the first one without the files of some entries. -/
structure Emptied (p : Place) (dir : String) (keys : List String) (d d' : Disk) : Prop where
  site : Site d' dir p
  index : d'.node? (p ++ ["index.json"]) = d.node? (p ++ ["index.json"])
  gone : ∀ k ∈ keys, d'.node? (p ++ ["blobs", blobName k]) = none
  others : ∀ k, k ∉ keys → d'.node? (p ++ ["blobs", blobName k]) = d.node? (p ++ ["blobs", blobName k])

section Removing

variable {p : Place} {d : Disk} {w : World} {c : Cache} {key : String} {α : Type}

theorem Emptied.refl {dir : String} (h : Site d dir p) : Emptied p dir [] d d :=
  ⟨h, rfl, fun _ hk => absurd hk (by simp), fun _ _ => rfl⟩

theorem Emptied.cons {dir : String} {d' d'' : Disk} {keys : List String} (h : Emptied p dir [key] d d')
    (h' : Emptied p dir keys d' d'') : Emptied p dir (key :: keys) d d'' where
  site := h'.site
  index := h'.index.trans h.index
  gone k hk := by
    by_cases hmem : k ∈ keys
    · exact h'.gone k hmem
    · rw [h'.others k hmem]
      exact h.gone k (by simpa [hmem] using hk)
  others k hk := by
    obtain ⟨hne, hmem⟩ := not_or.mp fun hor => hk (List.mem_cons.mpr hor)
    rw [h'.others k hmem]
    exact h.others k (by simpa using hne)

theorem removeBlob_emptied (h : Site w.disk c.directory p) (hkey : IsKey key) :
    ∃ d', w.carryOut (c.removeBlob (blobName key)) = ((), { w with disk := d' }) ∧
      Emptied p c.directory [key] w.disk d' := by
  have hfile : OwnFile c.directory (c.blobPath (blobName key)) ["blobs", blobName key] := .blob hkey
  have hrun : w.carryOut (c.removeBlob (blobName key)) =
      ((), (w.keep (w.disk.remove (c.blobPath (blobName key)))).2) := rfl
  rw [hrun]
  rcases hfile.storeFile.node?_cases h.stocked with hnone | ⟨body, file, hnode, hbody⟩
  · have hremove : w.disk.remove (c.blobPath (blobName key)) = .error .notFound := by
      rw [remove, h.locate hfile false]
      simp only [bind, Except.bind]
      rw [hnone]
    refine ⟨w.disk, by rw [hremove]; rfl, h, rfl, fun k hk => ?_, fun _ _ => rfl⟩
    rw [List.mem_singleton.mp hk, hnone]
  · obtain ⟨d', hremove, hprocess, hswapped⟩ := h.remove hfile ⟨file, hnode, hbody⟩
    refine ⟨d', by rw [hremove]; rfl, h.swapped hfile hswapped (by simp) hprocess, ?_, fun k hk => ?_,
      fun k hk => ?_⟩
    · exact hswapped.others _ (by simp)
    · rw [List.mem_singleton.mp hk]
      exact hswapped.there
    · refine hswapped.others _ fun heq => hk ?_
      have hname : blobName k = blobName key := by simpa using heq
      exact List.mem_singleton.mpr (blobName_injective hname)

/-- Removing one file after another. -/
theorem each_emptied (c : Cache) (f : α → Procedure Unit) (key : α → String) :
    ∀ (xs : List α) {w : World}, Site w.disk c.directory p →
      (∀ x ∈ xs, IsKey (key x) ∧ f x = c.removeBlob (blobName (key x))) →
      ∃ units d', w.carryOut (Procedure.each f xs) = (units, { w with disk := d' }) ∧
        Emptied p c.directory (xs.map key) w.disk d'
  | [], w, h, _ => ⟨[], w.disk, rfl, .refl h⟩
  | x :: xs, w, h, hf => by
    obtain ⟨hkey, hfx⟩ := hf x (by simp)
    obtain ⟨d₁, hfirst, hemptied⟩ := removeBlob_emptied h hkey
    obtain ⟨units, d₂, hrest, hemptied'⟩ := each_emptied c f key xs (w := { w with disk := d₁ })
      hemptied.site fun y hy => hf y (by simp [hy])
    refine ⟨() :: units, d₂, ?_, hemptied.cons hemptied'⟩
    rw [← hfx] at hfirst
    exact (w.carryOut_bind_of hfirst _).trans (World.carryOut_bind_of _ hrest _)

/-- Only entries are listed in the directory for them. -/
theorem Site.list_blobs {dir : String} (h : Site d dir p) :
    ∀ name ∈ d.list (blobDirectory dir), ∃ k, IsKey k ∧ name = blobName k := by
  intro name hname
  have hlocated : Located d true (blobDirectory dir) (p ++ ["blobs"]) :=
    h.stocked.leads.located true isFileName_blobs (h.stocked.not_isLink (by simp))
  obtain ⟨n, hn⟩ := mem_entries.mp (hlocated.list name hname)
  obtain ⟨n', hn'⟩ := Option.isSome_iff_exists.mp (node?_isSome hn)
  rw [List.append_assoc] at hn'
  rcases (h.stocked.inside ["blobs", name] n' (by simp) hn').of_blob with hkey | hleft
  · exact hkey
  · exact absurd ((h.tidy name hleft).2.symm.trans hn') (by simp)

/-- Removing the file of the index, if it is there. -/
theorem Site.removeIndex {dir : String} (h : Site w.disk dir p) :
    ∃ d', w.carryOut (Cache.removeIndex dir) = ((), { w with disk := d' }) ∧
    Site d' dir p ∧ d'.node? (p ++ ["index.json"]) = none := by
  have hfile : OwnFile dir (indexPath dir) ["index.json"] := .index
  have hvisit : ∀ {n}, w.disk.node? (p ++ ["index.json"]) = n →
      w.disk.isThere (indexPath dir) = n.isSome := by
    rintro n rfl
    rw [isThere, visit, h.locate hfile true]
    simp only [bind, Except.bind]
    cases w.disk.node? (p ++ ["index.json"]) <;> rfl
  have hasks : World.answer (.isThere (indexPath dir)) w = (w.disk.isThere (indexPath dir), w) := rfl
  rw [Cache.removeIndex, World.carryOut_ask, hasks]
  rcases hfile.storeFile.node?_cases h.stocked with hnone | ⟨body, file, hnode, hbody⟩
  · simp only [hvisit hnone, Option.isSome_none, Bool.false_eq_true, if_false]
    exact ⟨w.disk, rfl, h, hnone⟩
  · obtain ⟨d', hremove, hprocess, hswapped⟩ := h.remove hfile ⟨file, hnode, hbody⟩
    refine ⟨d', ?_, h.swapped hfile hswapped (by simp) hprocess, hswapped.there⟩
    simp only [hvisit hnode, Option.isSome_some, if_true]
    change ((), (w.keep (w.disk.remove (indexPath dir))).2) = _
    rw [hremove]
    rfl

end Removing

/-! ## The operations -/

/-- The index that is stored in a directory; the empty one if none can be read. -/
def indexAt (d : Disk) (dir : String) : Index :=
  match d.read (indexPath dir) with
  | .ok bytes => (Index.ofBytes? bytes).getD {}
  | .error _ => {}

theorem sorted_indexAt (d : Disk) (dir : String) : (indexAt d dir).Sorted := by
  rw [indexAt]
  split
  · rename_i bytes _
    cases hread : Index.ofBytes? bytes with
    | none => exact List.Pairwise.nil
    | some i => exact Index.sorted_ofBytes? hread
  · exact List.Pairwise.nil

theorem carryOut_readIndex (w : World) (dir : String) :
    w.carryOut (Cache.readIndex dir) = (indexAt w.disk dir, w) := by
  rw [Cache.readIndex, World.carryOut_ask, show World.answer (.read (indexPath dir)) w =
    (w.disk.read (indexPath dir), w) from rfl, indexAt]
  cases w.disk.read (indexPath dir) <;> rfl

/-- A store without a key, its files left as they are. -/
def without (c : Cache) (key : String) : Cache := { c.forget key with index := c.index.erase key }

/-- A store with some of its rows, its files left as they are. -/
def keeping (c : Cache) (keep : String × IndexRow → Bool) : Cache :=
  { c with index := ⟨c.index.rows.filter keep⟩ }

theorem evict_of_get? {c : Cache} {key : String} {row : IndexRow} (hget : c.index.get? key = some row) :
    c.evict key = ((c.forget key).removeBlob row.blob >>= fun _ =>
      (c.without key).writeIndex >>= fun _ => pure (c.without key)) := by
  have hforget : (c.forget key).index.get? key = some row := hget
  rw [Cache.evict]
  simp only [hforget]
  rfl

/-- Dropping some rows, with the files of their entries. -/
def dropRows (c : Cache) (isOld : String × IndexRow → Bool) : Procedure Cache :=
  Procedure.each (fun x => c.removeBlob x.2.blob) (c.index.rows.filter isOld) >>= fun _ =>
    (c.keeping fun x => !isOld x).writeIndex >>= fun _ => pure (c.keeping fun x => !isOld x)

theorem carryOut_purge (c : Cache) (w : World) : w.carryOut c.purge =
    if (c.index.rows.filter fun x => c.isExpired w.now x.2.timestamp).isEmpty then (c, w)
    else w.carryOut (c.dropRows fun x => c.isExpired w.now x.2.timestamp) := by
  rw [Cache.purge, World.carryOut_ask, show World.answer .now w = (w.now, w) from rfl]
  simp only
  split
  · rfl
  · rfl

/-- What an operation leaves: a store in the same directory, with these entries. -/
structure Leaves (p : Place) (entries : List (String × Entry)) (c : Cache) (left : Cache × World) : Prop where
  directory : left.1.directory = c.directory
  lifetime : left.1.lifetime = c.lifetime
  kept : Kept p entries left.1 left.2.disk

namespace Kept

variable {p : Place} {entries : List (String × Entry)} {c : Cache} {d : Disk} {w : World} {key : String}

/-- Writing the index of a store whose memory is fine brings all copies together. -/
theorem of_writeIndex (h : Filed p entries c.directory c.index w.disk)
    (hmemory : ∀ k e, c.memory.lookup k = some e → (k, e) ∈ entries) :
    ∃ d', w.carryOut c.writeIndex = ((), { w with disk := d' }) ∧ Kept p entries c d' := by
  obtain ⟨d', hrun, hfiled, hwritten⟩ := h.writeIndex
  exact ⟨d', hrun, hfiled, hmemory, .inr hwritten⟩

theorem rows_eq (h : Kept p entries c d) {x : String × IndexRow} (hx : x ∈ c.index.rows) :
    IsKey x.1 ∧ x.2.blob = blobName x.1 := by
  obtain ⟨e, hmem, hrow⟩ := h.mem_rows.mp hx
  exact ⟨(h.keyed.own _ hmem).2.1, by rw [hrow]; rfl⟩

theorem filter_of_lookup_none (hlookup : entries.lookup key = none) :
    entries.filter (·.1 != key) = entries := by
  refine List.filter_eq_self.mpr fun x hx => bne_iff_ne.mpr ?_
  rintro rfl
  have hne := List.lookup_eq_none_iff.mp hlookup x hx
  simp at hne

theorem forget_memory (h : Kept p entries c d) (key : String) :
    ∀ k e, (c.forget key).memory.lookup k = some e → (k, e) ∈ entries.filter (·.1 != key) := by
  intro k e hk
  rw [Cache.forget, lookup_filter_ne] at hk
  split at hk
  · exact absurd hk (by simp)
  · rename_i hne
    exact List.mem_filter.mpr ⟨h.memory k e hk, by simpa using hne⟩

theorem remember_memory (h : Kept p entries c d) (key : String) (e : Entry) :
    ∀ k e', (c.remember key e).memory.lookup k = some e' → (k, e') ∈ (key, e) :: entries.filter (·.1 != key) := by
  intro k e' hk
  rw [remember, lookup_replace] at hk
  split at hk
  · rename_i heq
    rw [heq, Option.some.inj hk]
    exact List.mem_cons_self
  · rename_i hne
    exact List.mem_cons_of_mem _ (List.mem_filter.mpr ⟨h.memory k e' hk, by simpa using hne⟩)

theorem evict (h : Kept p entries c w.disk) (key : String) :
    Leaves p (entries.filter (·.1 != key)) c (w.carryOut (c.evict key)) := by
  have hget := h.get?_eq key
  cases hlookup : entries.lookup key with
  | none =>
    rw [hlookup, Option.map_none] at hget
    have hforget : (c.forget key).index.get? key = none := hget
    rw [Cache.evict]
    simp only [hforget]
    refine ⟨rfl, rfl, ?_, h.forget_memory key, h.written⟩
    rw [filter_of_lookup_none hlookup]
    exact h.toFiled
  | some e =>
    rw [hlookup, Option.map_some] at hget
    obtain ⟨-, hkey, -⟩ := h.keyed.own _ (mem_of_lookup hlookup)
    obtain ⟨d₁, hremoved, hemptied⟩ := removeBlob_emptied (c := c.forget key) h.site hkey
    have hfiled : Filed p (entries.filter (·.1 != key)) c.directory (c.index.erase key) d₁ :=
      h.filter _ _ (fun _ _ => rfl) hemptied.site fun x _ hx => hemptied.others x.1 (by simpa using hx)
    obtain ⟨d₂, hwritten, hkept⟩ := of_writeIndex (c := c.without key) (w := { w with disk := d₁ }) hfiled
      (h.forget_memory key)
    have hrun : w.carryOut (c.evict key) = (c.without key, { w with disk := d₂ }) := by
      rw [evict_of_get? hget]
      exact (w.carryOut_bind_of hremoved _).trans (World.carryOut_bind_of _ hwritten _)
    rw [hrun]
    exact ⟨rfl, rfl, hkept⟩

/-- Dropping rows drops their entries. -/
theorem dropRows (h : Kept p entries c w.disk) (hmemory : c.memory = []) {isOld : String × IndexRow → Bool}
    {old : String × Entry → Bool} (hsame : ∀ x, isOld (rowOf x) = old x) :
    Leaves p (entries.filter fun x => !old x) c (w.carryOut (c.dropRows isOld)) := by
  have hold : ∀ x ∈ c.index.rows.filter isOld,
      IsKey x.1 ∧ c.removeBlob x.2.blob = c.removeBlob (blobName x.1) := by
    intro x hx
    obtain ⟨hkey, hblob⟩ := h.rows_eq (List.mem_of_mem_filter hx)
    exact ⟨hkey, by rw [hblob]⟩
  obtain ⟨units, d₁, hremoved, hemptied⟩ := each_emptied c
    (fun x : String × IndexRow => c.removeBlob x.2.blob) Prod.fst (c.index.rows.filter isOld) h.site hold
  have hfiled : Filed p (entries.filter fun x => !old x) c.directory
      (c.keeping fun x => !isOld x).index d₁ := by
    refine h.filter _ _ (fun x _ => by rw [hsame]) hemptied.site fun x hx hkept => ?_
    refine hemptied.others x.1 fun hmem => ?_
    -- a key that is removed is that of an old row, and no other row has it
    obtain ⟨y, hy, hyx⟩ := List.mem_map.mp hmem
    obtain ⟨hrow, hexpired⟩ := List.mem_filter.mp hy
    obtain ⟨e, he, hye⟩ := h.mem_rows.mp hrow
    have hey := (lookup_of_mem h.keyed.distinct (hyx ▸ he)).symm.trans (lookup_of_mem h.keyed.distinct hx)
    have hyrow : y = rowOf x := Prod.ext hyx (by rw [hye, hyx, Option.some.inj hey])
    rw [hyrow, hsame] at hexpired
    simp [hexpired] at hkept
  obtain ⟨d₂, hwritten, hkept⟩ := of_writeIndex (c := c.keeping fun x => !isOld x)
    (w := { w with disk := d₁ }) hfiled (fun k e hk => absurd hk (by simp [keeping, hmemory]))
  have hrun : w.carryOut (c.dropRows isOld) = (c.keeping fun x => !isOld x, { w with disk := d₂ }) :=
    (w.carryOut_bind_of hremoved _).trans (World.carryOut_bind_of _ hwritten _)
  rw [hrun]
  exact ⟨rfl, rfl, hkept⟩

theorem purge (h : Kept p entries c w.disk) (hmemory : c.memory = []) :
    Leaves p (entries.filter fun x => !c.isExpired w.now x.2.timestamp) c (w.carryOut c.purge) := by
  rw [carryOut_purge]
  split
  · -- no row is too old, so no entry is
    rename_i hempty
    have hall : entries.filter (fun x => !c.isExpired w.now x.2.timestamp) = entries := by
      refine List.filter_eq_self.mpr fun x hx => ?_
      have hrow : rowOf x ∈ c.index.rows := h.mem_rows.mpr ⟨x.2, hx, rfl⟩
      have hnone := List.filter_eq_nil_iff.mp (List.isEmpty_iff.mp hempty) _ hrow
      simpa [rowOf] using hnone
    rw [hall]
    exact ⟨rfl, rfl, h⟩
  · exact h.dropRows hmemory fun _ => rfl

/-- The index that is read is the one that was written. -/
theorem readIndex (h : Kept p entries c w.disk) :
    w.carryOut (Cache.readIndex c.directory) = (c.index, w) := by
  rw [carryOut_readIndex, indexAt]
  rcases h.written with ⟨hnone, hempty⟩ | hholds
  · rw [read_none (h.site.locate .index true) hnone, hempty]
  · rw [h.site.read .index hholds]
    simp only
    rw [(Index.ofBytes?_toBytes c.index).1 h.sorted h.fits, Option.getD_some]

/-- Reading what was stored, and dropping what is too old under a new lifetime. -/
theorem readAndPurge (h : Kept p entries c w.disk) (ttlHours : Nat) :
    Leaves p (entries.filter fun x => !decide (lifetimeOf ttlHours ≤ w.now - x.2.timestamp))
      ⟨c.directory, lifetimeOf ttlHours, c.index, []⟩
      (w.carryOut (Cache.readIndex c.directory >>= fun index =>
        Cache.purge ⟨c.directory, lifetimeOf ttlHours, index, []⟩)) := by
  rw [World.carryOut_bind, h.readIndex]
  exact purge (c := ⟨c.directory, lifetimeOf ttlHours, c.index, []⟩)
    ⟨h.toFiled, fun k e hk => absurd hk (by simp), h.written⟩ rfl

/-- Opening makes the directory for entries, if it is not there, and changes nothing else before it reads. -/
theorem openAt_eq {dir : String} (h : Stocked w.disk dir p) (htidy : Tidy w.disk p) (hroom : Roomy w.disk dir)
    (ttlHours : Nat) :
    ∃ d', w.carryOut (Cache.openAt dir ttlHours) = World.carryOut { w with disk := d' }
        (Cache.readIndex dir >>= fun index => Cache.purge ⟨dir, lifetimeOf ttlHours, index, []⟩) ∧
      Site d' dir p ∧ ∀ q, q ≠ p ++ ["blobs"] → d'.node? q = w.disk.node? q := by
  obtain ⟨d', hmade, mode, hswapped, hprocess⟩ := h.makeDirectory.resolve_left fun hlong => by
    have hsize := size_blobDirectory_le dir
    have hpath := hroom.path
    omega
  have hrun : World.answer (.makeDirectory (blobDirectory dir)) w = (none, { w with disk := d' }) := by
    change w.keep (w.disk.makeDirectory (blobDirectory dir)) = _
    rw [hmade]
    rfl
  refine ⟨d', ?_, ⟨?_, fun name hleft => ?_, ⟨hroom.path, hprocess ▸ hroom.process⟩, mode, hswapped.there⟩,
    hswapped.others⟩
  · rw [Cache.openAt, World.carryOut_ask, hrun]
  · refine h.swapped (by simp) hswapped (fun m hm => ?_) (by simp)
    obtain rfl := Option.some.inj hm
    exact .blobs mode
  · have hne : name ≠ "blobs" := by
      rintro rfl
      exact absurd hleft.starts (by decide)
    rw [hswapped.others _ (by simp [hne]), hswapped.others _ (by simp)]
    exact htidy name hleft

theorem openAt (h : Kept p entries c w.disk) (ttlHours : Nat) :
    Leaves p (entries.filter fun x => !decide (lifetimeOf ttlHours ≤ w.now - x.2.timestamp))
      ⟨c.directory, lifetimeOf ttlHours, c.index, []⟩
      (w.carryOut (Cache.openAt c.directory ttlHours)) := by
  obtain ⟨d', hrun, hsite, hsame⟩ := openAt_eq h.site.stocked h.site.tidy h.site.roomy ttlHours
  have hfiled : Filed p entries c.directory c.index d' := by
    refine ⟨hsite, h.keyed, h.sorted, h.listed, fun x hx => ?_⟩
    rw [Holds, hsame _ (by simp)]
    exact h.files x hx
  have hkept : Kept p entries c d' := by
    refine ⟨hfiled, h.memory, ?_⟩
    rw [Holds, hsame _ (by simp)]
    exact h.written
  rw [hrun]
  exact hkept.readAndPurge (w := { w with disk := d' }) ttlHours

/-- Opening a store in an empty directory. -/
theorem openAt_empty {dir : String} (hleads : Leads w.disk dir p)
    (hempty : ∀ q, q ≠ [] → w.disk.node? (p ++ q) = none) (hroom : Roomy w.disk dir) (ttlHours : Nat) :
    Leaves p [] ⟨dir, lifetimeOf ttlHours, {}, []⟩ (w.carryOut (Cache.openAt dir ttlHours)) := by
  have hstocked : Stocked w.disk dir p := ⟨hleads, fun q n hq hn => by
    rw [hempty q hq] at hn
    exact absurd hn (by simp)⟩
  have htidy : Tidy w.disk p := fun name _ => ⟨hempty _ (by simp), hempty _ (by simp)⟩
  obtain ⟨d', hrun, hsite, hsame⟩ := openAt_eq hstocked htidy hroom ttlHours
  have hkept : Kept p [] ⟨dir, lifetimeOf ttlHours, {}, []⟩ d' := by
    refine ⟨⟨hsite, ⟨fun x hx => absurd hx (by simp), List.nodup_nil⟩, List.Pairwise.nil, List.Perm.nil,
      fun x hx => absurd hx (by simp)⟩, fun k e hk => absurd hk (by simp), .inl ⟨?_, rfl⟩⟩
    rw [hsame _ (by simp)]
    exact hempty _ (by simp)
  rw [hrun]
  exact hkept.readAndPurge (w := { w with disk := d' }) ttlHours

/-! ### Storing -/

theorem set (h : Kept p entries c w.disk) (path : String) (modified : Instant) (fingerprint : String)
    {a : Analysis} (hfits : a.Fits) (hnow : w.now < Nat.pow 2 64) :
    Leaves p
      ((Cache.key path modified fingerprint, ⟨Cache.key path modified fingerprint, path, w.now, a⟩) ::
        entries.filter (·.1 != Cache.key path modified fingerprint))
      c (w.carryOut (c.set path modified fingerprint a)) := by
  have hkey := isKey_key path modified fingerprint
  rw [Cache.set]
  generalize Cache.key path modified fingerprint = key at hkey ⊢
  have hfile : OwnFile c.directory (c.blobPath (blobName key)) ["blobs", blobName key] := .blob hkey
  obtain ⟨d₁, hreplace, hprocess, file, hbody, hswapped⟩ :=
    h.site.replace hfile (Entry.toBytes ⟨key, path, w.now, a⟩)
  let listing : Cache := { c with index := c.index.insert key ⟨blobName key, path, w.now⟩ }
  have hfiled : Filed p ((key, ⟨key, path, w.now, a⟩) :: entries.filter (·.1 != key)) c.directory
      listing.index d₁ := by
    refine ⟨h.site.swapped hfile hswapped (fun f hf => ⟨_, Option.some.inj hf ▸ hbody⟩) hprocess,
      h.keyed.insert hkey rfl ⟨hnow, hfits⟩, h.sorted.insert _ _, ?_, fun x hx => ?_⟩
    · refine (Index.perm_insertRow h.sorted).trans (List.Perm.cons _ ?_)
      refine (h.listed.filter _).trans ?_
      rw [List.filter_map]
      exact List.Perm.refl _
    · rcases List.mem_cons.mp hx with rfl | hx
      · exact ⟨file, hswapped.there, hbody⟩
      · obtain ⟨hmem, hne⟩ := List.mem_filter.mp hx
        have hother : p ++ ["blobs", blobName x.1] ≠ p ++ ["blobs", blobName key] := by
          intro heq
          have hname : blobName x.1 = blobName key := by simpa using heq
          exact absurd (blobName_injective hname) (by simpa using hne)
        rw [Holds, hswapped.others _ hother]
        exact h.files x hmem
  obtain ⟨d₂, hwritten, hfiled₂, hindex⟩ :=
    Filed.writeIndex (c := listing) (w := { w with disk := d₁ }) hfiled
  have hnowAnswer : World.answer .now w = (w.now, w) := rfl
  rw [World.carryOut_ask, hnowAnswer, World.carryOut_ask, World.answer_replace_of hreplace]
  simp only
  rw [World.carryOut_bind_of _ hwritten]
  exact ⟨rfl, rfl, hfiled₂, h.remember_memory key ⟨key, path, w.now, a⟩, .inr hindex⟩

/-! ### Finding -/

theorem lookUp?_of_none (h : Kept p entries c d) {now : Nat}
    (hnone : (entries.lookup key).filter (fun e => !c.isExpired now e.timestamp) = none) :
    c.lookUp? now key = none := by
  cases hmem : c.memory.lookup key with
  | none => rw [lookUp?, hmem, Option.filter_none]
  | some e =>
    have hlookup := lookup_of_mem h.keyed.distinct (h.memory key e hmem)
    rw [hlookup] at hnone
    rw [lookUp?, hmem, hnone]

theorem carryOut_drop (c : Cache) (w : World) (key : String) :
    w.carryOut (c.evict key >>= fun c => pure ((none : Option Entry), c)) =
      ((none, (w.carryOut (c.evict key)).1), (w.carryOut (c.evict key)).2) := by
  rw [World.carryOut_bind, World.carryOut_pure]

/-- An entry that is not in memory is read from its file, and kept in memory. -/
theorem fetch_of_file {e : Entry} (h : Kept p entries c w.disk) (hlookup : entries.lookup key = some e)
    (hfresh : c.isExpired w.now e.timestamp = false) (hmem : c.memory.lookup key = none) :
    w.carryOut (c.fetch key) = ((some e, c.remember key e), w) := by
  have hnowAnswer : World.answer .now w = (w.now, w) := rfl
  obtain ⟨hown, hkey, hfits⟩ := h.keyed.own _ (mem_of_lookup hlookup)
  have hget := h.get?_eq key
  rw [hlookup, Option.map_some] at hget
  have hmemory : c.lookUp? w.now key = none := by rw [lookUp?, hmem, Option.filter_none]
  have hrow : c.isExpired w.now (rowOf (key, e)).2.timestamp = false := hfresh
  have hfile : OwnFile c.directory (c.blobPath (rowOf (key, e)).2.blob) ["blobs", blobName key] := .blob hkey
  have hread := h.site.read hfile (h.files _ (mem_of_lookup hlookup))
  have hanswer : World.answer (.read (c.blobPath (rowOf (key, e)).2.blob)) w = (.ok e.toBytes, w) := by
    rw [← hread]
    rfl
  have hentry : (Entry.ofBytes? e.toBytes).filter (fun e => e.key == key) = some e := by
    rw [e.ofBytes?_toBytes.1 hfits, Option.filter_some, if_pos (by simpa using hown)]
  rw [Cache.fetch, World.carryOut_ask, hnowAnswer]
  simp only [hmemory, hget, hrow, Bool.false_eq_true, if_false]
  rw [World.carryOut_ask, hanswer]
  simp only [hentry]
  rfl

/-- What is found is what is stored and not too old; what is too old is dropped. -/
theorem fetch (h : Kept p entries c w.disk) (key : String) :
    (w.carryOut (c.fetch key)).1.1 = (entries.lookup key).filter (fun e => !c.isExpired w.now e.timestamp) ∧
    Leaves p (if ((entries.lookup key).filter fun e => !c.isExpired w.now e.timestamp).isSome then entries
        else entries.filter (·.1 != key))
      c ((w.carryOut (c.fetch key)).1.2, (w.carryOut (c.fetch key)).2) := by
  have hnowAnswer : World.answer .now w = (w.now, w) := rfl
  have hget := h.get?_eq key
  cases hlookup : entries.lookup key with
  | none =>
    have hmemory : c.lookUp? w.now key = none := h.lookUp?_of_none (by rw [hlookup, Option.filter_none])
    rw [hlookup, Option.map_none] at hget
    rw [Cache.fetch, World.carryOut_ask, hnowAnswer]
    simp only [hmemory, hget]
    refine ⟨rfl, rfl, rfl, ?_⟩
    rw [filter_of_lookup_none hlookup]
    exact h
  | some e =>
    rw [hlookup, Option.map_some] at hget
    cases hexpired : c.isExpired w.now e.timestamp with
    | true =>
      have hmemory : c.lookUp? w.now key = none := h.lookUp?_of_none (by
        rw [hlookup, Option.filter_some, if_neg (by simp [hexpired])])
      have hrow : c.isExpired w.now (rowOf (key, e)).2.timestamp = true := hexpired
      rw [Cache.fetch, World.carryOut_ask, hnowAnswer]
      simp only [hmemory, hget, hrow, if_true, Option.filter_some, hexpired, Bool.not_true,
        Bool.false_eq_true, if_false]
      rw [carryOut_drop]
      exact ⟨rfl, h.evict key⟩
    | false =>
      simp only [Option.filter_some, hexpired, Bool.not_false, if_true, Option.isSome_some]
      cases hmem : c.memory.lookup key with
      | some e' =>
        have he : e' = e := Option.some.inj
          ((lookup_of_mem h.keyed.distinct (h.memory key e' hmem)).symm.trans hlookup)
        have hmemory : c.lookUp? w.now key = some e := by
          rw [lookUp?, hmem, he, Option.filter_some, if_pos (by simp [hexpired])]
        rw [Cache.fetch, World.carryOut_ask, hnowAnswer]
        simp only [hmemory]
        exact ⟨rfl, rfl, rfl, h⟩
      | none =>
        rw [h.fetch_of_file hlookup hexpired hmem]
        refine ⟨rfl, rfl, rfl, h.toFiled, fun k e' hk => ?_, h.written⟩
        rcases List.mem_cons.mp (h.remember_memory key e k e' hk) with heq | hmem
        · rw [heq]
          exact mem_of_lookup hlookup
        · exact List.mem_of_mem_filter hmem

/-! ### Clearing -/

theorem clear (h : Kept p entries c w.disk) : Leaves p [] c (w.carryOut c.clear) := by
  have hlistAnswer : World.answer (.list (blobDirectory c.directory)) w =
      (w.disk.list (blobDirectory c.directory), w) := rfl
  have hall := h.site.list_blobs
  choose! keyOf hkeyOf using hall
  obtain ⟨units, d₁, hremoved, hemptied⟩ := each_emptied c c.removeBlob keyOf
    (w.disk.list (blobDirectory c.directory)) h.site fun name hname =>
      ⟨(hkeyOf name hname).1, congrArg c.removeBlob (hkeyOf name hname).2⟩
  obtain ⟨d₂, hindex, hsite, hnone⟩ := Site.removeIndex (w := { w with disk := d₁ }) hemptied.site
  rw [Cache.clear, World.carryOut_ask, hlistAnswer]
  simp only
  rw [World.carryOut_bind_of _ hremoved, World.carryOut_bind_of _ hindex]
  refine ⟨rfl, rfl, ⟨hsite, ⟨fun x hx => absurd hx (by simp), List.nodup_nil⟩, List.Pairwise.nil,
    List.Perm.nil, fun x hx => absurd hx (by simp)⟩, fun k e hk => ?_, .inl ⟨hnone, rfl⟩⟩
  exact absurd (hk : ([] : List (String × Entry)).lookup k = some e) (by simp)

end Kept

end LogHygiene.Cache
