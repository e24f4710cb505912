import LogHygiene.Proofs.Cache.Ledger
import LogHygiene.Proofs.Cache.Mooring
import LogHygiene.Proofs.Disk.Thinning

/-!
# What goes with a row of the index

When a store drops a row of its index, it removes the file of the entry, and which file that is, is said by the row:
its `blob` is joined to the directory for entries, whatever it is. In an index that a store wrote, that is the file
of the key. An index that came from somewhere else can name the file of another key there, or one that is not in
the store at all. So

> **opening a store and asking it takes away what the dropped rows name and nothing else; whether that spares the
> files of other keys, and those that are in no store, is up to the rows** (`openAndAsk_spares`).

A row is dropped for being too old when the store is opened, or for being asked for in vain. Two walks over the same
requests say the rest: `Lessened` goes with the index, and `Disk.Thinned` with the disk.
-/

set_option autoImplicit false

namespace LogHygiene.Cache

open Disk

/-! ## Rows and what they name -/

/-- The path that the name of a file of an entry stands for. -/
def blobAt (dir blob : String) : String := Path.join (blobDirectory dir) blob

/-- The rows of an index that another one lacks. -/
def Index.dropped (i left : Index) : List (String × IndexRow) := i.rows.filter (· ∉ left.rows)

/-- The paths that some rows name. -/
def namedBy (dir : String) (rows : List (String × IndexRow)) : Set String :=
  {path | ∃ x ∈ rows, path = blobAt dir x.2.blob}

/-- One of some rows names what is at a place. -/
def IsNamed (d : Disk) (dir : String) (rows : List (String × IndexRow)) (q : Place) : Prop :=
  ∃ x ∈ rows, d.locate false (blobAt dir x.2.blob) = .ok q

/-- At a place is the file of the key of one of some rows. -/
def IsBlobOf (d : Disk) (dir : String) (rows : List (String × IndexRow)) (q : Place) : Prop :=
  ∃ x ∈ rows, d.locate false (blobAt dir (blobName x.1)) = .ok q

theorem Index.mem_dropped {i left : Index} {x : String × IndexRow} :
    x ∈ i.dropped left ↔ x ∈ i.rows ∧ x ∉ left.rows := by simp [Index.dropped]

theorem namedBy_nil (dir : String) : namedBy dir [] = ∅ := by simp [namedBy]

theorem Index.dropped_self (i : Index) : i.dropped i = [] :=
  List.filter_eq_nil_iff.mpr fun x hx => by simpa using hx

/-- Dropping more rows drops what was dropped and those. -/
theorem namedBy_dropped {i left : Index} (hrows : left.rows ⊆ i.rows) (isOld : String × IndexRow → Bool)
    (dir : String) : namedBy dir (i.dropped ⟨left.rows.filter fun x => !isOld x⟩) =
      namedBy dir (i.dropped left) ∪ namedBy dir (left.rows.filter isOld) := by
  have hiff : ∀ x, x ∈ i.dropped ⟨left.rows.filter fun x => !isOld x⟩ ↔
      x ∈ i.dropped left ∨ x ∈ left.rows.filter isOld := by
    intro x
    simp only [Index.mem_dropped, List.mem_filter, Bool.not_eq_true', not_and, Bool.not_eq_false]
    constructor
    · rintro ⟨hx, hold⟩
      by_cases hleft : x ∈ left.rows
      · exact .inr ⟨hleft, hold hleft⟩
      · exact .inl ⟨hx, hleft⟩
    · rintro (⟨hx, hleft⟩ | ⟨hleft, hold⟩)
      · exact ⟨hx, fun h => absurd h hleft⟩
      · exact ⟨hrows hleft, fun _ => hold⟩
  ext path
  simp only [namedBy, Set.mem_union, Set.mem_ofPred_eq, hiff, or_and_right, exists_or]

/-! ## Dropping rows -/

/-- An open store whose index is part of one, and a disk that lacks what the other rows of that one name. -/
structure Lessened (d : Disk) (i : Index) (dir : String) (c : Cache) (d' : Disk) : Prop where
  directory : c.directory = dir
  rows : c.index.rows.Sublist i.rows
  thinned : Thinned d (indexPath dir) (namedBy dir (i.dropped c.index)) d'

theorem carryOut_removeBlob (c : Cache) (w : World) (blob : String) :
    w.carryOut (c.removeBlob blob) = ((), { w with disk := w.disk.without (blobAt c.directory blob) }) := by
  rw [removeBlob, World.carryOut_ask, World.carryOut_pure]
  refine congrArg (Prod.mk ()) ?_
  rw [Disk.without]
  change (w.keep (w.disk.remove (blobAt c.directory blob))).2 = _
  cases w.disk.remove (blobAt c.directory blob) <;> rfl

variable {d : Disk} {i : Index} {dir : String} {c : Cache} {w : World}

/-- What some rows name is removed, as far as it can be. -/
theorem each_removeBlob_thinned (hrooted : d.Rooted) (c : Cache) {index : String} :
    ∀ (xs : List (String × IndexRow)) {named : Set String} {w : World}, Thinned d index named w.disk →
      ∃ units d', w.carryOut (Procedure.each (fun x => c.removeBlob x.2.blob) xs) = (units, { w with disk := d' }) ∧
        Thinned d index (named ∪ namedBy c.directory xs) d'
  | [], named, w, h => ⟨[], w.disk, rfl, by rwa [namedBy_nil, Set.union_empty]⟩
  | x :: xs, named, w, h => by
    obtain ⟨units, d', hrest, hthinned⟩ := each_removeBlob_thinned hrooted c xs
      (w := { w with disk := w.disk.without (blobAt c.directory x.2.blob) })
      (h.without hrooted (blobAt c.directory x.2.blob))
    refine ⟨() :: units, d', ?_, ?_⟩
    · exact (w.carryOut_bind_of (carryOut_removeBlob c w x.2.blob) _).trans (World.carryOut_bind_of _ hrest _)
    · have hnamed : insert (blobAt c.directory x.2.blob) named ∪ namedBy c.directory xs =
          named ∪ namedBy c.directory (x :: xs) := by
        ext path
        simp only [namedBy, Set.mem_union, Set.mem_insert_iff, Set.mem_ofPred_eq, List.mem_cons, exists_eq_or_imp]
        tauto
      rwa [← hnamed]

/-- Everything is in a directory, and nothing but a directory has the name of a scratch file. -/
structure Orderly (d : Disk) : Prop where
  rooted : d.Rooted
  bare : d.Bare

/-- The index never has the name of a scratch file. -/
theorem not_isScratch_index {q : Place} (h : d.placeFor (indexPath dir) = .ok q) : ¬ d.IsScratch q := by
  obtain ⟨-, -, ps, tail, -, -, hjoin⟩ := Path.join_cases dir isFileName_index.no_slash
  have hlast : (Path.parts (indexPath dir)).getLast? = some "index.json" := by
    rw [indexPath, hjoin, List.getLast?_concat]
  rcases (locate_eq_ok.mp (placeFor_eq_ok h).1).2.getLastD hlast with ⟨hpart, -⟩ | hpart | hname
  · exact absurd hpart (by decide)
  · exact absurd hpart (by decide)
  · intro hscratch
    rw [IsScratch, hname] at hscratch
    exact absurd hscratch.starts (by decide)

namespace Lessened

theorem start (d : Disk) (dir : String) (i : Index) (lifetime : Nat) : Lessened d i dir ⟨dir, lifetime, i, []⟩ d where
  directory := rfl
  rows := List.Sublist.refl _
  thinned := by
    rw [i.dropped_self, namedBy_nil]
    exact .refl d _

/-- **Rows are dropped, and what they name goes with them.** -/
theorem dropRows (h : Lessened d i dir c w.disk) (hd : Orderly d) (isOld : String × IndexRow → Bool) :
    (w.carryOut (c.dropRows isOld)).1 = c.keeping (fun x => !isOld x) ∧
      Lessened d i dir (w.carryOut (c.dropRows isOld)).1 (w.carryOut (c.dropRows isOld)).2.disk := by
  obtain ⟨units, d', hremoved, hthinned⟩ := each_removeBlob_thinned hd.rooted c (c.index.rows.filter isOld) h.thinned
  have hrun : w.carryOut (c.dropRows isOld) = (c.keeping fun x => !isOld x, { w with disk :=
      (d'.replace {} (indexPath c.directory) (c.keeping fun x => !isOld x).index.toBytes).2 }) :=
    w.carryOut_bind_of hremoved _
  rw [hrun]
  refine ⟨rfl, h.directory, List.filter_sublist.trans h.rows, ?_⟩
  rw [keeping, namedBy_dropped h.rows.subset, ← h.directory]
  rw [h.directory] at hthinned ⊢
  exact hthinned.replace (hthinned.bare hd.bare fun _ => not_isScratch_index) rfl _

/-- **A row that goes when old rows are dropped is too old.** -/
theorem purge (h : Lessened d i dir c w.disk) (hd : Orderly d) :
    Lessened d i dir (w.carryOut c.purge).1 (w.carryOut c.purge).2.disk ∧
      ∀ x ∈ c.index.rows, x ∉ (w.carryOut c.purge).1.index.rows → c.isExpired w.now x.2.timestamp = true := by
  rw [carryOut_purge]
  split
  · exact ⟨h, fun x hx hlost => absurd hx hlost⟩
  · obtain ⟨hleft, hlessened⟩ := h.dropRows hd fun x => c.isExpired w.now x.2.timestamp
    refine ⟨hlessened, fun x hx hlost => ?_⟩
    rw [hleft, keeping, List.mem_filter] at hlost
    by_contra hyoung
    exact hlost ⟨hx, by simpa using hyoung⟩

end Lessened

/-! ## Asking -/

/-- Dropping the row of a key is dropping rows. -/
theorem carryOut_evict (hsorted : c.index.Sorted) {key : String} {row : IndexRow}
    (hget : c.index.get? key = some row) :
    w.carryOut (c.evict key) = w.carryOut ((c.forget key).dropRows fun x => x.1 == key) := by
  have hrows : c.index.rows.filter (·.1 == key) = [(key, row)] := filter_of_lookup hsorted.nodup hget
  rw [evict_of_get? hget, Cache.dropRows, show (c.forget key).index.rows = c.index.rows from rfl, hrows]
  rw [World.carryOut_bind, World.carryOut_bind]
  rfl

/-- What asking comes to: nothing is changed but the memory, or the row of the key is dropped and the answer is that
nothing is there. -/
theorem fetch_cases (c : Cache) (w : World) (key : String) :
    (∃ found c', w.carryOut (c.fetch key) = ((found, c'), w) ∧ c'.directory = c.directory ∧ c'.index = c.index) ∨
    ∃ row, c.index.get? key = some row ∧ w.carryOut (c.fetch key) =
      ((none, (w.carryOut (c.evict key)).1), (w.carryOut (c.evict key)).2) := by
  rw [Cache.fetch, World.carryOut_ask, show World.answer .now w = (w.now, w) from rfl]
  simp only
  cases c.lookUp? w.now key with
  | some e => exact .inl ⟨some e, c, rfl, rfl, rfl⟩
  | none =>
    cases hget : c.index.get? key with
    | none => exact .inl ⟨none, c, rfl, rfl, rfl⟩
    | some row =>
      simp only
      split
      · exact .inr ⟨row, rfl, Kept.carryOut_drop c w key⟩
      · rw [World.carryOut_ask, show World.answer (.read (c.blobPath row.blob)) w =
          (w.disk.read (c.blobPath row.blob), w) from rfl]
        cases w.disk.read (c.blobPath row.blob) with
        | error f => exact .inr ⟨row, rfl, Kept.carryOut_drop c w key⟩
        | ok bytes =>
          simp only
          cases (Entry.ofBytes? bytes).filter (·.key == key) with
          | some e => exact .inl ⟨some e, c.remember key e, rfl, rfl, rfl⟩
          | none => exact .inr ⟨row, rfl, Kept.carryOut_drop c w key⟩

/-- A result that is asked for, at a reading of the clock. -/
structure Ask where
  now : Nat
  path : String
  modified : Instant
  fingerprint : String

namespace Ask

def key (a : Ask) : String := Cache.key a.path a.modified a.fingerprint

/-- Asking is a use of a store. -/
def use (a : Ask) : Nat × Use := (a.now, .get a.path a.modified a.fingerprint)

end Ask

theorem session_cons (c : Cache) (w : World) (a : Ask) (asks : List Ask) :
    Cache.session c w ((a :: asks).map Ask.use) =
      let asked := World.carryOut { w with now := a.now } (c.fetch a.key)
      let rest := Cache.session asked.1.2 asked.2 (asks.map Ask.use)
      (.found asked.1.1 :: rest.1, rest.2) := by
  rw [List.map_cons, Ask.use, Cache.session, carryOut_get]
  rfl

namespace Lessened

theorem sorted {d' : Disk} (h : Lessened d i dir c d') (hsorted : i.Sorted) :
    c.index.Sorted :=
  List.Pairwise.sublist h.rows hsorted

/-- **A row that goes when something is asked for is the one that was asked for, in vain.** -/
theorem fetch (h : Lessened d i dir c w.disk) (hd : Orderly d) (hsorted : i.Sorted) (key : String) :
    Lessened d i dir (w.carryOut (c.fetch key)).1.2 (w.carryOut (c.fetch key)).2.disk ∧
      ∀ x ∈ c.index.rows, x ∉ (w.carryOut (c.fetch key)).1.2.index.rows →
        (w.carryOut (c.fetch key)).1.1 = none ∧ x.1 = key := by
  rcases fetch_cases c w key with ⟨found, c', hrun, hdirectory, hindex⟩ | ⟨row, hget, hrun⟩
  · rw [hrun]
    simp only [hindex]
    refine ⟨⟨hdirectory.trans h.directory, hindex ▸ h.rows, hindex ▸ h.thinned⟩, fun x hx hlost => absurd hx hlost⟩
  · have hforget : Lessened d i dir (c.forget key) w.disk := ⟨h.directory, h.rows, h.thinned⟩
    obtain ⟨hleft, hlessened⟩ := hforget.dropRows hd fun x => x.1 == key
    rw [hrun, carryOut_evict (h.sorted hsorted) hget]
    refine ⟨hlessened, fun x hx hlost => ⟨rfl, ?_⟩⟩
    rw [hleft, keeping, List.mem_filter] at hlost
    by_contra hne
    exact hlost ⟨hx, by simpa using hne⟩

/-- **Any number of things are asked for.** -/
theorem session (hd : Orderly d) (hsorted : i.Sorted) : ∀ (asks : List Ask) {c : Cache} {w : World},
    Lessened d i dir c w.disk →
      Lessened d i dir (Cache.session c w (asks.map Ask.use)).2.1 (Cache.session c w (asks.map Ask.use)).2.2.disk ∧
        ∀ x ∈ c.index.rows, x ∉ (Cache.session c w (asks.map Ask.use)).2.1.index.rows →
          ∃ a, (a, .found none) ∈ asks.zip (Cache.session c w (asks.map Ask.use)).1 ∧ a.key = x.1
  | [], c, w, h => ⟨h, fun x hx hlost => absurd hx hlost⟩
  | a :: asks, c, w, h => by
    have hstart : Lessened d i dir c (World.mk w.disk a.now w.aborted).disk := h
    obtain ⟨hfirst, hwhy⟩ := hstart.fetch hd hsorted a.key
    obtain ⟨hrest, hlater⟩ := session hd hsorted asks hfirst
    rw [session_cons]
    refine ⟨hrest, fun x hx hlost => ?_⟩
    by_cases hkept : x ∈ (World.carryOut { w with now := a.now } (c.fetch a.key)).1.2.index.rows
    · obtain ⟨a', ha', hkey⟩ := hlater x hkept hlost
      exact ⟨a', List.mem_cons_of_mem _ ha', hkey⟩
    · obtain ⟨hnone, hkey⟩ := hwhy x hx hkept
      exact ⟨a, List.mem_cons.mpr (.inl (congrArg (fun e => (a, Reply.found e)) hnone.symm)), hkey.symm⟩

end Lessened

/-! ## Opening -/

theorem Orderly.withDirectory (h : Orderly d) (dir : String) : Orderly (withDirectory d dir) where
  rooted := by
    rw [Cache.withDirectory]
    split
    · rename_i hmake
      exact h.rooted.makeDirectory hmake
    · exact h.rooted
  bare q hq := by
    have hfurnished := withDirectory_furnished d dir
    rw [isScratch_congr hfurnished.process] at hq
    rcases hfurnished.node? q with hsame | ⟨-, hdir⟩
    · exact (h.bare q hq).imp hsame.trans (hfurnished.ways.directory q)
    · exact .inr hdir

theorem carryOut_openAt (w : World) (dir : String) (ttlHours : Nat) :
    w.carryOut (openAt dir ttlHours) = World.carryOut { w with disk := withDirectory w.disk dir }
      (purge ⟨dir, lifetimeOf ttlHours, indexAt (withDirectory w.disk dir) dir, []⟩) := by
  have hmade : (World.answer (.makeDirectory (blobDirectory dir)) w).2 = { w with disk := withDirectory w.disk dir } :=
    run_makeDirectory {} dir w
  rw [openAt, World.carryOut_ask, hmade, World.carryOut_bind, carryOut_readIndex]

/-- **A row that goes when a store is opened is too old.** -/
theorem openAt_lessened (hd : Orderly w.disk) (dir : String) (ttlHours : Nat) :
    let d := withDirectory w.disk dir
    let opened := w.carryOut (openAt dir ttlHours)
    Lessened d (indexAt d dir) dir opened.1 opened.2.disk ∧
      ∀ x ∈ (indexAt d dir).rows, x ∉ opened.1.index.rows → lifetimeOf ttlHours ≤ w.now - x.2.timestamp := by
  intro d opened
  have hopened : opened = _ := carryOut_openAt w dir ttlHours
  obtain ⟨hlessened, hold⟩ := Lessened.purge (w := { w with disk := d })
    (Lessened.start d dir (indexAt d dir) (lifetimeOf ttlHours)) (hd.withDirectory dir)
  rw [hopened]
  exact ⟨hlessened, fun x hx hlost => of_decide_eq_true (hold x hx hlost)⟩

/-! ## What is spared -/

/-- A store is opened, and results are asked for. -/
def openAndAsk (w : World) (dir : String) (ttlHours : Nat) (asks : List Ask) : List Reply × Cache × World :=
  let (c, w) := w.carryOut (openAt dir ttlHours)
  session c w (asks.map Ask.use)

/-- The files that were there are as they were, but for the index and the files of dropped keys. -/
def Spares (before after : Disk) (dir : String) (dropped : List (String × IndexRow)) : Prop :=
  ∀ q, before.IsFileAt q → (withDirectory before dir).placeFor (indexPath dir) ≠ .ok q →
    ¬ IsBlobOf (withDirectory before dir) dir dropped q → after.node? q = before.node? q

/-- The files that were there and that dropped rows name are, but for the index, files of dropped keys. -/
def NamesOwn (before : Disk) (dir : String) (dropped : List (String × IndexRow)) : Prop :=
  ∀ q, before.IsFileAt q → (withDirectory before dir).placeFor (indexPath dir) ≠ .ok q →
    IsNamed (withDirectory before dir) dir dropped q → IsBlobOf (withDirectory before dir) dir dropped q

/-- **What a store takes away.** A row is dropped because it is too old when the store is opened, or because its key
is asked for in vain. Whatever was on the disk is as it was, or it is gone and a dropped row names it, or it is a file
at the place of the index. So other files are spared if dropped rows name their own, and if nothing that the rows name
is a link, only then. (A file that has the name of a scratch file goes when the index is written.) -/
theorem openAndAsk_spares (w : World) (dir : String) (ttlHours : Nat) (asks : List Ask)
    (hrooted : w.disk.Rooted) (hfree : w.disk.ScratchFree) :
    let d := withDirectory w.disk dir
    let ran := openAndAsk w dir ttlHours asks
    let dropped := (indexAt d dir).dropped ran.2.1.index
    (∀ x ∈ dropped, lifetimeOf ttlHours ≤ w.now - x.2.timestamp ∨
      ∃ a, (a, Reply.found none) ∈ asks.zip ran.1 ∧ a.key = x.1) ∧
    (∀ q, w.disk.node? q ≠ none → ran.2.2.disk.node? q = w.disk.node? q ∨
      (ran.2.2.disk.node? q = none ∧ IsNamed d dir dropped q) ∨
      (d.placeFor (indexPath dir) = .ok q ∧ ran.2.2.disk.IsFileAt q)) ∧
    (NamesOwn w.disk dir dropped → Spares w.disk ran.2.2.disk dir dropped) ∧
    (Unlinked d (indexPath dir) (namedBy dir (indexAt d dir).rows) → Spares w.disk ran.2.2.disk dir dropped →
      NamesOwn w.disk dir dropped) := by
  intro d ran dropped
  have hfurnished : Furnished w.disk d := withDirectory_furnished w.disk dir
  have hd : Orderly w.disk := ⟨hrooted, hfree.bare⟩
  obtain ⟨hopened, hold⟩ := openAt_lessened hd dir ttlHours
  obtain ⟨hran, hvain⟩ := Lessened.session (hd.withDirectory dir) (sorted_indexAt d dir) asks hopened
  have hnode : ∀ q, w.disk.node? q ≠ none → ran.2.2.disk.node? q = w.disk.node? q ∨
      (ran.2.2.disk.node? q = none ∧ IsNamed d dir dropped q) ∨
      (d.placeFor (indexPath dir) = .ok q ∧ ran.2.2.disk.IsFileAt q) := by
    intro q hq
    rw [← hfurnished.kept hq]
    rcases hran.thinned.node? q with hsame | ⟨hnone, path, ⟨x, hx, rfl⟩, hlocate⟩ | hput
    · exact .inl hsame
    · exact .inr (.inl ⟨hnone, x, hx, hlocate⟩)
    · exact .inr (.inr hput)
  refine ⟨fun x hx => ?_, hnode, fun hown q hfile hindex hblob => ?_, fun hunlinked hspares q hfile hindex hnamed => ?_⟩
  · obtain ⟨hmem, hlost⟩ := Index.mem_dropped.mp hx
    by_cases hkept : x ∈ (w.carryOut (openAt dir ttlHours)).1.index.rows
    · exact .inr (hvain x hkept hlost)
    · exact .inl (hold x hmem hkept)
  · obtain ⟨body, mode, modified, hthere⟩ := hfile
    rcases hnode q (by rw [hthere]; simp) with hsame | ⟨-, hnamed⟩ | ⟨hput, -⟩
    · exact hsame
    · exact absurd (hown q ⟨_, _, _, hthere⟩ hindex hnamed) hblob
    · exact absurd hput hindex
  · by_contra hblob
    have hsame := hspares q hfile hindex hblob
    obtain ⟨body, mode, modified, hthere⟩ := hfile
    obtain ⟨x, hx, hlocate⟩ := hnamed
    have hfewer : namedBy dir dropped ⊆ namedBy dir (indexAt d dir).rows := fun path ⟨x, hx, hpath⟩ =>
      ⟨x, (Index.mem_dropped.mp hx).1, hpath⟩
    rcases hran.thinned.gone (hunlinked.subset hfewer) _ ⟨x, hx, rfl⟩ q hlocate with hnone | ⟨k, hdir⟩ | hput
    · exact absurd (hnone.symm.trans (hsame.trans hthere)) (by simp)
    · rw [hfurnished.kept (by rw [hthere]; simp), hthere] at hdir
      exact absurd hdir (by simp)
    · exact hindex hput

/-- An index with an old row that names the file of another key. -/
def sharedIndex : Index := ⟨[("a", ⟨"b.json", "a.js", 0⟩), ("b", ⟨"b.json", "b.js", 1760000000⟩)]⟩

/-- A store with that index, and that file. -/
def sharedBlob : World where
  disk := { nodes := [(["store"], .directory newDirectoryMode), (["store", "blobs"], .directory newDirectoryMode),
    (["store", "blobs", "b.json"], .file [] newFileMode 0),
    (["store", "index.json"], .file sharedIndex.toBytes newFileMode 0)] }

theorem indexAt_sharedBlob : indexAt sharedBlob.disk "/store" = sharedIndex := by
  have hread : sharedBlob.disk.read (indexPath "/store") = .ok sharedIndex.toBytes := rfl
  have hsorted : sharedIndex.Sorted := by simp only [Index.Sorted, sharedIndex]; decide
  have hfits : sharedIndex.Fits := by simp only [Index.Fits, sharedIndex]; decide
  rw [indexAt, hread]
  simp only
  rw [(Index.ofBytes?_toBytes sharedIndex).1 hsorted hfits, Option.getD_some]

/-- The old row is dropped, and the file of the other key is gone, which is not too old and still listed. -/
theorem openAndAsk_spares_sharedBlob :
    let ran := openAndAsk sharedBlob "/store" 24 []
    let dropped := (indexAt (withDirectory sharedBlob.disk "/store") "/store").dropped ran.2.1.index
    sharedBlob.disk.Rooted ∧ sharedBlob.disk.ScratchFree ∧
      ran.2.1.index.get? "b" = some ⟨"b.json", "b.js", 1760000000⟩ ∧
      ran.2.2.disk.node? ["store", "blobs", "b.json"] = none ∧
      ¬ Spares sharedBlob.disk ran.2.2.disk "/store" dropped := by
  have hrooted : sharedBlob.disk.Rooted := Rooted.of_nodes (by decide +kernel)
  have hfree : sharedBlob.disk.ScratchFree := scratchFree_of_names (by decide +kernel)
  have hmade : withDirectory sharedBlob.disk "/store" = sharedBlob.disk := rfl
  have hopened : openAndAsk sharedBlob "/store" 24 [] =
      ([], sharedBlob.carryOut (purge ⟨"/store", lifetimeOf 24, sharedIndex, []⟩)) := by
    rw [openAndAsk, carryOut_openAt, hmade, indexAt_sharedBlob]
    rfl
  obtain ⟨-, -, -, hnames⟩ := openAndAsk_spares sharedBlob "/store" 24 [] hrooted hfree
  rw [hmade, indexAt_sharedBlob, hopened] at hnames ⊢
  have hdropped : sharedIndex.dropped (sharedBlob.carryOut (purge ⟨"/store", lifetimeOf 24, sharedIndex, []⟩)).1.index =
      [("a", ⟨"b.json", "a.js", 0⟩)] := by decide +kernel
  refine ⟨hrooted, hfree, by decide +kernel, by decide +kernel, fun hspares => ?_⟩
  have hunlinked : Unlinked sharedBlob.disk (indexPath "/store") (namedBy "/store" sharedIndex.rows) := by
    intro path hpath q hlocate t hlink
    have hmem := mem_of_isLink hlink
    simp [sharedBlob] at hmem
  obtain ⟨x, hx, hlocate⟩ := hnames hunlinked hspares ["store", "blobs", "b.json"] ⟨[], newFileMode, 0, rfl⟩
    (by rw [hmade]; decide +kernel)
    ⟨("a", ⟨"b.json", "a.js", 0⟩), by rw [hdropped]; exact List.mem_singleton.mpr rfl,
      by rw [hmade]; decide +kernel⟩
  rw [hdropped] at hx
  rw [hmade, List.mem_singleton.mp hx] at hlocate
  exact absurd hlocate (by decide +kernel)

end LogHygiene.Cache
