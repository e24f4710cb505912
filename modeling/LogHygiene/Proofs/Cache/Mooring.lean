import LogHygiene.Proofs.Disk.ByHand

/-!
# Where a store is, or that it is nowhere

The directory that the settings name can be made, or it cannot: a file is in the way, the path is too long. A store
whose directory is there keeps to it. One that has none finds nothing, and every file it would write fails, so

> **an open store changes nothing that is not below its directory, and nothing at all if it has none**
> (`Moored.fetch`, `Moored.set`, `openAt_moored`).

What makes the difference is one fact about paths: a path to a file of the store that leads anywhere passes the
directory (`Leads.of_locate_join`).
-/

set_option autoImplicit false

namespace LogHygiene

namespace Disk

variable {d d' : Disk} {stores : List Place} {dir name : String} {p q : Place} {whole : Bool}

/-! ## From a file back to its directory -/

/-- An empty part at the end of a way to a directory. -/
theorem Follows.concat_empty {links : Nat} {at_ goal : Place} {parts : List String}
    (h : Follows d true links at_ parts goal) (hdir : d.IsDirectory goal) :
    Follows d true links at_ (parts ++ [""]) goal := by
  generalize hwhole : true = whole at h
  induction h with
  | stop => exact .stay hdir (.inl rfl) .stop
  | stay hat hpart _ ih => exact .stay hat hpart (ih hdir)
  | up hat _ ih => exact .up hat (ih hdir)
  | down hat hname hlink _ ih => exact .down hat hname hlink (ih hdir)
  | link hat hname hlink hgo _ ih =>
    refine .link hat hname hlink (.inl (by simp)) ?_
    change Follows d _ _ _ (_ ++ (_ ++ [""])) _
    rw [← List.append_assoc]
    exact ih hdir
  | atLink _ _ _ hno => exact absurd (hwhole.trans hno) (by simp)

/-- Whoever gets to a file in a directory passes the directory. -/
theorem Leads.of_follows_join (hname : '/' ∉ name.toList) (hzero : '\x00' ∉ (Path.join dir name).toList)
    (h : Follows d whole maxLinks (d.startOf (Path.join dir name)) (Path.parts (Path.join dir name)) q) :
    ∃ p, Leads d dir p := by
  obtain ⟨⟨between, hjoin, -, -⟩, habsolute, ps, tail, htail, hparts, hparts'⟩ := Path.join_cases dir hname
  rw [startOf, habsolute, hparts'] at h
  obtain ⟨p, hp, hdir⟩ := h.front fun h => absurd h (by simp)
  have hzero' : '\x00' ∉ dir.toList := by
    intro hmem
    rw [hjoin, String.toList_append, String.toList_append] at hzero
    exact hzero (List.mem_append_left _ (List.mem_append_left _ hmem))
  refine ⟨p, hzero', ?_, hdir⟩
  rw [startOf, hparts]
  rcases htail with rfl | rfl
  · rwa [List.append_nil]
  · exact hp.concat_empty hdir

theorem Leads.of_locate_join (hname : '/' ∉ name.toList) (h : d.locate whole (Path.join dir name) = .ok q) :
    ∃ p, Leads d dir p := by
  obtain ⟨hpath, hfollows⟩ := locate_eq_ok.mp h
  exact Leads.of_follows_join hname hpath.no_zero hfollows

theorem Leads.unique (h : Leads d dir p) (h' : Leads d dir q) : p = q := h.follows.unique h'.follows

/-! ## What happens in stores -/

/-- The second disk is the first one but for what is in the stores. -/
structure Aside (stores : List Place) (d d' : Disk) : Prop where
  ways : Ways d d'
  process : d'.process = d.process
  node? : ∀ q, isApart stores q → d'.node? q = d.node? q

namespace Aside

theorem refl (stores : List Place) (d : Disk) : Aside stores d d := ⟨.refl d, rfl, fun _ _ => rfl⟩

/-- A write is counted. -/
theorem count (stores : List Place) (d : Disk) : Aside stores d d.count :=
  ⟨⟨rfl, fun _ h => h, fun _ _ => .rfl⟩, rfl, fun _ _ => rfl⟩

theorem trans {d'' : Disk} (h : Aside stores d d') (h' : Aside stores d' d'') : Aside stores d d'' :=
  ⟨h.ways.trans h'.ways, h'.process.trans h.process, fun q hq => (h'.node? q hq).trans (h.node? q hq)⟩

theorem of_confined (hp : p ∈ stores) (h : Cache.Confined p d d') : Aside stores d d' :=
  ⟨h.ways, h.within.process, fun q hq => h.within.node? (by simpa using isApart_iff.mp hq p hp)⟩

end Aside

end Disk

namespace Cache

open Disk

variable {put : Deposits} {dir : String} {p : Place} {d d' : Disk} {stores : List Place} {w : World} {c : Conditions}

/-! ## Stores that are nowhere -/

/-- A path leads to no directory. -/
def Adrift (d : Disk) (dir : String) : Prop := ∀ p, ¬ Leads d dir p

namespace Adrift

theorem not_located (h : Adrift d dir) {name : String} (hname : '/' ∉ name.toList) (whole : Bool) :
    ∃ f, d.locate whole (Path.join dir name) = .error f := by
  cases hlocate : d.locate whole (Path.join dir name) with
  | error f => exact ⟨f, rfl⟩
  | ok q =>
    obtain ⟨p, hp⟩ := Leads.of_locate_join hname hlocate
    exact absurd hp (h p)

theorem blobs (h : Adrift d dir) : Adrift d (blobDirectory dir) := by
  intro p hp
  obtain ⟨q, hq⟩ := Leads.of_follows_join (by decide) hp.no_zero hp.follows
  exact h q hq

/-- So it is when no more was done than counting a write. -/
theorem count (h : Adrift d dir) : Adrift d.count dir := fun p hp => h p (hp.mono ⟨rfl, fun _ h => h, fun _ _ => .rfl⟩)

theorem run_readIndex (h : Adrift w.disk dir) :
    (readIndex dir).run (World.answerUnder c) w = ({}, w) := by
  have hread : ∃ f, c.unreadable (indexPath dir) = some f ∨ w.disk.read (indexPath dir) = .error f := by
    obtain ⟨f, hf⟩ := h.not_located (by decide : '/' ∉ "index.json".toList) true
    exact ⟨f, .inr (by rw [Disk.read, visit, indexPath, hf]; rfl)⟩
  have hasked : ∃ f, (Procedure.request (.read (indexPath dir))).run (World.answerUnder c) w = (.error f, w) := by
    rw [Procedure.run_request, World.answerUnder_read]
    cases hunreadable : c.unreadable (indexPath dir) with
    | some f => exact ⟨f, rfl⟩
    | none =>
      obtain ⟨f, hf⟩ := hread
      rw [hunreadable] at hf
      exact ⟨f, congrArg (·, w) (hf.resolve_left (by simp))⟩
  obtain ⟨f, hf⟩ := hasked
  rw [readIndex, Procedure.run_bind, hf]
  rfl

theorem run_set (h : Adrift w.disk dir) {cache : Cache} (hdirectory : cache.directory = dir) (path : String)
    (modified : Instant) (fingerprint : String) (a : Analysis) :
    (cache.set path modified fingerprint a).run (World.answerUnder c) w = (cache, { w with disk := w.disk.count }) := by
  have hkey := (isKey_key path modified fingerprint).isFileName
  have hplace : ∃ f, w.disk.placeFor (cache.blobPath (blobName (Cache.key path modified fingerprint))) = .error f := by
    obtain ⟨f, hf⟩ := h.blobs.not_located hkey.no_slash false
    exact ⟨f, by rw [placeFor, blobPath, hdirectory, hf]; rfl⟩
  obtain ⟨f, hf⟩ := hplace
  have hnow : (Procedure.request .now).run (World.answerUnder c) w = (w.now, w) := rfl
  have hasked : ∀ body, (Procedure.request (.replace (cache.blobPath (blobName (Cache.key path modified fingerprint)))
      body)).run (World.answerUnder c) w = (some f, { w with disk := w.disk.count }) := fun body => by
    rw [Procedure.run_request, World.answerUnder_replace, replace, hf]
  simp only [Cache.set, Procedure.run_bind, hnow, hasked, Procedure.run_pure]

end Adrift

theorem run_purge_of_empty {cache : Cache} (hindex : cache.index = {}) :
    cache.purge.run (World.answerUnder c) w = (cache, w) := by
  have hnow : (Procedure.request .now).run (World.answerUnder c) w = (w.now, w) := rfl
  simp only [purge, Procedure.run_bind, hnow, hindex, List.filter_nil, List.isEmpty_nil, if_true, Procedure.run_pure]

theorem run_fetch_of_empty {cache : Cache} (hindex : cache.index = {}) (hmemory : cache.memory = []) (key : String) :
    (cache.fetch key).run (World.answerUnder c) w = ((none, cache), w) := by
  have hnow : (Procedure.request .now).run (World.answerUnder c) w = (w.now, w) := rfl
  simp only [fetch, Procedure.run_bind, hnow, lookUp?, hmemory, List.lookup_nil, Option.filter_none, hindex]
  rfl

/-! ## Stores that are open -/

/-- An open store has its directory among some places, with nothing in it but what was put in, or it is nowhere and
empty. -/
inductive Moored (put : Deposits) (stores : List Place) (d : Disk) (cache : Cache) : Prop
  | moored {p : Place} (hp : p ∈ stores) (hsound : Sound put cache.directory p d)
      (hhonest : Honest put cache.directory cache)
  | adrift (hnowhere : Adrift d cache.directory) (hindex : cache.index = {}) (hmemory : cache.memory = [])

/-- A use of a store that is somewhere happens in its directory. -/
theorem moored_run {α : Type} {post : Deposits → α → Prop} {x : Procedure α} (hp : p ∈ stores)
    (hsound : Sound put dir p w.disk) (hsafe : Safe dir post x put) :
    post put (x.run (World.answerUnder c) w).1 ∧
      Sound put dir p (x.run (World.answerUnder c) w).2.disk ∧
      Aside stores w.disk (x.run (World.answerUnder c) w).2.disk := by
  obtain ⟨hpost, hsound', hconfined⟩ := Safe.run hsafe hsound
  exact ⟨hpost, hsound', .of_confined hp hconfined⟩

namespace Moored

variable {cache : Cache}

theorem of_honest {left : Cache} (hp : p ∈ stores) (hhonest : Honest put dir left)
    (hsound : Sound put dir p d) : Moored put stores d left := by
  obtain rfl := hhonest.directory
  exact .moored hp hsound hhonest

/-- **What is stored is looked up in the directory of the store**, and what is found was put in. -/
theorem fetch (h : Moored put stores w.disk cache) (key : String) :
    (∀ entry, ((cache.fetch key).run (World.answerUnder c) w).1.1 = some entry → (key, entry.payload) ∈ put) ∧
      Moored put stores ((cache.fetch key).run (World.answerUnder c) w).2.disk
        ((cache.fetch key).run (World.answerUnder c) w).1.2 ∧
      Aside stores w.disk ((cache.fetch key).run (World.answerUnder c) w).2.disk := by
  cases h with
  | moored hp hsound hhonest =>
    obtain ⟨⟨hleft, hfound⟩, hsound', haside⟩ := moored_run hp hsound (hhonest.fetch key)
    exact ⟨fun entry hentry => (hfound entry hentry).2, of_honest hp hleft hsound', haside⟩
  | adrift hnowhere hindex hmemory =>
    rw [run_fetch_of_empty hindex hmemory]
    exact ⟨fun _ hentry => absurd hentry (by simp), .adrift hnowhere hindex hmemory, .refl stores w.disk⟩

/-- **What is to be stored is put into the directory of the store.** -/
theorem set (h : Moored put stores w.disk cache) {path : String} {modified : Instant} {fingerprint : String}
    {a : Analysis} (hput : (Cache.key path modified fingerprint, a) ∈ put) :
    Moored put stores ((cache.set path modified fingerprint a).run (World.answerUnder c) w).2.disk
        ((cache.set path modified fingerprint a).run (World.answerUnder c) w).1 ∧
      Aside stores w.disk ((cache.set path modified fingerprint a).run (World.answerUnder c) w).2.disk := by
  cases h with
  | moored hp hsound hhonest =>
    obtain ⟨hleft, hsound', haside⟩ := moored_run hp hsound
      (hhonest.set path modified fingerprint hput)
    exact ⟨of_honest hp hleft hsound', haside⟩
  | adrift hnowhere hindex hmemory =>
    rw [hnowhere.run_set rfl]
    exact ⟨.adrift hnowhere.count hindex hmemory, .count stores w.disk⟩

end Moored

/-! ## Opening -/

/-- The disk when the directory of a store was made, or could not be made. -/
def withDirectory (d : Disk) (dir : String) : Disk :=
  match d.makeDirectory (blobDirectory dir) with
  | .ok d' => d'
  | .error _ => d

/-- Whatever is in the directory of a store is what a store keeps there, and was put in. -/
def Reserved (put : Deposits) (d : Disk) (dir : String) : Prop :=
  ∀ p, Leads (withDirectory d dir) dir p → Contents put p (withDirectory d dir)

theorem withDirectory_furnished (d : Disk) (dir : String) : Furnished d (withDirectory d dir) := by
  rw [withDirectory]
  split
  · rename_i hmake
    exact .makeDirectory hmake
  · exact .refl d

/-- A directory that is there, with nothing in it but what a store keeps, is reserved. -/
theorem reserved_of_contents (hleads : Leads d dir p) (hcontents : Contents put p d) : Reserved put d dir := by
  intro q hq
  obtain rfl := hq.unique (hleads.mono (withDirectory_furnished d dir).ways)
  rw [withDirectory]
  split
  · rename_i hmake
    exact ((hcontents.sound hleads).makeDirectory hmake).contents
  · exact hcontents

/-- Where the directory is there already, nothing is made outside of it. -/
theorem withDirectory_aside (hleads : Leads d dir p) (hreserved : Reserved put d dir) :
    Aside [p] d (withDirectory d dir) := by
  have hfurnished := withDirectory_furnished d dir
  have hcontents := hreserved p (hleads.mono hfurnished.ways)
  -- what was in it is in it, so it was the directory of a store before
  have hstocked : Stocked d dir p := ⟨hleads, fun q n hq hn =>
    hcontents.inside q n hq ((hfurnished.kept (by rw [hn]; simp)).trans hn)⟩
  rw [withDirectory]
  split
  · rename_i hmake
    exact .of_confined (List.mem_singleton.mpr rfl) (hstocked.makeDirectory_confined hmake)
  · exact .refl [p] d

/-- The disk after somebody tried to make the directory of a store. -/
theorem run_makeDirectory (c : Conditions) (dir : String) (w : World) :
    (World.answerUnder c (.makeDirectory (blobDirectory dir)) w).2 = { w with disk := withDirectory w.disk dir } := by
  rw [withDirectory]
  show (w.keep (w.disk.makeDirectory (blobDirectory dir))).2 = _
  cases w.disk.makeDirectory (blobDirectory dir) <;> rfl

/-- **A store that is opened is open in its directory, or it is nowhere.** -/
theorem openAt_moored (hreserved : Reserved put w.disk dir) (ttlHours : Nat) : ∃ stores,
    (∀ p ∈ stores, Leads (withDirectory w.disk dir) dir p) ∧
      (∀ p, Leads ((Cache.openAt dir ttlHours).run (World.answerUnder c) w).2.disk dir p → p ∈ stores) ∧
      Moored put stores ((Cache.openAt dir ttlHours).run (World.answerUnder c) w).2.disk
        ((Cache.openAt dir ttlHours).run (World.answerUnder c) w).1 ∧
      Aside stores (withDirectory w.disk dir) ((Cache.openAt dir ttlHours).run (World.answerUnder c) w).2.disk := by
  have hmade := run_makeDirectory c dir w
  rw [Cache.openAt, Procedure.run_bind, Procedure.run_request]
  generalize World.answerUnder c (.makeDirectory (blobDirectory dir)) w = made at hmade ⊢
  obtain ⟨answer, w'⟩ := made
  obtain rfl : w' = _ := hmade
  by_cases hleads : ∃ p, Leads (withDirectory w.disk dir) dir p
  · obtain ⟨p, hp⟩ := hleads
    have hsafe := (safe_openAt dir ttlHours put).2 put subset_rfl answer trivial
    obtain ⟨hhonest, hsound, haside⟩ := @moored_run put dir p [p] { w with disk := withDirectory w.disk dir } c _ _ _
      (List.mem_singleton.mpr rfl) ((hreserved p hp).sound hp) hsafe
    refine ⟨[p], fun q hq => ?_, fun q hq => ?_, .of_honest (List.mem_singleton.mpr rfl) hhonest hsound, haside⟩
    · exact List.mem_singleton.mp hq ▸ hp
    · exact List.mem_singleton.mpr (hq.unique hsound.stocked.leads)
  · have hnowhere : Adrift (withDirectory w.disk dir) dir := fun p hp => hleads ⟨p, hp⟩
    have hread := @Adrift.run_readIndex dir { w with disk := withDirectory w.disk dir } c hnowhere
    refine ⟨[], fun p hp => absurd hp (by simp), ?_⟩
    simp only [Procedure.run_bind, hread]
    rw [run_purge_of_empty rfl]
    exact ⟨fun p hp => absurd hp (hnowhere p), .adrift hnowhere rfl rfl, .refl [] _⟩

end Cache

end LogHygiene
