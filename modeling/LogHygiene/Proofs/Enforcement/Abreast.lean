import LogHygiene.Proofs.Enforcement.Listing
import LogHygiene.Proofs.Enforcement.Reports
import LogHygiene.Proofs.Enforcement.Stopping
import LogHygiene.Proofs.Enforcement.Verdicts

/-!
# With stores and without

Two worlds hold the same, but in one of them some directories are those of stores (`Abreast`), and two enforcers
work on the same project, one of them with a store (`Twin`). Then

> **both report the same about a file, and what they do to it is the same** (`process_abreast`).

What the store adds happens below its directory (`Abreast.safe`). What it answers was said about a file with the same
key, which is to say about this one; and what is put into it is said about this one.
-/

set_option autoImplicit false

namespace LogHygiene

open Disk Cache
open Procedure (About)

/-! ## Ways that stay -/

/-- What leads to a directory still does, and what leads to a file that may be replaced leads to one. -/
structure Disk.Steady (d e : Disk) : Prop where
  directory : ∀ q, d.IsDirectory q → e.IsDirectory q
  leads : ∀ dir p, Leads d dir p → Leads e dir p
  replaceable : ∀ path, (∃ r, d.Replaceable path r) → ∃ r, e.Replaceable path r

namespace Disk.Steady

variable {d e f : Disk}

theorem refl (d : Disk) : Steady d d := ⟨fun _ h => h, fun _ _ h => h, fun _ h => h⟩

theorem trans (h : Steady d e) (h' : Steady e f) : Steady d f :=
  ⟨fun q hq => h'.directory q (h.directory q hq), fun dir p hp => h'.leads dir p (h.leads dir p hp),
    fun path hr => h'.replaceable path (h.replaceable path hr)⟩

end Disk.Steady

theorem Disk.Renewal.steady {m : Mishaps} {d e : Disk} {paths : List String} {written : String → Option Bytes}
    (h : Renewal m d paths written e) (hswept : Swept m d) (ht : Targets d paths) : Steady d e where
  directory q := (h.isDirectory hswept ht.allDenote q).mpr
  leads _ _ := h.leads hswept ht.allDenote
  replaceable _ := fun ⟨_, hr⟩ => h.replaceable hswept ht hr

/-! ## Worlds abreast -/

variable {m : Mishaps} {put : Deposits} {stores : List Place} {root path dir : String} {p r : Place} {c : Conditions}
  {w wU : World} {e eU : Enforcer} {all : List Sighting}

/-- The first world has stores, the second one has not, and otherwise they are the same. -/
structure Abreast (m : Mishaps) (put : Deposits) (stores : List Place) (w wU : World) : Prop where
  alike : Alike m stores w.disk wU.disk
  contents : ∀ p ∈ stores, Contents put p w.disk
  homes : ∀ p ∈ stores, wU.disk.IsDirectory p

namespace Abreast

/-- **What is done to a store is nothing to the world without it.** -/
theorem safe {α : Type} {post : Deposits → α → Prop} {x : Procedure α} (h : Abreast c.mishaps put stores w wU)
    (hp : p ∈ stores) (hleads : Leads wU.disk dir p) (hsafe : Safe dir post x put) :
    post put (x.run (World.answerUnder c) w).1 ∧ Abreast c.mishaps put stores (x.run (World.answerUnder c) w).2 wU := by
  have hsound := (h.contents p hp).sound (hleads.mono h.alike.ways)
  obtain ⟨hpost, hstill, hwithin, hways⟩ := Safe.run hsafe hsound
  have hapart : ∀ q ∈ stores, ∀ q' ∈ stores, ¬ isBelow q q' := by
    intro q hq q' hq'
    obtain ⟨mode, hdir⟩ := h.homes q' hq'
    exact isApart_iff.mp (h.alike.isApart (by rw [hdir]; simp)) q hq
  refine ⟨hpost, ⟨h.alike.within hp hwithin hways, fun q hq => ?_, h.homes⟩⟩
  by_cases hqp : q = p
  · exact hqp ▸ hstill.contents
  · exact (h.contents q hq).within hqp (hapart p hp q hq) (hapart q hq p hp) hwithin

theorem reading (h : Abreast m put stores w wU) (hr : wU.disk.Replaceable path r) :
    c.reading w.disk path = c.reading wU.disk path := by
  rw [Conditions.reading, Conditions.reading, h.alike.read hr]

/-- A replacement is the same in both worlds. -/
theorem replace (h : Abreast c.mishaps put stores w wU) (hr : wU.disk.Replaceable path r) (body : Bytes)
    (hdirectory : ∀ q, wU.disk.IsDirectory q → (wU.disk.replace c.mishaps path body).2.IsDirectory q) :
    (World.answerUnder c (.replace path body) w).1 = (World.answerUnder c (.replace path body) wU).1 ∧
      Abreast c.mishaps put stores (World.answerUnder c (.replace path body) w).2
        (World.answerUnder c (.replace path body) wU).2 := by
  obtain ⟨hfault, halike, hstores⟩ := h.alike.replace hr body
  refine ⟨hfault, halike, fun p hp => (h.contents p hp).congr fun q hq => ?_, fun p hp => ?_⟩
  · exact hstores (p ++ q) (not_isApart_iff.mpr ⟨p, hp, q, hq, rfl⟩)
  · exact hdirectory p (h.homes p hp)

end Abreast

/-- **Work on a file is the same in both worlds.** -/
theorem Procedure.About.run_abreast {α : Type} {x : Procedure α} (hx : About path true x)
    (h : Abreast c.mishaps put stores w wU) (hr : wU.disk.Replaceable path r) :
    (x.run (World.answerUnder c) w).1 = (x.run (World.answerUnder c) wU).1 ∧
      Abreast c.mishaps put stores (x.run (World.answerUnder c) w).2 (x.run (World.answerUnder c) wU).2 ∧
      Steady wU.disk (x.run (World.answerUnder c) wU).2.disk := by
  have ht := hr.targets
  have hswept := h.alike.swept
  have hpath : path ∈ [path] := List.mem_singleton.mpr rfl
  -- each request sees a disk on which the file may have been replaced already
  suffices hall : ∀ (w w' : World) (written : String → Option Bytes),
      Renewal c.mishaps wU.disk [path] written w'.disk → Abreast c.mishaps put stores w w' →
      (x.run (World.answerUnder c) w).1 = (x.run (World.answerUnder c) w').1 ∧
        Abreast c.mishaps put stores (x.run (World.answerUnder c) w).2 (x.run (World.answerUnder c) w').2 ∧
        ∃ written', Renewal c.mishaps wU.disk [path] written' (x.run (World.answerUnder c) w').2.disk by
    obtain ⟨hsame, habreast, written, hrenewal⟩ := hall w wU _ (.refl hswept [path]) h
    exact ⟨hsame, habreast, hrenewal.steady hswept ht⟩
  induction hx with
  | done a => exact fun w w' written hrenewal h => ⟨rfl, h, written, hrenewal⟩
  | @modified next hsame _ ih =>
    intro w w' written hrenewal h
    have hnow : ∀ w : World, next (World.answerUnder c (.modified path) w).1 = next none := fun w => hsame _
    rw [run_ask, run_ask, hnow, hnow]
    exact ih w w' written hrenewal h
  | @read next _ ih =>
    intro w w' written hrenewal h
    obtain ⟨r', hr'⟩ := hrenewal.replaceable hswept ht hr
    have hread : (World.answerUnder c (.read path) w).1 = (World.answerUnder c (.read path) w').1 := h.reading hr'
    rw [run_ask, run_ask, hread]
    exact ih _ w w' written hrenewal h
  | judge _ ih => exact fun w w' written hrenewal h => ih _ w w' written hrenewal h
  | @replace body next _ _ ih =>
    intro w w' written hrenewal h
    obtain ⟨r', hr'⟩ := hrenewal.replaceable hswept ht hr
    obtain ⟨-, hrenewal'⟩ := hrenewal.replace hswept ht hpath body
    obtain ⟨hfault, habreast⟩ := h.replace hr' body fun q hq =>
      (hrenewal'.isDirectory hswept ht.allDenote q).mpr ((hrenewal.isDirectory hswept ht.allDenote q).mp hq)
    rw [run_ask, run_ask, hfault]
    exact ih _ _ _ _ hrenewal' habreast

/-! ## Twins -/

/-- The same settings, but without a store. -/
def Config.uncached (c : Config) : Config := { c with cache := { c.cache with enabled := false } }

namespace Enforcer

/-- Two enforcers work on the same project. The first one may have an open store, in the directory of one of the
stores, in whose memory is nothing but what was put in; the second one has none. -/
structure Twin (put : Deposits) (root : String) (stores : List Place) (d : Disk) (e eU : Enforcer) : Prop where
  root : e.project.root = root
  project : eU.project = ⟨e.project.root, e.project.config.uncached⟩
  alone : eU.cache = none
  fingerprint : e.fingerprint = e.project.config.fingerprint
  concurrency : 1 ≤ e.project.config.concurrency
  store : ∀ cache, e.cache = some cache → ∃ p ∈ stores, ∃ dir, Leads d dir p ∧ Honest put dir cache

theorem Twin.mono {d d' : Disk} (h : Twin put root stores d e eU) (hleads : ∀ dir p, Leads d dir p → Leads d' dir p) :
    Twin put root stores d' e eU where
  root := h.root
  project := h.project
  alone := h.alone
  fingerprint := h.fingerprint
  concurrency := h.concurrency
  store cache hcache := by
    obtain ⟨p, hp, dir, hthere, hhonest⟩ := h.store cache hcache
    exact ⟨p, hp, dir, hleads dir p hthere, hhonest⟩

/-- The same enforcer with its store in another state. -/
theorem Twin.with_cache {d : Disk} {cache : Cache} (h : Twin put root stores d e eU) (hp : p ∈ stores)
    (hleads : Leads d dir p) (hhonest : Honest put dir cache) :
    Twin put root stores d { e with cache := some cache } eU where
  root := h.root
  project := h.project
  alone := h.alone
  fingerprint := h.fingerprint
  concurrency := h.concurrency
  store _ hcache := ⟨p, hp, dir, hleads, Option.some.inj hcache ▸ hhonest⟩

/-! ## One file -/

/-- The file that is asked about, if a store is open. -/
def sighting? (e : Enforcer) (c : Conditions) (d : Disk) (path : String) : Option Sighting :=
  match e.cache, d.modified? path with
  | some _, some t => some ⟨e.project.config, path, t, c.reading d path⟩
  | _, _ => none

/-- Ask about a file, or find what was said about it. -/
def appraise (e : Enforcer) (path : String) : Procedure (Analysis × Bool × Enforcer) := do
  let modified ← Procedure.request (.modified path)
  let (stored, e) ← e.lookUp path modified
  match stored with
  | some a => pure (a, true, e)
  | none =>
    let a ← e.project.judged path
    let e ← e.store modified a
    pure (a, false, e)

/-- Fix a file if that is wanted. -/
def mend (e : Enforcer) (options : RunOptions) (path : String) (a : Analysis) : Procedure (Option FixReport) :=
  if needsFix options a then some <$> e.project.fix path options.dryRun else pure none

theorem checkOnAnalyze_eq (e : Enforcer) (path : String) (a : Analysis) :
  e.checkOnAnalyze path a = (⟨e.project, "", none⟩ : Enforcer).checkOnAnalyze path a := by
  cases e
  rfl

/-- Fixing comes last. -/
theorem run_mended {σ : Type} (answer : (q : Request) → σ → q.Answer × σ) (e : Enforcer) (options : RunOptions)
    (path : String) (a : Analysis) (hit : Bool) (s : σ) :
    (if needsFix options a then do
        let fix ← some <$> e.project.fix path options.dryRun
        pure ((⟨a, hit, fix⟩ : FileOutcome), e)
      else do
        let fix ← pure none
        pure (⟨a, hit, fix⟩, e) : Procedure _).run answer s =
      ((⟨a, hit, ((e.mend options path a).run answer s).1⟩, e), ((e.mend options path a).run answer s).2) := by
  rw [mend]
  split
  · rw [Procedure.run_bind, Procedure.run_pure]
  · rfl

/-- Work on a file is to ask about it and then to fix it. -/
theorem run_process {σ : Type} (answer : (q : Request) → σ → q.Answer × σ) (e : Enforcer) (options : RunOptions)
    (path : String) (s : σ) :
    (e.process options path).run answer s =
      let asked := (e.appraise path).run answer s
      let mended := (asked.1.2.2.mend options path asked.1.1).run answer asked.2
      ((⟨asked.1.1, asked.1.2.1, mended.1⟩, asked.1.2.2), mended.2) := by
  rw [process, appraise]
  simp only [Procedure.run_bind]
  generalize (Procedure.run answer (Procedure.request (Request.modified path)) s) = x
  generalize (Procedure.run answer (e.lookUp path x.1) x.2) = y
  obtain ⟨⟨stored, e'⟩, s'⟩ := y
  cases stored with
  | some a => exact run_mended answer e' options path a true s'
  | none =>
    simp only [Procedure.run_bind, Procedure.run_pure, Project.judged, ← checkOnAnalyze_eq]
    exact run_mended ..

theorem about_mend (e : Enforcer) (options : RunOptions) (path : String) (a : Analysis) :
    About path true (e.mend options path a) := by
  unfold mend
  split
  · exact (e.project.about_fix path _).bind fun _ => .done _
  · exact .done _

/-- Without a store, asking about a file is what it was. -/
theorem run_appraise_of_no_cache (halone : e.cache = none) (path : String) (c : Conditions) (w : World) :
    (e.appraise path).run (World.answerUnder c) w =
      ((e.project.verdict c.program path (c.reading w.disk path), false, e), w) := by
  obtain ⟨project, fingerprint, cache⟩ := e
  obtain rfl : cache = none := halone
  have hasked : (Procedure.request (.modified path)).run (World.answerUnder c) w = (w.disk.modified? path, w) := rfl
  simp only [appraise, lookUp, store, Procedure.run_bind, hasked, Procedure.run_pure, Project.run_judged]

/-- What is asked about a file has nothing to do with stores. -/
theorem verdict_uncached (root : String) (config : Config) (program : SyntaxCheck → Bytes → Attempt) (path : String)
    (content : Except FileFault Bytes) : Project.verdict ⟨root, config.uncached⟩ program path content =
      Project.verdict ⟨root, config⟩ program path content := rfl

/-- Storing what may be stored. -/
theorem store_abreast (h : Abreast c.mishaps put stores w wU)
    (ht : Twin put root stores wU.disk e eU) {t : Instant} {a : Analysis}
    (hput : a.hasError = false → (Cache.key a.path t e.fingerprint, a) ∈ put) :
    (((e.store (some t) a).run (World.answerUnder c) w).1).project = e.project ∧
      Twin put root stores wU.disk ((e.store (some t) a).run (World.answerUnder c) w).1 eU ∧
      Abreast c.mishaps put stores ((e.store (some t) a).run (World.answerUnder c) w).2 wU := by
  unfold store
  cases hcache : e.cache with
  | none => exact ⟨rfl, ht, h⟩
  | some cache =>
    simp only
    split
    · exact ⟨rfl, ht, h⟩
    · rename_i hok
      obtain ⟨p, hp, dir, hleads, hhonest⟩ := ht.store cache hcache
      obtain ⟨hhonest', h'⟩ := h.safe hp hleads
        (hhonest.set a.path t e.fingerprint (hput (by simpa using hok)))
      simp only [Procedure.run_bind, Procedure.run_pure]
      generalize (Procedure.run (World.answerUnder c) (cache.set _ _ _ _) w) = left at hhonest' h' ⊢
      exact ⟨trivial, ht.with_cache hp hleads hhonest', h'⟩

/-- **Asking about a file gives its verdict**, from the store or not. -/
theorem appraise_abreast (hall : Sighting.Unambiguous root all)
    (h : Abreast c.mishaps (Sighting.deposits root c.program all) stores w wU)
    (ht : Twin (Sighting.deposits root c.program all) root stores wU.disk e eU) (hr : wU.disk.Replaceable path r)
    (hseen : ∀ s, e.sighting? c w.disk path = some s → s ∈ all) :
    ∃ hit e', ((e.appraise path).run (World.answerUnder c) w).1 =
        (e.project.verdict c.program path (c.reading wU.disk path), hit, e') ∧
      e'.project = e.project ∧ Twin (Sighting.deposits root c.program all) root stores wU.disk e' eU ∧
      Abreast c.mishaps (Sighting.deposits root c.program all) stores
        ((e.appraise path).run (World.answerUnder c) w).2 wU := by
  have hreading := h.reading (c := c) hr
  cases hcache : e.cache with
  | none =>
    rw [run_appraise_of_no_cache hcache, hreading]
    exact ⟨false, e, rfl, rfl, ht, h⟩
  | some cache =>
    obtain ⟨p, hp, dir, hleads, hhonest⟩ := ht.store cache hcache
    obtain ⟨t, hmodified⟩ := (h.alike.replaceable hr).modified?
    have hs := hseen ⟨e.project.config, path, t, c.reading w.disk path⟩ (by rw [sighting?, hcache, hmodified])
    obtain ⟨hroot, -, -, hfingerprint, -, -⟩ := id ht
    have hkey : Cache.key (e.project.shown path) t e.fingerprint =
        (Sighting.ticket root ⟨e.project.config, path, t, c.reading w.disk path⟩).key := by
      rw [Sighting.ticket, Ticket.key_of, hfingerprint, ← hroot]
    obtain ⟨⟨hhonest₁, hfound⟩, h₁⟩ := h.safe hp hleads
      (hhonest.fetch (Cache.key (e.project.shown path) t e.fingerprint))
    have hasked : (Procedure.request (.modified path)).run (World.answerUnder c) w = (some t, w) :=
      congrArg (·, w) hmodified
    have hverdict : Sighting.verdict root c.program ⟨e.project.config, path, t, c.reading w.disk path⟩ =
        e.project.verdict c.program path (c.reading wU.disk path) := by
      rw [Sighting.verdict, ← hroot, hreading]
    simp only [appraise, lookUp, Procedure.run_bind, hasked, hcache, Cache.get, Procedure.run_pure]
    generalize (Procedure.run (World.answerUnder c) (cache.fetch _) w) = got at hhonest₁ hfound h₁ ⊢
    obtain ⟨⟨found, cache₁⟩, w₁⟩ := got
    have ht₁ := ht.with_cache hp hleads hhonest₁
    cases found with
    | some entry =>
      obtain ⟨-, s, hs', hskey, hsverdict, hok⟩ := hfound entry rfl
      rw [← hsverdict] at hok
      have hsame := Sighting.verdict_eq hall hs' hs (hskey.trans hkey) hok
      rw [hsverdict, hverdict] at hsame
      exact ⟨true, { e with cache := some cache₁ }, by rw [hsame]; rfl, rfl, ht₁, h₁⟩
    | none =>
      have hreading₁ := h₁.reading (c := c) hr
      have htidy := e.project.tidy_verdict c.program path (c.reading wU.disk path)
      simp only [Option.map_none, Procedure.run_bind, Project.run_judged, hreading₁, Procedure.run_pure]
      generalize e.project.verdict c.program path (c.reading wU.disk path) = a at hverdict htidy ⊢
      obtain ⟨hproject, ht', h'⟩ := store_abreast (a := a) (t := t) h₁ ht₁ fun hok => by
        refine ⟨_, hs, ?_, hverdict, hok⟩
        rw [htidy.path_eq, ← hkey]
      exact ⟨false, _, rfl, hproject, ht', h'⟩

theorem mend_uncached (h : Twin put root stores wU.disk e eU) (options : RunOptions) (path : String) (a : Analysis) :
    eU.mend options path a = e.mend options path a := by
  rw [mend, mend, h.project]
  rfl

end Enforcer

namespace Enforcer

/-- What is said of two enforcers that do the same thing in two worlds: the first pair of each, what it answers and
who goes on. -/
structure Match {α : Type} (m : Mishaps) (put : Deposits) (root : String) (stores : List Place) (d : Disk)
    (eU : Enforcer) (same : α → α → Prop) (ran ranU : (α × Enforcer) × World) : Prop where
  answers : same ran.1.1 ranU.1.1
  unchanged : ranU.1.2 = eU
  twin : Twin put root stores ranU.2.disk ran.1.2 eU
  abreast : Abreast m put stores ran.2 ranU.2
  steady : Steady d ranU.2.disk

/-- **Work on a file is the same with a store and without.** -/
theorem process_abreast (hall : Sighting.Unambiguous root all)
    (h : Abreast c.mishaps (Sighting.deposits root c.program all) stores w wU)
    (ht : Twin (Sighting.deposits root c.program all) root stores wU.disk e eU) (hr : wU.disk.Replaceable path r)
    (hseen : ∀ s, e.sighting? c w.disk path = some s → s ∈ all) (options : RunOptions) :
    Match c.mishaps (Sighting.deposits root c.program all) root stores wU.disk eU (fun o o' => o.fresh = o'.fresh)
      ((e.process options path).run (World.answerUnder c) w)
      ((eU.process options path).run (World.answerUnder c) wU) := by
  obtain ⟨hit, e', hasked, hproject, ht', h'⟩ := appraise_abreast hall h ht hr hseen
  have haskedU := run_appraise_of_no_cache ht.alone path c wU
  have hverdict : eU.project.verdict c.program path (c.reading wU.disk path) =
      e.project.verdict c.program path (c.reading wU.disk path) := by
    rw [ht.project, verdict_uncached]
  rw [run_process, run_process, haskedU, hverdict]
  simp only [mend_uncached ht']
  generalize (e.appraise path).run (World.answerUnder c) w = asked at hasked h' ⊢
  obtain ⟨answer, w₁⟩ := asked
  obtain rfl : answer = _ := hasked
  obtain ⟨hsame, habreast, hsteady⟩ := (e'.about_mend options path
    (e.project.verdict c.program path (c.reading wU.disk path))).run_abreast h' hr
  exact ⟨congrArg (FileOutcome.mk _ false) hsame, rfl, ht'.mono hsteady.leads, habreast, hsteady⟩

/-! ## All files -/

/-- The files that are asked about while one after another is worked on. -/
def sightings (c : Conditions) (options : RunOptions) : Enforcer → World → List String → List Sighting
  | _, _, [] => []
  | e, w, path :: rest =>
    let ran := (e.process options path).run (World.answerUnder c) w
    (e.sighting? c w.disk path).toList ++ sightings c options ran.1.2 ran.2 rest

theorem processAll_abreast (hall : Sighting.Unambiguous root all)
    (options : RunOptions) : ∀ {files : List String} {e : Enforcer} {w wU : World},
    Abreast c.mishaps (Sighting.deposits root c.program all) stores w wU →
    Twin (Sighting.deposits root c.program all) root stores wU.disk e eU →
    (∀ path ∈ files, ∃ r, wU.disk.Replaceable path r) → (∀ s ∈ sightings c options e w files, s ∈ all) →
    Match c.mishaps (Sighting.deposits root c.program all) root stores wU.disk eU
      (fun os os' => os.map FileOutcome.fresh = os'.map FileOutcome.fresh)
      ((processAll options e files).run (World.answerUnder c) w)
      ((processAll options eU files).run (World.answerUnder c) wU)
  | [], _, _, wU, h, ht, _, _ => ⟨rfl, rfl, ht, h, .refl wU.disk⟩
  | path :: rest, e, w, wU, h, ht, htargets, hseen => by
    obtain ⟨r, hr⟩ := htargets path (by simp)
    have hfirst := process_abreast hall h ht hr
      (fun s hs => hseen s (List.mem_append_left _ (Option.mem_toList.mpr hs))) options
    have hmore := processAll_abreast hall options hfirst.abreast hfirst.twin
      (fun path' hpath' => hfirst.steady.replaceable path' (htargets path' (by simp [hpath'])))
      (fun s hs => hseen s (List.mem_append_right _ hs))
    simp only [processAll, Procedure.run_bind, Procedure.run_pure, hfirst.unchanged]
    refine ⟨?_, hmore.unchanged, hmore.twin, hmore.abreast, hfirst.steady.trans hmore.steady⟩
    rw [List.map_cons, List.map_cons, hfirst.answers, hmore.answers]

/-- The files that are asked about in a run that is told to stop after so many batches. -/
def runSightings (e : Enforcer) (c : Conditions) (n : Nat) (target : Target) (options : RunOptions) (w : World) :
    List Sighting :=
  match ((e.filesOf target).run (World.answerUnder c) w).1 with
  | .ok files => sightings c options e w ((batches e.project.config.concurrency files).take n).flatten
  | .error _ => []

/-- **A run reports the same with a store and without.** -/
theorem run_abreast (hall : Sighting.Unambiguous root all)
    (h : Abreast c.mishaps (Sighting.deposits root c.program all) stores w wU)
    (ht : Twin (Sighting.deposits root c.program all) root stores wU.disk e eU) (hroot : Leads wU.disk root p)
    {target : Target} (htargets : ∀ files, ((eU.filesOf target).run (World.answerUnder c) wU).1 = .ok files →
      ∀ path ∈ files, ∃ r, wU.disk.Replaceable path r)
    {n : Nat} {options : RunOptions} (hseen : ∀ s ∈ e.runSightings c n target options w, s ∈ all) :
    Match c.mishaps (Sighting.deposits root c.program all) root stores wU.disk eU
      (fun x x' => x.map Outcome.plain = x'.map Outcome.plain)
      (e.runUntil c n target options w) (eU.runUntil c n target options wU) := by
  have hsame : eU.filesOf target = e.filesOf target := by
    unfold filesOf
    rw [ht.project]
    rfl
  have hhome : Leads wU.disk e.project.root p := ht.root.symm ▸ hroot
  have hlisted := filesOf_alike (c := c) h.alike h.contents hhome target
  have hconcurrency : eU.project.config.concurrency = e.project.config.concurrency := by rw [ht.project]; rfl
  rw [runUntil_eq, runUntil_eq, hsame, hlisted, hconcurrency]
  rw [hsame] at htargets
  rw [runSightings, hlisted] at hseen
  cases hfiles : ((e.filesOf target).run (World.answerUnder c) wU).1 with
  | error fault => exact ⟨rfl, rfl, ht, h, .refl wU.disk⟩
  | ok files =>
    rw [hfiles] at hseen
    have hworked := flatten_take_batches ht.concurrency files n
    have hran := processAll_abreast hall options h ht
      (fun path hpath => htargets files hfiles path (hworked.subset hpath)) hseen
    refine ⟨congrArg Except.ok ?_, hran.unchanged, hran.twin, hran.abreast, hran.steady⟩
    rw [Outcome.plain_ofFiles, Outcome.plain_ofFiles]
    simp only [hran.answers]
    rfl

/-! ## Opening and clearing -/

/-- **Opening a store is nothing to the world without it.** -/
theorem openAt_abreast (h : Abreast c.mishaps put stores w wU) {config : Config}
    (hhome : config.cache.enabled = true → ∃ p ∈ stores, Leads wU.disk (Path.join root config.cache.directory) p) :
    ((openAt root config.uncached).run (World.answerUnder c) wU).2 = wU ∧
      Abreast c.mishaps put stores ((openAt root config).run (World.answerUnder c) w).2 wU ∧
      match ((openAt root config).run (World.answerUnder c) w).1,
        ((openAt root config.uncached).run (World.answerUnder c) wU).1 with
      | .ok e, .ok eU => Twin put root stores wU.disk e eU
      | .error f, .error f' => f = f'
      | _, _ => False := by
  have hcheck : config.uncached.check = config.check := rfl
  unfold openAt
  rw [hcheck]
  cases hok : config.check with
  | error f => exact ⟨rfl, h, rfl⟩
  | ok u =>
    have hconcurrency := one_le_concurrency hok
    have hnever : config.uncached.cache.enabled = false := rfl
    simp only [hnever, Bool.false_eq_true, if_false, Procedure.run_pure]
    cases henabled : config.cache.enabled with
    | false =>
      rw [if_neg (by simp)]
      exact ⟨trivial, h, rfl, rfl, rfl, rfl, hconcurrency, fun _ hcache => absurd hcache (by simp)⟩
    | true =>
      obtain ⟨p, hp, hleads⟩ := hhome henabled
      obtain ⟨hhonest, h'⟩ := h.safe hp hleads
        (safe_openAt (Path.join root config.cache.directory) config.cache.ttlHours put)
      rw [if_pos rfl]
      simp only [Procedure.run_bind, Procedure.run_pure]
      generalize (Procedure.run (World.answerUnder c) (Cache.openAt _ _) w) = left at hhonest h' ⊢
      exact ⟨trivial, h', rfl, rfl, rfl, rfl, hconcurrency, fun _ hcache =>
        ⟨p, hp, _, hleads, Option.some.inj hcache ▸ hhonest⟩⟩

theorem clearCache_abreast (h : Abreast c.mishaps put stores w wU)
    (ht : Twin put root stores wU.disk e eU) :
    eU.clearCache.run (World.answerUnder c) wU = (eU, wU) ∧
      Twin put root stores wU.disk (e.clearCache.run (World.answerUnder c) w).1 eU ∧
      Abreast c.mishaps put stores (e.clearCache.run (World.answerUnder c) w).2 wU := by
  unfold clearCache
  rw [ht.alone]
  cases hcache : e.cache with
  | none => exact ⟨rfl, ht, h⟩
  | some cache =>
    obtain ⟨p, hp, dir, hleads, hhonest⟩ := ht.store cache hcache
    obtain ⟨hhonest', h'⟩ := h.safe hp hleads hhonest.clear
    simp only [Procedure.run_bind, Procedure.run_pure]
    generalize (Procedure.run (World.answerUnder c) cache.clear w) = left at hhonest' h' ⊢
    exact ⟨trivial, ht.with_cache hp hleads hhonest', h'⟩

end Enforcer

end LogHygiene
