import LogHygiene.Proofs.Disk.ByHand
import LogHygiene.Proofs.Enforcement.Frame

/-!
# Whole histories with stores and without

People save files and take them away, open a project with these or those settings, run, clear stores, come back
later. `history` is what they are told and what is on the disk after each event. The same events can happen with
no store in use (`Event.uncached`), and then

> **everything reported is the same but for the count of what was stored and the time it took, and outside of the
> stores the disk holds the same after each event** (`history_uncached`).

What is carried from event to event is that the two worlds are abreast and that each enforcer has its twin
(`Together`); one lemma says that an event keeps this (`Together.happen`).
-/

set_option autoImplicit false

namespace LogHygiene

open Disk Cache

/-! ## Events -/

/-- Something that happens around a project. -/
inductive Event where
  | save (path : String) (body : Bytes) (modified : Instant)
  | remove (path : String)
  | makeDirectory (path : String)
  | wait (now : Nat)
  | openAt (config : Config)
  /-- one of those who opened the project runs, and is told to stop after `n` batches -/
  | enforce (who : Nat) (target : Target) (options : RunOptions) (n : Nat)
  | clear (who : Nat)

/-- A world, and those who opened a project in it. -/
structure Scene where
  world : World
  enforcers : List Enforcer := []

/-- What an event is answered with. -/
inductive Reply where
  | done (fault : Option FileFault)
  | opened (fault : Option EnforceFault)
  | reported (report : Except EnforceFault Outcome)

/-- An answer without what the store and the clock have to do with. -/
def Reply.plain : Reply → Reply
  | reported report => .reported (report.map Outcome.plain)
  | reply => reply

/-- Change the disk by hand. -/
def Scene.keep (s : Scene) (result : Except FileFault Disk) : Reply × Scene :=
  (.done (s.world.keep result).1, { s with world := (s.world.keep result).2 })

namespace Event

variable (root : String) (c : Conditions)

/-- What is answered to an event, and what it leaves. -/
def happen : Event → Scene → Reply × Scene
  | save path body modified, s => s.keep (s.world.disk.save path body modified)
  | remove path, s => s.keep (s.world.disk.remove path)
  | makeDirectory path, s => s.keep (s.world.disk.makeDirectory path)
  | wait now, s => (.done none, { s with world := { s.world with now } })
  | openAt config, s =>
    let ran := (Enforcer.openAt root config).run (World.answerUnder c) s.world
    match ran.1 with
    | .ok e => (.opened none, ⟨ran.2, s.enforcers ++ [e]⟩)
    | .error fault => (.opened (some fault), { s with world := ran.2 })
  | enforce who target options n, s =>
    match s.enforcers[who]? with
    | none => (.done none, s)
    | some e =>
      let ran := e.runUntil c n target options s.world
      (.reported ran.1.1, ⟨ran.2, s.enforcers.set who ran.1.2⟩)
  | clear who, s =>
    match s.enforcers[who]? with
    | none => (.done none, s)
    | some e =>
      let ran := e.clearCache.run (World.answerUnder c) s.world
      (.done none, ⟨ran.2, s.enforcers.set who ran.1⟩)

/-- The same event, but nobody opens a store. -/
def uncached : Event → Event
  | openAt config => .openAt config.uncached
  | event => event

/-- The files that are asked about. -/
def sightings : Event → Scene → List Sighting
  | enforce who target options n, s =>
    match s.enforcers[who]? with
    | none => []
    | some e => e.runSightings c n target options s.world
  | _, _ => []

/-- An event is as it should be: what is done by hand succeeds and is done outside of the stores, not with names of
scratch files, and runs are about files that may be replaced. -/
def Fits (stores : List Place) : Event → Scene → Prop
  | save path _ _, s => ∃ p, Saves stores s.world.disk path p
  | remove path, s =>
    ∃ p, s.world.disk.locate false path = .ok p ∧ s.world.disk.IsLeaf p ∧ ¬ s.world.disk.IsScratch p
  | makeDirectory path, s =>
    ∃ d, s.world.disk.makeDirectory path = .ok d ∧ ∀ q, d.IsDirectory q → isApart stores q ∧ ¬ d.IsScratch q
  | enforce who target _ _, s => ∀ e, s.enforcers[who]? = some e →
    ∀ files, ((e.filesOf target).run (World.answerUnder c) s.world).1 = .ok files →
      ∀ path ∈ files, ∃ r, s.world.disk.Replaceable path r
  | _, _ => True

/-- Whoever opens a store opens one of those that there are. -/
def Housed (stores : List Place) (d : Disk) (event : Event) : Prop :=
  ∀ config, event = .openAt config → config.cache.enabled = true →
    ∃ p ∈ stores, Leads d (Path.join root config.cache.directory) p

end Event

/-- What is answered to each of a row of events, and the disk after it. -/
def history (root : String) (c : Conditions) : Scene → List Event → List (Reply × Disk)
  | _, [] => []
  | s, event :: rest =>
    let happened := event.happen root c s
    (happened.1, happened.2.world.disk) :: history root c happened.2 rest

/-- The files that are asked about in a row of events. -/
def historySightings (root : String) (c : Conditions) : Scene → List Event → List Sighting
  | _, [] => []
  | s, event :: rest => event.sightings c s ++ historySightings root c (event.happen root c s).2 rest

/-- Each of a row of events is as it should be. -/
def HistoryFits (stores : List Place) (root : String) (c : Conditions) : Scene → List Event → Prop
  | _, [] => True
  | s, event :: rest => event.Fits c stores s ∧ HistoryFits stores root c (event.happen root c s).2 rest

/-- Outside of the stores two disks hold the same, maybe written at other times. If scratch files cannot be removed,
those that were left need not be the same, and neither need permissions that were taken from them. -/
def Disk.SameOutside (m : Mishaps) (stores : List Place) (d e : Disk) : Prop :=
  ∀ q, isApart stores q → (d.IsScratch q → m.fault .discard = none) →
    (d.node? q).map (DiskNode.agreed m) = (e.node? q).map (DiskNode.agreed m)

theorem Disk.Alike.sameOutside {m : Mishaps} {stores : List Place} {d e : Disk} (h : Alike m stores d e) :
    SameOutside m stores d e := by
  intro q hq hscratch
  by_cases hdiscard : m.fault .discard = none
  · exact h.node?_of_discard hq hdiscard
  · exact h.node? hq fun hs => hdiscard (hscratch hs)

/-! ## Abreast, by hand -/

variable {m : Mishaps} {put : Deposits} {stores : List Place} {root path : String} {p : Place} {c : Conditions}
  {all : List Sighting}

namespace Abreast

variable {w wU : World} {d dU : Disk}

/-- Both disks change, but neither what is in the stores nor where they are. -/
theorem keep (h : Abreast m put stores w wU) (halike : Alike m stores d dU)
    (hstores : ∀ q, isApart stores q = false → d.node? q = w.disk.node? q)
    (hhomes : ∀ q ∈ stores, dU.IsDirectory q) : Abreast m put stores { w with disk := d } { wU with disk := dU } where
  alike := halike
  contents p hp := (h.contents p hp).congr fun q hq => hstores (p ++ q) (not_isApart_iff.mpr ⟨p, hp, q, hq, rfl⟩)
  homes := hhomes

/-- A file that is saved is saved in both worlds. -/
theorem save (h : Abreast m put stores w wU) (hsaves : Saves stores wU.disk path p) (body : Bytes)
    (modified : Instant) :
    ∃ d dU, w.disk.save path body modified = .ok d ∧ wU.disk.save path body modified = .ok dU ∧
      Ways wU.disk dU ∧ Abreast m put stores { w with disk := d } { wU with disk := dU } := by
  have hsaves' := hsaves.alike h.alike
  have hput := h.alike.put hsaves.apart hsaves'.plain hsaves.ne_nil (hsaves.agreed_eq h.alike body modified)
  have hways : Ways wU.disk (wU.disk.put p (.file body (wU.disk.modeAt p) modified)) :=
    Ways.put_file hsaves.ne_nil hsaves.free
  refine ⟨_, _, hsaves'.save_eq body modified, hsaves.save_eq body modified,
    ⟨hways.here, hways.directory, hways.link⟩, h.keep (hput.later _ _ _ _) (fun q hq => ?_) fun q hq => ?_⟩
  · rw [node?_tick, node?_put hsaves.ne_nil, if_neg]
    rintro rfl
    exact absurd (hsaves.apart.symm.trans hq) (by simp)
  · exact hways.directory q (h.homes q hq)

/-- A file that is taken away is taken away in both worlds. -/
theorem remove (h : Abreast m put stores w wU) (hlocate : wU.disk.locate false path = .ok p) (hleaf : wU.disk.IsLeaf p)
    (hplain : ¬ wU.disk.IsScratch p) :
    ∃ d dU, w.disk.remove path = .ok d ∧ wU.disk.remove path = .ok dU ∧
      Ways wU.disk dU ∧ Abreast m put stores { w with disk := d } { wU with disk := dU } := by
  obtain ⟨body, mode, modified, hfile⟩ := hleaf.file
  obtain ⟨mode', modified', hfile', -⟩ := h.alike.file hplain hfile
  have hways := Ways.erase_file hleaf
  refine ⟨w.disk.erase p, wU.disk.erase p, ?_, ?_, hways, h.keep (h.alike.erase hleaf) (fun q hq => ?_) fun q hq => ?_⟩
  · exact remove_file (locate_mono h.alike.ways hlocate) hfile'
  · exact remove_file hlocate hfile
  · rw [node?_erase _ hleaf.ne_nil, if_neg]
    -- no store is below a file, and no file that is taken away is in a store
    intro hprefix
    obtain ⟨store, hstore, r, hr, rfl⟩ := not_isApart_iff.mp hq
    rcases List.prefix_or_prefix_of_prefix hprefix (List.prefix_append store r) with hle | ⟨s, rfl⟩
    · obtain ⟨mode', hdir⟩ := h.homes store hstore
      obtain rfl := hleaf.eq_of_front (by rw [hdir]; simp) hle
      exact hleaf.file.not_isDirectory ⟨mode', hdir⟩
    · refine isApart_iff.mp (h.alike.isApart (by rw [hfile]; simp)) store hstore (isBelow_iff.mpr ⟨s, ?_, rfl⟩)
      rintro rfl
      rw [List.append_nil] at hleaf
      exact hleaf.file.not_isDirectory (h.homes store hstore)
  · exact hways.directory q (h.homes q hq)

/-- Directories that are made are made in both worlds. -/
theorem makeDirectory (h : Abreast m put stores w wU) (hmake : wU.disk.makeDirectory path = .ok dU)
    (hapart : ∀ q, dU.IsDirectory q → isApart stores q ∧ ¬ dU.IsScratch q) :
    ∃ d, w.disk.makeDirectory path = .ok d ∧
      Ways wU.disk dU ∧ Abreast m put stores { w with disk := d } { wU with disk := dU } := by
  obtain ⟨d, hmade, halike, hstores⟩ := h.alike.makeDirectory hmake hapart
  have hways := (Furnished.makeDirectory hmake).ways
  exact ⟨d, hmade, hways, h.keep halike hstores fun q hq => hways.directory q (h.homes q hq)⟩

end Abreast

/-! ## Together -/

/-- Two scenes in which the same happens, one of them with stores. -/
structure Together (m : Mishaps) (put : Deposits) (root : String) (stores : List Place) (s sU : Scene) : Prop where
  abreast : Abreast m put stores s.world sU.world
  length : s.enforcers.length = sU.enforcers.length
  twins : ∀ (i : Nat) (e eU : Enforcer), s.enforcers[i]? = some e → sU.enforcers[i]? = some eU →
    Enforcer.Twin put root stores sU.world.disk e eU

/-- What leads to a directory still does. -/
def Disk.Leading (d e : Disk) : Prop := ∀ dir p, Leads d dir p → Leads e dir p

/-- What is said of two scenes after the same event: the answers are alike, and all goes on. -/
structure Together.After (m : Mishaps) (put : Deposits) (root : String) (stores : List Place) (d : Disk)
    (x xU : Reply × Scene) : Prop where
  replies : x.1.plain = xU.1.plain
  together : Together m put root stores x.2 xU.2
  leading : d.Leading xU.2.world.disk

namespace Together

variable {s sU : Scene} {w wU : World} {e eU : Enforcer}

/-- Nobody is at a place, or one who has a twin. -/
theorem at_place (h : Together c.mishaps put root stores s sU) (i : Nat) :
    s.enforcers[i]? = none ∧ sU.enforcers[i]? = none ∨
      ∃ e eU, s.enforcers[i]? = some e ∧ sU.enforcers[i]? = some eU ∧
        Enforcer.Twin put root stores sU.world.disk e eU := by
  by_cases hi : i < s.enforcers.length
  · have he := List.getElem?_eq_getElem hi
    have heU := List.getElem?_eq_getElem (h.length ▸ hi : i < sU.enforcers.length)
    exact .inr ⟨_, _, he, heU, h.twins i _ _ he heU⟩
  · rw [List.getElem?_eq_none (by omega), List.getElem?_eq_none (by have := h.length; omega)]
    exact .inl ⟨rfl, rfl⟩

/-- The worlds go on. -/
theorem with_world (h : Together c.mishaps put root stores s sU) (habreast : Abreast c.mishaps put stores w wU)
    (hleading : sU.world.disk.Leading wU.disk) :
    Together c.mishaps put root stores { s with world := w } { sU with world := wU } where
  abreast := habreast
  length := h.length
  twins i e eU he heU := (h.twins i e eU he heU).mono hleading

/-- One of those in each scene goes on. -/
theorem set (h : Together c.mishaps put root stores s sU) (i : Nat)
    (ht : Enforcer.Twin put root stores sU.world.disk e eU) :
    Together c.mishaps put root stores { s with enforcers := s.enforcers.set i e }
      { sU with enforcers := sU.enforcers.set i eU } where
  abreast := h.abreast
  length := by simpa using h.length
  twins j e' eU' he heU := by
    rw [List.getElem?_set] at he heU
    by_cases hij : i = j
    · rw [if_pos hij] at he heU
      split at he
      · split at heU
        · obtain rfl := Option.some.inj he
          obtain rfl := Option.some.inj heU
          exact ht
        · exact absurd heU (by simp)
      · exact absurd he (by simp)
    · rw [if_neg hij] at he heU
      exact h.twins j e' eU' he heU

/-- Somebody comes to each scene. -/
theorem concat (h : Together c.mishaps put root stores s sU) (ht : Enforcer.Twin put root stores sU.world.disk e eU) :
    Together c.mishaps put root stores { s with enforcers := s.enforcers ++ [e] }
      { sU with enforcers := sU.enforcers ++ [eU] } where
  abreast := h.abreast
  length := by simpa using h.length
  twins j e' eU' he heU := by
    rcases Nat.lt_trichotomy j s.enforcers.length with hj | rfl | hj
    · rw [List.getElem?_append_left hj] at he
      rw [List.getElem?_append_left (h.length ▸ hj)] at heU
      exact h.twins j e' eU' he heU
    · rw [List.getElem?_concat_length] at he
      rw [h.length, List.getElem?_concat_length] at heU
      obtain rfl := Option.some.inj he
      obtain rfl := Option.some.inj heU
      exact ht
    · rw [List.getElem?_eq_none (by simp; omega)] at he
      exact absurd he (by simp)

/-- What is done by hand is done in both scenes. -/
theorem keep (h : Together c.mishaps put root stores s sU) {result resultU : Except FileFault Disk} {d dU : Disk}
    (hresult : result = .ok d) (hresultU : resultU = .ok dU) (hways : Ways sU.world.disk dU)
    (habreast : Abreast c.mishaps put stores { s.world with disk := d } { sU.world with disk := dU }) :
    After c.mishaps put root stores sU.world.disk (s.keep result) (sU.keep resultU) := by
  subst hresult hresultU
  have hleading : sU.world.disk.Leading dU := fun dir p hleads => hleads.mono hways
  exact ⟨rfl, h.with_world habreast hleading, hleading⟩

/-- The project is opened in both scenes, or in neither. -/
theorem openAt (h : Together c.mishaps put root stores s sU) {config : Config}
    (hhoused : (Event.openAt config).Housed root stores sU.world.disk) :
    After c.mishaps put root stores sU.world.disk ((Event.openAt config).happen root c s)
      ((Event.openAt config.uncached).happen root c sU) := by
  obtain ⟨hworld, habreast, hopened⟩ := Enforcer.openAt_abreast h.abreast (hhoused config rfl)
  simp only [Event.happen]
  generalize (Enforcer.openAt root config).run (World.answerUnder c) s.world = ran at habreast hopened ⊢
  generalize (Enforcer.openAt root config.uncached).run (World.answerUnder c) sU.world = ranU at hworld hopened ⊢
  obtain ⟨result, w⟩ := ran
  obtain ⟨resultU, wU⟩ := ranU
  obtain rfl : wU = sU.world := hworld
  have hnext := h.with_world habreast fun _ _ hleads => hleads
  cases result with
  | ok e =>
    cases resultU with
    | ok eU => exact ⟨rfl, hnext.concat hopened, fun _ _ hleads => hleads⟩
    | error fault => exact absurd hopened id
  | error fault =>
    cases resultU with
    | ok eU => exact absurd hopened id
    | error faultU =>
      obtain rfl : fault = faultU := hopened
      exact ⟨rfl, hnext, fun _ _ hleads => hleads⟩

/-- Nobody runs in either scene, or one who has a twin and the twin. -/
theorem enforce {p : Place} (h : Together c.mishaps (Sighting.deposits root c.program all) root stores s sU)
    (hall : Sighting.Unambiguous root all)
    (hroot : Leads sU.world.disk root p) {who n : Nat} {target : Target} {options : RunOptions}
    (hfits : (Event.enforce who target options n).Fits c stores sU)
    (hseen : ∀ x ∈ (Event.enforce who target options n).sightings c s, x ∈ all) :
    After c.mishaps (Sighting.deposits root c.program all) root stores sU.world.disk
      ((Event.enforce who target options n).happen root c s)
      ((Event.enforce who target options n).happen root c sU) := by
  simp only [Event.happen, Event.sightings, Event.Fits] at hfits hseen ⊢
  rcases h.at_place who with ⟨hnone, hnoneU⟩ | ⟨e, eU, he, heU, ht⟩
  · rw [hnone, hnoneU]
    exact ⟨rfl, h, fun _ _ hleads => hleads⟩
  · rw [he] at hseen
    have hran := Enforcer.run_abreast hall h.abreast ht hroot (hfits eU heU) hseen
    have hnext := (h.with_world hran.abreast hran.steady.leads).set who hran.twin
    rw [he, heU]
    simp only
    refine ⟨congrArg Reply.reported hran.answers, ?_, hran.steady.leads⟩
    exact hran.unchanged.symm ▸ hnext

/-- Nobody clears a store in either scene, or one who has a twin. -/
theorem clear (h : Together c.mishaps put root stores s sU) (who : Nat) :
    After c.mishaps put root stores sU.world.disk ((Event.clear who).happen root c s)
      ((Event.clear who).happen root c sU) := by
  simp only [Event.happen]
  rcases h.at_place who with ⟨hnone, hnoneU⟩ | ⟨e, eU, he, heU, ht⟩
  · rw [hnone, hnoneU]
    exact ⟨rfl, h, fun _ _ hleads => hleads⟩
  · obtain ⟨hworld, ht', habreast⟩ := Enforcer.clearCache_abreast h.abreast ht
    rw [he, heU]
    simp only [hworld]
    exact ⟨rfl, (h.with_world habreast fun _ _ hleads => hleads).set who ht', fun _ _ hleads => hleads⟩

/-- **An event comes to the same with stores and without**, and all goes on. -/
theorem happen {p : Place} (h : Together c.mishaps (Sighting.deposits root c.program all) root stores s sU)
    (hall : Sighting.Unambiguous root all)
    (hroot : Leads sU.world.disk root p) {event : Event} (hhoused : event.Housed root stores sU.world.disk)
    (hfits : event.uncached.Fits c stores sU) (hseen : ∀ x ∈ event.sightings c s, x ∈ all) :
    After c.mishaps (Sighting.deposits root c.program all) root stores sU.world.disk (event.happen root c s)
      (event.uncached.happen root c sU) := by
  cases event with
  | save path body modified =>
    obtain ⟨q, hsaves⟩ := hfits
    obtain ⟨d, dU, hd, hdU, hways, habreast⟩ := h.abreast.save hsaves body modified
    exact h.keep hd hdU hways habreast
  | remove path =>
    obtain ⟨q, hlocate, hleaf, hplain⟩ := hfits
    obtain ⟨d, dU, hd, hdU, hways, habreast⟩ := h.abreast.remove hlocate hleaf hplain
    exact h.keep hd hdU hways habreast
  | makeDirectory path =>
    obtain ⟨dU, hdU, hapart⟩ := hfits
    obtain ⟨d, hd, hways, habreast⟩ := h.abreast.makeDirectory hdU hapart
    exact h.keep hd hdU hways habreast
  | wait now =>
    obtain ⟨halike, hcontents, hhomes⟩ := h.abreast
    exact ⟨rfl, h.with_world ⟨halike, hcontents, hhomes⟩ fun _ _ hleads => hleads, fun _ _ hleads => hleads⟩
  | openAt config => exact h.openAt hhoused
  | enforce who target options n => exact h.enforce hall hroot hfits hseen
  | clear who => exact h.clear who

/-- **A history comes to the same with stores and without.** -/
theorem history {p : Place} (hall : Sighting.Unambiguous root all)
    {events : List Event} : ∀ {s sU : Scene}, Together c.mishaps (Sighting.deposits root c.program all) root stores s sU →
      Leads sU.world.disk root p → (∀ event ∈ events, event.Housed root stores sU.world.disk) →
      HistoryFits stores root c sU (events.map Event.uncached) → (∀ x ∈ historySightings root c s events, x ∈ all) →
      List.Forall₂ (fun x xU => x.1.plain = xU.1.plain ∧ x.2.SameOutside c.mishaps stores xU.2)
        (history root c s events) (history root c sU (events.map Event.uncached)) := by
  induction events with
  | nil => exact fun _ _ _ _ _ => .nil
  | cons event rest ih =>
    intro s sU h hroot hhoused hfits hseen
    obtain ⟨hfit, hfits⟩ := hfits
    have hafter := h.happen hall hroot (hhoused event List.mem_cons_self) hfit
      fun x hx => hseen x (List.mem_append_left _ hx)
    refine .cons ⟨hafter.replies, hafter.together.abreast.alike.sameOutside⟩ ?_
    refine ih hafter.together (hafter.leading root p hroot) (fun event hevent config hconfig henabled => ?_) hfits
      fun x hx => hseen x (List.mem_append_right _ hx)
    obtain ⟨q, hq, hleads⟩ := hhoused event (List.mem_cons_of_mem _ hevent) config hconfig henabled
    exact ⟨q, hq, hafter.leading _ q hleads⟩

end Together

/-! ## From the beginning -/

/-- What is asked about a file is what is there. -/
theorem Enforcer.sighting?_eq {e : Enforcer} {d : Disk} {body : Bytes} {mode : Nat} {t : Instant} {s : Sighting}
    (hr : d.Denotes path p) (hnode : d.node? p = some (.file body mode t))
    (h : e.sighting? {} d path = some s) : s = ⟨e.project.config, path, t, .ok body⟩ := by
  have hmodified : d.modified? path = some t := by
    rw [Disk.modified?, visit, hr.locate]
    simp only [bind, Except.bind, hnode, pure, Except.pure]
  have hreading : Conditions.reading {} d path = .ok body := hr.read hnode
  rw [Enforcer.sighting?, hmodified, hreading] at h
  cases hcache : e.cache with
  | none => rw [hcache] at h; exact absurd h (by simp)
  | some cache =>
    rw [hcache] at h
    exact (Option.some.inj h).symm

/-- Someone who opened the project sees the script as it was in the beginning. -/
structure SeesScript (stores : List Place) (config : Config) (e : Enforcer) (d : Disk) : Prop where
  project : e.project = ⟨"/", config⟩
  moored : e.Moored stores d
  apart : isApart stores ["a.js"]
  process : (toString d.process).utf8ByteSize ≤ 20
  denotes : d.Denotes "/a.js" ["a.js"]
  node : d.node? ["a.js"] = some (.file (Bytes.ofText "console.log(1);\n") newFileMode 0)

namespace SeesScript

variable {config : Config} {e : Enforcer} {w : World}

theorem of_aside {e' : Enforcer} {d d' : Disk} (h : SeesScript stores config e d) (hproject : e'.project = e.project)
    (hmoored : e'.Moored stores d') (haside : Aside stores d d') : SeesScript stores config e' d' where
  project := hproject.trans h.project
  moored := hmoored
  apart := h.apart
  process := haside.process ▸ h.process
  denotes := ⟨locate_mono haside.ways h.denotes.locate, _, _, _, (haside.node? _ h.apart).trans h.node⟩
  node := (haside.node? _ h.apart).trans h.node

theorem run (h : SeesScript stores config e w.disk) :
    SeesScript stores config (e.runUntil {} 1 (.files ["a.js"]) {} w).1.2
      (e.runUntil {} 1 (.files ["a.js"]) {} w).2.disk := by
  have hkept := @Enforcer.runUntil_idle stores {} w e {} (.inl rfl) h.moored 1 (.files ["a.js"])
  exact h.of_aside hkept.project hkept.moored hkept.aside

/-- The script has a short name, which is not that of a scratch file. -/
theorem replaceable {d : Disk} (h : SeesScript stores config e d) : d.Replaceable "/a.js" ["a.js"] where
  toDenotes := h.denotes
  plain hscratch := absurd hscratch.starts (by decide)
  room := by
    refine scratchRoom_of_short h.process (by decide) fun p hplace => ?_
    have hlast : (Path.parts "/a.js").getLast? = some "a.js" := by decide +kernel
    rcases (locate_eq_ok.mp (placeFor_eq_ok hplace).1).2.getLastD hlast with ⟨hpart, -⟩ | hpart | hname
    · exact absurd hpart (by decide)
    · exact absurd hpart (by decide)
    · rw [hname]
      decide

theorem files (h : SeesScript stores config e w.disk) :
    ((e.filesOf (.files ["a.js"])).run (World.answerUnder {}) w).1 = .ok ["/a.js"] := by
  have hexplicit : Selection.explicit "/" ["a.js"] = ["/a.js"] := by decide +kernel
  rw [Enforcer.filesOf, h.project]
  exact congrArg Except.ok hexplicit

theorem fits (h : SeesScript stores config e w.disk) : ∀ e', some e = some e' →
    ∀ files, ((e'.filesOf (.files ["a.js"])).run (World.answerUnder {}) w).1 = .ok files →
      ∀ path ∈ files, ∃ r, w.disk.Replaceable path r := by
  intro e' he' files hfiles path hpath
  obtain rfl := Option.some.inj he'
  obtain rfl := Except.ok.inj (h.files.symm.trans hfiles)
  rw [List.mem_singleton.mp hpath]
  exact ⟨_, h.replaceable⟩

theorem sightings (h : SeesScript stores Config.default e w.disk) :
    ∀ s ∈ e.runSightings {} 1 (.files ["a.js"]) {} w,
      s = ⟨Config.default, "/a.js", 0, .ok (Bytes.ofText "console.log(1);\n")⟩ := by
  have hbatch : ((Enforcer.batches Config.default.concurrency ["/a.js"]).take 1).flatten = ["/a.js"] := by decide +kernel
  intro s hs
  rw [Enforcer.runSightings, h.files] at hs
  simp only [h.project, hbatch, Enforcer.sightings, List.append_nil, Option.mem_toList] at hs
  rw [Enforcer.sighting?_eq h.denotes h.node hs, h.project]

/-- Whoever opens the project sees the script. -/
theorem openAt (hcheck : config.check = .ok ()) (hdirectory : config.cache.directory = ".logsweep-cache") :
    ∃ stores e w₁, (Enforcer.openAt "/" config).run (World.answerUnder {}) Enforcer.oneScript = (.ok e, w₁) ∧
      SeesScript stores config e w₁.disk := by
  obtain ⟨e, w₁, hopen, hproject⟩ := @Enforcer.openAt_ok _ (World.answerUnder {}) "/" config hcheck Enforcer.oneScript
  obtain ⟨stores, hopened⟩ := Enforcer.openAt_opened hopen fun _ =>
    hdirectory ▸ reserved_of_contents Enforcer.leads_oneScript (.of_empty _ Enforcer.oneScript_empty)
  have hapart : isApart stores ["a.js"] := hopened.apart "/a.js" ["a.js"] rfl ⟨_, _, _, rfl⟩ (by decide +kernel)
  have hnode : w₁.disk.node? ["a.js"] = some (.file (Bytes.ofText "console.log(1);\n") newFileMode 0) := by
    rcases hopened.keeps ["a.js"] hapart with hsame | ⟨-, -, hnone, -⟩
    · exact hsame
    · exact absurd hnone (by decide +kernel)
  have hprocess : (toString w₁.disk.process).utf8ByteSize ≤ 20 := by
    rw [hopened.process]
    decide +kernel
  exact ⟨stores, e, w₁, hopen, hproject, hopened.moored, hapart, hprocess,
    ⟨locate_mono hopened.ways rfl, _, _, _, hnode⟩, hnode⟩

end SeesScript

end LogHygiene
