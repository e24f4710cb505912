import LogHygiene.Proofs.Cache.Keeping
import LogHygiene.Proofs.Enforcement.Tallies

/-!
# The numbers in a report

A report counts files and violations, and says whether all is well. One function counts, one file at a time
(`Stats.record`), and in the end one count is taken from another. What keeps that right is

> **no file is both exempt and broken, and what was written was a success** (`FileOutcome.Sane`),

whatever is in files and whatever goes wrong with them. The first half is not true of anything that could be found in
a store, but of what runs put there: results without an error (`Cache.faultless`). So the statement about a run
(`Enforcer.run_accounts`) is one about all that was done before in a world in which no one else uses the directory of
the store (`Lived`), also by those who were stopped in the middle.
-/

set_option autoImplicit false

namespace LogHygiene

open Disk Cache
open Procedure (Tends)

/-! ## What fits together -/

/-- Results without an error: a run puts no others into a store. -/
def Cache.faultless : Deposits := {x | x.2.hasError = false}

/-- An enforcer that works in batches, and whose store is in a directory, without a result that has an error in it. -/
structure Enforcer.Decent (dir : String) (e : Enforcer) : Prop where
  concurrency : 1 ≤ e.project.config.concurrency
  store : ∀ cache, e.cache = some cache → Honest faultless dir cache

variable {put : Deposits} {path dir : String} {c : Conditions} {s : World × Nat} {w : World}

namespace Project

variable (p : Project)

theorem sane_analyzeSource (path : String) (source : Bytes) : (p.analyzeSource path source).Sane := by
  rw [analyzeSource]
  split
  · exact .ofFault _ _ _
  · rw [analyzeParsed]
    split
    · exact .ofFault _ _ _
    · exact fun _ => rfl

theorem tends_analyze (h : Tended put dir s.1.disk) (path : String) :
    (p.analyze path).Tends c put dir (fun a _ => a.Sane) s := by
  unfold analyze
  simp only
  split
  · exact ⟨h, .ofFault _ _ _⟩
  · split
    · exact ⟨h, fun _ => rfl⟩
    · split
      · exact ⟨h, fun _ => rfl⟩
      · refine Tends.look h rfl fun answer s' hs' => ?_
        cases answer with
        | error f => exact ⟨hs' ▸ h, .ofFault _ _ _⟩
        | ok source => exact ⟨hs' ▸ h, p.sane_analyzeSource path source⟩

/-- Planning only looks. -/
theorem tends_plan (h : Tended put dir s.1.disk) (path : String) :
    (p.plan path).Tends c put dir
      (fun plan w => w = s.1 ∧ plan = ((p.plan path).run (World.answerUnder c) s.1).1) s := by
  unfold plan
  split
  · exact ⟨h, rfl, rfl⟩
  · simp only
    split
    · exact ⟨h, rfl, rfl⟩
    · refine ⟨h, ?_⟩
      rw [World.answerUntil_of_ne c (by simp), Procedure.run_bind, Procedure.run_request]
      cases (World.answerUnder c (.read path) s.1).1 with
      | error f => exact ⟨h, rfl, rfl⟩
      | ok original => exact ⟨h, rfl, rfl⟩

/-- **A fix leaves stores alone**, and what it wrote was a success. -/
theorem tends_fix (h : Tended put dir s.1.disk) (path : String) (dryRun : Bool) :
    (p.fix path dryRun).Tends c put dir (fun r _ => r.written = true → r.success = true) s := by
  refine (p.tends_plan h path).bind fun plan s₁ h₁ hplan => ?_
  obtain ⟨hworld, rfl⟩ := hplan
  have hsound := p.plan_sound (World.answerUnder c) path s.1
  have hgrammar := p.grammar_of_hasChanges (World.answerUnder c) path s.1
  have hdenotes := p.plan_denotes c path s.1
  generalize ((p.plan path).run (World.answerUnder c) s.1).1 = plan at hsound hgrammar hdenotes
  have hplain : plan.report.written = true → plan.report.success = true :=
    fun hwritten => absurd (hsound.unwritten.symm.trans hwritten) (by simp)
  have hfail : ∀ f, (plan.report.fail f).written = true → (plan.report.fail f).success = true :=
    fun f hwritten => absurd hwritten (by simp [FixReport.fail])
  unfold FixPlan.apply
  simp only
  split
  · exact ⟨h₁, hplain⟩
  · rename_i hready
    simp only [Bool.or_eq_true, Bool.not_eq_true', not_or, Bool.not_eq_false] at hready
    have hverdict : plan.verdict.Tends c put dir (fun _ w => w = s.1) s₁ := by
      unfold FixPlan.verdict
      split
      · exact ⟨h₁, hworld⟩
      · exact Tends.look h₁ rfl fun _ s' hs' => ⟨hs' ▸ h₁, hs'.trans hworld⟩
    refine hverdict.bind fun verdict s₂ h₂ hworld₂ => ?_
    cases verdict with
    | error f => exact ⟨h₂, hfail _⟩
    | ok u =>
      simp only
      split
      · exact ⟨h₂, hplain⟩
      · -- what is written takes the place of a file that was read, and a grammar reads it
        obtain ⟨r, hr⟩ := hdenotes hready.2
        have htended : Tended put dir s.1.disk := hworld₂ ▸ h₂
        have hwritten := htended.replace hr (hgrammar hready.2) c.mishaps plan.report.fixed
        rw [hsound.path_eq]
        refine ⟨h₂, ?_⟩
        rw [World.answerUntil_of_ne c (by simp), World.answerUnder_replace, hworld₂]
        cases (s.1.disk.replace c.mishaps path plan.report.fixed).1 with
        | some f => exact ⟨hwritten, hfail _⟩
        | none => exact ⟨hwritten, fun _ => hready.1⟩

end Project

namespace Enforcer

variable {e e' : Enforcer} {options : RunOptions}

theorem tends_checkOnAnalyze (h : Tended put dir s.1.disk) {a : Analysis} (e : Enforcer) (path : String) (ha : a.Sane) :
    (e.checkOnAnalyze path a).Tends c put dir (fun b _ => b.Sane) s := by
  unfold checkOnAnalyze
  split
  · exact ⟨h, ha⟩
  · rename_i check hcheck
    have hexcluded : a.excluded = false := by
      rw [onAnalyze?] at hcheck
      simp only [bind, Option.bind_eq_some_iff] at hcheck
      obtain ⟨family, -, c, -, hcheck⟩ := hcheck
      split at hcheck
      · rename_i h
        simp only [Bool.and_eq_true, Bool.not_eq_true'] at h
        exact h.1.2
      · exact absurd hcheck (by simp)
    have hfail : ∀ f, (a.fail f).Sane := fun f h => absurd (hexcluded.symm.trans h) (by simp)
    refine Tends.look h rfl fun answer s₁ hs₁ => ?_
    have h₁ : Tended put dir s₁.1.disk := hs₁ ▸ h
    cases answer with
    | error f => exact ⟨h₁, hfail _⟩
    | ok source =>
      simp only
      split
      · exact ⟨h₁, hfail _⟩
      · refine Tends.look h₁ rfl fun attempt s₂ hs₂ => ?_
        have h₂ : Tended put dir s₂.1.disk := hs₂ ▸ h₁
        split
        · exact ⟨h₂, hfail _⟩
        · exact ⟨h₂, ha⟩

theorem tends_lookUp (h : Tended faultless dir s.1.disk) (he : e.Decent dir) (path : String)
    (modified : Option Instant) :
    (e.lookUp path modified).Tends c faultless dir (fun found _ =>
      (∀ a, found.1 = some a → a.hasError = false) ∧ found.2.Decent dir ∧ found.2.project = e.project) s := by
  unfold lookUp
  split
  · rename_i cache t hcache
    refine (Tends.of_safe ((he.store cache hcache).fetch _) (heedless_fetch _ _) h).bind fun found s' h' hfound => ?_
    obtain ⟨hleft, hput⟩ := hfound
    refine ⟨h', fun a ha => ?_, ⟨he.concurrency, fun _ heq => Option.some.inj heq ▸ hleft⟩, rfl⟩
    obtain ⟨entry, hentry, rfl⟩ := Option.map_eq_some_iff.mp ha
    exact (hput entry hentry).2
  · exact ⟨h, fun a ha => absurd ha (by simp), he, rfl⟩

theorem tends_store (h : Tended faultless dir s.1.disk) (he : e.Decent dir) (modified : Option Instant) (a : Analysis) :
    (e.store modified a).Tends c faultless dir (fun left _ => left.Decent dir ∧ left.project = e.project) s := by
  unfold store
  split
  · rename_i cache t hcache
    split
    · exact ⟨h, he, rfl⟩
    · rename_i hok
      have hput : (Cache.key a.path t e.fingerprint, a) ∈ faultless := by
        simpa [faultless] using hok
      have hset := Tends.of_safe (c := c) ((he.store cache hcache).set _ _ _ hput) (heedless_set _ _ _ _ _) h
      refine hset.bind fun left s' h' hleft => ?_
      exact ⟨h', ⟨he.concurrency, fun _ heq => Option.some.inj heq ▸ hleft⟩, rfl⟩
  · exact ⟨h, he, rfl⟩

/-- **What is reported about a file fits together**, and nothing with an error in it is stored. -/
theorem tends_process (h : Tended faultless dir s.1.disk) (he : e.Decent dir) (options : RunOptions) (path : String) :
    (e.process options path).Tends c faultless dir (fun ran _ =>
      ran.1.Sane ∧ ran.2.Decent dir ∧ ran.2.project = e.project) s := by
  unfold process
  refine Tends.look h rfl fun modified s₁ hs₁ => ?_
  refine (tends_lookUp (hs₁ ▸ h) he path modified).bind fun found s₂ h₂ hfound => ?_
  obtain ⟨stored, e₁⟩ := found
  obtain ⟨hstored, he₁, hproject₁⟩ := hfound
  have hfix : ∀ {a : Analysis} {e₂ : Enforcer} {s : World × Nat}, a.Sane → e₂.Decent dir → e₂.project = e.project →
      Tended faultless dir s.1.disk → (do
        let fix ← if needsFix options a then some <$> e₂.project.fix path options.dryRun else pure none
        pure ((⟨a, stored.isSome, fix⟩ : FileOutcome), e₂)).Tends c faultless dir
          (fun (ran : FileOutcome × Enforcer) _ => ran.1.Sane ∧ ran.2.Decent dir ∧ ran.2.project = e.project) s := by
    intro a e₂ s ha he₂ hproject₂ h
    simp only
    split
    · have hfix : (some <$> e₂.project.fix path options.dryRun).Tends c faultless dir (fun fix _ =>
          ∀ r, fix = some r → r.written = true → r.success = true) s := by
        refine (e₂.project.tends_fix h path options.dryRun).bind fun r s' h' hr => ?_
        exact ⟨h', fun r' hr' => Option.some.inj hr' ▸ hr⟩
      exact hfix.bind fun fix s' h' hfix => ⟨h', ⟨ha, hfix⟩, he₂, hproject₂⟩
    · exact ⟨h, ⟨ha, fun r hr => absurd hr (by simp)⟩, he₂, hproject₂⟩
  cases stored with
  | some a => exact hfix (fun _ => hstored a rfl) he₁ hproject₁ h₂
  | none =>
    refine (e₁.project.tends_analyze h₂ path).bind fun a s₃ h₃ ha => ?_
    refine (e₁.tends_checkOnAnalyze h₃ path ha).bind fun b s₄ h₄ hb => ?_
    refine (tends_store h₄ he₁ modified b).bind fun e₂ s₅ h₅ he₂ => ?_
    exact hfix hb he₂.1 (he₂.2.trans hproject₁) h₅

/-! ## All files -/

theorem tends_filesOf (h : Tended put dir s.1.disk) (e : Enforcer) (target : Target) :
    (e.filesOf target).Tends c put dir (fun _ _ => True) s := by
  unfold filesOf
  split
  · exact ⟨h, trivial⟩
  · split
    · exact ⟨h, trivial⟩
    · refine Tends.look h rfl fun answer s' hs' => ?_
      cases answer <;> exact ⟨hs' ▸ h, trivial⟩

theorem tends_processAll (options : RunOptions) : ∀ {files : List String} {e : Enforcer} {s : World × Nat},
    Tended faultless dir s.1.disk → e.Decent dir → (processAll options e files).Tends c faultless dir
      (fun ran _ => ran.2.Decent dir) s
  | [], _, _, h, he => ⟨h, he⟩
  | path :: _, _, _, h, he => (tends_process h he options path).bind fun _ _ h' hran =>
    (tends_processAll options h' hran.2.1).bind fun _ _ h'' hmore => ⟨h'', hmore⟩

theorem tends_processBatches (options : RunOptions) : ∀ {all : List (List String)} {e : Enforcer} {s : World × Nat},
    Tended faultless dir s.1.disk → e.Decent dir → (processBatches options e all).Tends c faultless dir
      (fun ran _ => ran.2.2.Decent dir) s
  | [], _, _, h, he => ⟨h, he⟩
  | batch :: rest, e, s, h, he => by
    refine Tends.look h rfl fun stop s' hs' => ?_
    have h' : Tended faultless dir s'.1.disk := hs' ▸ h
    cases stop with
    | true => exact ⟨h', he⟩
    | false => exact (tends_processAll options h' he).bind fun _ _ h'' hran =>
        (tends_processBatches options h'' hran).bind fun _ _ hlast hmore => ⟨hlast, hmore⟩

theorem tends_run (h : Tended faultless dir s.1.disk) (he : e.Decent dir) (target : Target) (options : RunOptions) :
    (e.run target options).Tends c faultless dir (fun ran _ => ran.2.Decent dir) s := by
  refine Tends.look h rfl fun started s₁ hs₁ => ?_
  refine (e.tends_filesOf (hs₁ ▸ h) target).bind fun listed s₂ h₂ _ => ?_
  cases listed with
  | error f => exact ⟨h₂, he⟩
  | ok files =>
    refine (tends_processBatches options h₂ he).bind fun ran s₃ h₃ hran => ?_
    exact Tends.look h₃ rfl fun _ s₄ hs₄ => ⟨hs₄ ▸ h₃, hran⟩

theorem tends_openAt (h : Tended faultless dir s.1.disk) (root : String) (config : Config)
    (hsited : config.cache.enabled = true → Path.join root config.cache.directory = dir ∧ MadeAnew s.1.disk dir) :
    (openAt root config).Tends c faultless dir (fun opened _ => ∀ e, opened = .ok e → e.Decent dir) s := by
  unfold openAt
  cases hok : config.check with
  | error f => exact ⟨h, fun e he => absurd he (by simp)⟩
  | ok u =>
    have hconcurrency := one_le_concurrency hok
    simp only
    split
    · rename_i henabled
      obtain ⟨rfl, hanew⟩ := hsited henabled
      refine (tends_openAt h hanew _).bind fun cache s' h' hcache => ⟨h', ?_⟩
      rintro e he
      obtain rfl := Except.ok.inj he
      exact ⟨hconcurrency, fun _ heq => Option.some.inj heq ▸ hcache⟩
    · refine ⟨h, ?_⟩
      rintro e he
      obtain rfl := Except.ok.inj he
      exact ⟨hconcurrency, fun _ heq => absurd heq (by simp)⟩

/-- Whoever opens a project opens its store. -/
theorem openAt_eq {σ : Type} (answer : (q : Request) → σ → q.Answer × σ) (root : String) {config : Config}
    (hcheck : config.check = .ok ()) (henabled : config.cache.enabled = true) (s : σ) :
    let opened := (Cache.openAt (Path.join root config.cache.directory) config.cache.ttlHours).run answer s
    (openAt root config).run answer s = (.ok ⟨⟨root, config⟩, config.fingerprint, some opened.1⟩, opened.2) := by
  simp only [openAt, hcheck, henabled, if_true, Procedure.run_bind, Procedure.run_pure]

theorem tends_clearCache (h : Tended faultless dir s.1.disk) (he : e.Decent dir) :
    e.clearCache.Tends c faultless dir (fun left _ => left.Decent dir) s := by
  unfold clearCache
  split
  · exact ⟨h, he⟩
  · rename_i cache hcache
    exact (Tends.of_safe (he.store cache hcache).clear (heedless_clear _) h).bind fun left s' h' hleft =>
      ⟨h', he.concurrency, fun _ heq => Option.some.inj heq ▸ hleft⟩

end Enforcer

/-! ## All that was done before -/

/-- Something that is done with a project. -/
inductive Deed where
  | openAt (root : String) (config : Config)
  | run (e : Enforcer) (target : Target) (options : RunOptions)
  | clear (e : Enforcer)

namespace Deed

/-- Who does it. -/
def doers : Deed → List Enforcer
  | openAt _ _ => []
  | run e _ _ => [e]
  | clear e => [e]

/-- How it is done, and who goes on from it. -/
def procedure : Deed → Procedure (List Enforcer)
  | openAt root config => do
    match ← Enforcer.openAt root config with
    | .ok e => pure [e]
    | .error _ => pure []
  | run e target options => do
    let (_, e) ← e.run target options
    pure [e]
  | clear e => do
    let e ← e.clearCache
    pure [e]

/-- A store that is opened is opened in a directory, and that was there or is made anew. -/
def Sited (dir : String) (d : Disk) : Deed → Prop
  | openAt root config =>
    config.cache.enabled = true → Path.join root config.cache.directory = dir ∧ MadeAnew d dir
  | _ => True

theorem tends (deed : Deed) (h : Tended faultless dir s.1.disk) (hdoers : ∀ e ∈ deed.doers, e.Decent dir)
    (hsited : deed.Sited dir s.1.disk) :
    deed.procedure.Tends c faultless dir (fun left _ => ∀ e ∈ left, e.Decent dir) s := by
  cases deed with
  | openAt root config =>
    refine (Enforcer.tends_openAt h root config hsited).bind fun opened s' h' hopened => ?_
    cases opened with
    | error f => exact ⟨h', fun e he => absurd he (by simp)⟩
    | ok e => exact ⟨h', fun e' he' => List.mem_singleton.mp he' ▸ hopened e rfl⟩
  | run e target options =>
    exact (Enforcer.tends_run h (hdoers e (by simp [doers])) target options).bind fun ran s' h' hran =>
      ⟨h', fun e' he' => List.mem_singleton.mp he' ▸ hran⟩
  | clear e =>
    exact (Enforcer.tends_clearCache h (hdoers e (by simp [doers]))).bind fun left s' h' hleft =>
      ⟨h', fun e' he' => List.mem_singleton.mp he' ▸ hleft⟩

end Deed

/-- Who may be there, and how the world may be, after projects were opened and worked on that have their stores in one
directory. In the beginning nothing is in it that anyone would take for a result. -/
inductive Lived (dir : String) : List Enforcer → World → Prop
  | start {w : World} (htended : Tended ∅ dir w.disk) : Lived dir [] w
  /-- something was done, with things going as they went, and a run was told to stop after so many batches -/
  | done {es : List Enforcer} {w : World} (h : Lived dir es w) (deed : Deed) (hdoers : ∀ e ∈ deed.doers, e ∈ es)
      (hsited : deed.Sited dir w.disk) (c : Conditions) (n : Nat) :
      Lived dir ((deed.procedure.run (World.answerUntil c) (w, n)).1 ++ es)
        (deed.procedure.run (World.answerUntil c) (w, n)).2.1
  /-- something was begun and broken off, between any two requests -/
  | cut {es : List Enforcer} {w : World} (h : Lived dir es w) (deed : Deed) (hdoers : ∀ e ∈ deed.doers, e ∈ es)
      (hsited : deed.Sited dir w.disk) (c : Conditions) (n k : Nat) :
      Lived dir es (deed.procedure.cut (World.answerUntil c) k (w, n)).1
  /-- anything else happened, but nobody else put anything into the directory -/
  | meanwhile {es : List Enforcer} {w w' : World} (h : Lived dir es w)
      (hkept : ∀ put, Tended put dir w.disk → Tended put dir w'.disk) : Lived dir es w'

/-- **No result with an error in it is ever in a store.** -/
theorem Lived.decent {es : List Enforcer} (h : Lived dir es w) :
    (∀ e ∈ es, e.Decent dir) ∧ Tended faultless dir w.disk := by
  induction h with
  | start htended => exact ⟨by simp, htended.mono (Set.empty_subset _)⟩
  | done _ deed hdoers hsited c n ih =>
    obtain ⟨htended, hleft⟩ := (deed.tends (s := (_, n)) (c := c) ih.2 (fun e he => ih.1 e (hdoers e he)) hsited).run
    refine ⟨fun e he => ?_, htended⟩
    rcases List.mem_append.mp he with he | he
    · exact hleft e he
    · exact ih.1 e he
  | cut _ deed hdoers hsited c n k ih =>
    exact ⟨ih.1, (deed.tends (s := (_, n)) (c := c) ih.2 (fun e he => ih.1 e (hdoers e he)) hsited).cut k⟩
  | meanwhile _ hkept ih => exact ⟨ih.1, hkept _ ih.2⟩

/-- Opening a project once more. -/
theorem Lived.openAt {es : List Enforcer} (h : Lived dir es w) {root : String} {config : Config}
    (hsited : (Deed.openAt root config).Sited dir w.disk) (hcheck : config.check = .ok ())
    (henabled : config.cache.enabled = true) (c : Conditions) (n : Nat) :
    let opened :=
      (Cache.openAt (Path.join root config.cache.directory) config.cache.ttlHours).run (World.answerUntil c) (w, n)
    Lived dir (⟨⟨root, config⟩, config.fingerprint, some opened.1⟩ :: es) opened.2.1 := by
  have hopened := Enforcer.openAt_eq (World.answerUntil c) root hcheck henabled (w, n)
  have hdone := h.done (.openAt root config) (by simp [Deed.doers]) hsited c n
  simp only [Deed.procedure, Procedure.run_bind, hopened, Procedure.run_pure] at hdone
  exact hdone

/-- One more run. -/
theorem Lived.run {es : List Enforcer} (h : Lived dir es w) {e : Enforcer} (he : e ∈ es) (target : Target)
    (options : RunOptions) (c : Conditions) (n : Nat) :
    Lived dir ((e.runUntil c n target options w).1.2 :: es) (e.runUntil c n target options w).2 := by
  have hdone := h.done (.run e target options) (fun e' he' => List.mem_singleton.mp he' ▸ he) trivial c n
  simp only [Deed.procedure, Procedure.run_bind, Procedure.run_pure] at hdone
  exact hdone

/-! ## Runs -/

namespace Enforcer

variable {e : Enforcer}

/-- Work on a file in the middle of a run comes to this. -/
def WorksOut (c : Conditions) (p : Project) (options : RunOptions) (path : String) (o : FileOutcome) : Prop :=
  ∃ (e : Enforcer) (w : World), e.project = p ∧ ((e.process options path).run (World.answerUnder c) w).1.1 = o

/-- Work on files one after another is work on each, and what is reported fits together. -/
theorem processAll_worked (c : Conditions) (options : RunOptions) : ∀ {files : List String} {e : Enforcer} {w : World},
    Tended faultless dir w.disk → e.Decent dir →
      let outcomes := ((processAll options e files).run (World.answerUnder c) w).1.1
      List.Forall₂ (WorksOut c e.project options) files outcomes ∧ ∀ o ∈ outcomes, o.Sane
  | [], _, _, _, _ => ⟨.nil, by simp [processAll]⟩
  | path :: rest, e, w, h, he => by
    have hfirst := (tends_process (c := c) (s := (w, 0)) h he options path).run
    rw [(e.heedless_process options path).run_until] at hfirst
    obtain ⟨h', hsane, he', hproject⟩ := hfirst
    obtain ⟨hworks, hrest⟩ := @processAll_worked c options rest _ _ h' he'
    rw [hproject] at hworks
    simp only [processAll, Procedure.run_bind, Procedure.run_pure]
    exact ⟨.cons ⟨e, w, rfl, rfl⟩ hworks, List.forall_mem_cons.mpr ⟨hsane, hrest⟩⟩

/-- **A report accounts for the files of a run**, whatever was done before and however things go: these are the files
of the batches before the run is told to stop. -/
theorem run_accounts {es : List Enforcer} (hlived : Lived dir es w) (he : e ∈ es) (n : Nat) {target : Target}
    (options : RunOptions) {files : List String}
    (hfiles : ((e.filesOf target).run (World.answerUnder c) w).1 = .ok files) :
    ∃ o outcomes, (e.runUntil c n target options w).1.1 = .ok o ∧
      let all := batches e.project.config.concurrency files
      let processed := (all.take n).flatten
      processed <+: files ∧ (o.stats.aborted = false → processed = files) ∧ (o.stats.aborted = true ↔ n < all.length) ∧
        List.Forall₂ (WorksOut c e.project options) processed outcomes ∧ o.Accounts outcomes := by
  obtain ⟨hall, htended⟩ := hlived.decent
  have hdecent := hall e he
  rw [runUntil_eq, hfiles]
  simp only
  obtain ⟨hworks, hsane⟩ := @processAll_worked dir c options
    ((batches e.project.config.concurrency files).take n).flatten e w htended hdecent
  generalize (processAll options e _).run (World.answerUnder c) w = ran at hworks hsane ⊢
  obtain ⟨⟨outcomes, left⟩, w'⟩ := ran
  have haborted : ∀ start : Stats, (Outcome.ofFiles start outcomes).stats.aborted = start.aborted :=
    Stats.aborted_foldl_record outcomes
  refine ⟨_, outcomes, rfl, flatten_take_batches hdecent.concurrency files n, fun hgo => ?_, ?_, hworks,
    Outcome.accounts_ofFiles ⟨rfl, rfl, rfl, rfl, rfl⟩ hsane⟩
  · rw [haborted, decide_eq_false_iff_not, Nat.not_lt] at hgo
    rw [List.take_of_length_le hgo, flatten_batches hdecent.concurrency]
  · rw [haborted, decide_eq_true_iff]

/-- Settings that say little. -/
def terse : Config :=
  let family (f : FamilySettings) : FamilySettings :=
    { f with testPatterns := [], cliPatterns := [], stripSegments := [], markers := [] }
  { Config.default with
    includes := [], javascript := family (.default .javascript), python := family (.default .python) }

/-- A disk with a script, and no directory for a store. -/
def loneScript : World where
  disk.nodes := [(["a.js"], .file (Bytes.ofText "const logger = pino();\nconsole.log(1);\n") newFileMode 0)]

theorem tended_loneScript : Tended ∅ "/.logsweep-cache" loneScript.disk where
  contents p hp := by
    have hlocate := locate_eq_ok.mpr ⟨⟨by decide, hp.no_zero, by decide⟩, hp.follows⟩
    have hno : loneScript.disk.locate true "/.logsweep-cache" = .ok [".logsweep-cache"] := by rfl
    obtain rfl := Except.ok.inj (hlocate.symm.trans hno)
    exact absurd hp.directory (by decide)
  links q _ t hlink := by
    rcases List.mem_singleton.mp (mem_of_isLink hlink) with heq
    exact absurd (congrArg Prod.snd heq) (by simp)

theorem sited_loneScript : (Deed.openAt "/" terse).Sited "/.logsweep-cache" loneScript.disk := by
  refine fun _ => ⟨by decide +kernel, fun p hp => .inr ?_⟩
  have hlocate : (withDirectory loneScript.disk "/.logsweep-cache").locate true "/.logsweep-cache" =
      .ok [".logsweep-cache"] := by
    decide +kernel
  obtain rfl := hp.follows.unique (locate_eq_ok.mp hlocate).2
  have hnodes : (withDirectory loneScript.disk "/.logsweep-cache").nodes =
      [([".logsweep-cache", "blobs"], .directory newDirectoryMode), ([".logsweep-cache"], .directory newDirectoryMode),
        (["a.js"], .file (Bytes.ofText "const logger = pino();\nconsole.log(1);\n") newFileMode 0)] := by decide +kernel
  have hblobs : ∀ q n, q ≠ [] →
      (withDirectory loneScript.disk "/.logsweep-cache").node? ([".logsweep-cache"] ++ q) = some n →
      q = ["blobs"] ∧ n = .directory newDirectoryMode := by
    intro q n hq hn
    have hmem := mem_nodes_of_node? (by simp) hn
    rw [hnodes] at hmem
    simpa [hq] using hmem
  refine ⟨fun q n hq hn => ?_, fun q file body hq hn hbody => ?_⟩
  · obtain ⟨rfl, rfl⟩ := hblobs q n hq hn
    exact .blobs newDirectoryMode
  · obtain ⟨rfl, rfl⟩ := hblobs q file hq hn
    obtain ⟨mode, modified, hfile⟩ := hbody
    exact absurd hfile (by simp)

/-- The store after the first opening, and the world. -/
def firstOpening : Cache × World × Nat :=
  (Cache.openAt (Path.join "/" terse.cache.directory) terse.cache.ttlHours).run (World.answerUntil {}) (loneScript, 0)

/-- Who opened the project. -/
def newcomer : Enforcer :=
  ⟨⟨"/", terse⟩, "b549dd200e2a661a6fe71ad0645cbd2630b5a5962894aedfc1801b1056d08ae1", some firstOpening.1⟩

theorem fingerprint_terse : terse.fingerprint = newcomer.fingerprint := by
  rw [Config.fingerprint, Json.compact, Bytes.ofText_eq_spell, String.toList_ofList]
  decide +kernel

theorem lived_newcomer : Lived "/.logsweep-cache" [newcomer] firstOpening.2.1 := by
  have hlived := (Lived.start tended_loneScript).openAt sited_loneScript (by decide +kernel) rfl {} 0
  rw [fingerprint_terse] at hlived
  exact hlived

/-- What the first run comes to. -/
def firstRun : (Except EnforceFault Outcome × Enforcer) × World :=
  newcomer.runUntil {} 1 (.files ["a.js"]) {} firstOpening.2.1

theorem run_accounts_loneScript : ∃ e w o outcomes, Lived "/.logsweep-cache" [e, newcomer] w ∧
    (e.runUntil {} 1 (.files ["a.js"]) {} w).1.1 = .ok o ∧ o.stats.cacheHits = 1 ∧ o.Accounts outcomes := by
  have hlived : Lived "/.logsweep-cache" [firstRun.1.2, newcomer] firstRun.2 :=
    lived_newcomer.run (List.mem_singleton.mpr rfl) (.files ["a.js"]) {} {} 1
  have hevaluated : firstRun.1.2.project.root = "/" ∧
      (match (firstRun.1.2.runUntil {} 1 (.files ["a.js"]) {} firstRun.2).1.1 with
        | .ok o => o.stats.cacheHits
        | .error _ => 0) = 1 := by decide +kernel
  obtain ⟨hroot, hhits⟩ := hevaluated
  have hfiles : ((firstRun.1.2.filesOf (.files ["a.js"])).run (World.answerUnder {}) firstRun.2).1 = .ok ["/a.js"] := by
    rw [filesOf, hroot]
    rfl
  obtain ⟨o, outcomes, hran, -, -, -, -, haccounts⟩ :=
    run_accounts (c := {}) hlived (List.mem_cons_self) 1 {} hfiles
  rw [hran] at hhits
  exact ⟨_, _, o, outcomes, hlived, hran, hhits, haccounts⟩

end Enforcer

end LogHygiene
