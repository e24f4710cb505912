import LogHygiene.Proofs.Cache.Deposits
import LogHygiene.Proofs.Config.Fingerprint
import LogHygiene.Proofs.Enforcement.OneFile

/-!
# What is said about a file depends on what is read in it

A run asks about a file, and what it is told before it fixes anything is a function of the settings, the path and
the content (`Project.verdict`): it may be computed today or taken from a store. A `Sighting` is one time that a
file is asked about when a store is open, and a store knows it by its key. So

> **sightings with the same key have the same verdict** (`Sighting.verdict_eq`),

if nothing is wrong with the file: texts of errors name the path as it was given, but results with errors are not
stored. All this needs of keys is that digests do not collide and that files which differ do not share one
(`Unambiguous`).
-/

set_option autoImplicit false

namespace LogHygiene

open Procedure (About)

/-! ## Verdicts -/

/-- What reading a file gives. -/
def Conditions.reading (c : Conditions) (d : Disk) (path : String) : Except FileFault Bytes :=
  (c.unreadable path).elim (d.read path) .error

/-- Answer requests about a file of which nothing but the content is known. -/
def answerFrom (program : SyntaxCheck → Bytes → Attempt) (content : Except FileFault Bytes) (q : Request) (u : Unit) :
    q.Answer × Unit :=
  match q with
  | .read _ => (content, u)
  | .judge check source => (program check source, u)
  | q => ((World.answerUnder {} q {}).1, u)

/-- **What only reads leaves the world alone**, and sees of it what reading the file gives. -/
theorem Procedure.About.run_reading {α : Type} {x : Procedure α} {path : String} (hx : About path false x)
    (c : Conditions) (w : World) :
    x.run (World.answerUnder c) w = ((x.run (answerFrom c.program (c.reading w.disk path)) ()).1, w) := by
  induction hx with
  | done a => rfl
  | @modified next hsame _ ih =>
    have hnow : next (World.answerUnder c (.modified path) w).1 = next none := hsame _
    have hthen : next (answerFrom c.program (c.reading w.disk path) (.modified path) ()).1 = next none := hsame _
    rw [run_ask, run_ask, hnow, hthen]
    exact ih
  | read _ ih => exact ih _
  | judge _ ih => exact ih _
  | replace hwrites _ _ => exact absurd hwrites (by simp)

namespace Project

/-- What a run asks about a file before it fixes anything. -/
def judged (p : Project) (path : String) : Procedure Analysis := do
  let a ← p.analyze path
  (⟨p, "", none⟩ : Enforcer).checkOnAnalyze path a

/-- What it is told. -/
def verdict (p : Project) (program : SyntaxCheck → Bytes → Attempt) (path : String) (content : Except FileFault Bytes) :
    Analysis := ((p.judged path).run (answerFrom program content) ()).1

theorem about_judged (p : Project) (path : String) : About path false (p.judged path) :=
  (p.about_analyze path).bind fun a => Enforcer.about_checkOnAnalyze _ path a

theorem run_judged (p : Project) (path : String) (c : Conditions) (w : World) :
    (p.judged path).run (World.answerUnder c) w = (p.verdict c.program path (c.reading w.disk path), w) :=
  (p.about_judged path).run_reading c w

theorem tidy_verdict (p : Project) (program : SyntaxCheck → Bytes → Attempt) (path : String)
    (content : Except FileFault Bytes) : (p.verdict program path content).Tidy (p.shown path) := by
  rw [verdict, judged, Procedure.run_bind]
  exact Enforcer.tidy_checkOnAnalyze _ _ _ path (p.tidy_analyze _ _ path)

end Project

/-! ## Paths that name the same -/

/-- Two analyses are the same, or there is something wrong with both. -/
def Analysis.Agrees (a b : Analysis) : Prop := a = b ∨ a.hasError = true ∧ b.hasError = true

theorem Analysis.Agrees.refl (a : Analysis) : a.Agrees a := .inl rfl

theorem Analysis.Agrees.faults {a b : Analysis} (f g : AnalysisFault) : (a.fail f).Agrees (b.fail g) := .inr ⟨rfl, rfl⟩

theorem Grammar.ofPath?_of_components {path path' : String} (h : Path.components path = Path.components path') :
    Grammar.ofPath? path = Grammar.ofPath? path' := by
  have hname : Path.fileName? path = Path.fileName? path' := by rw [Path.fileName?, Path.fileName?, h]
  rw [Grammar.ofPath?, Grammar.ofPath?, Path.extension?, Path.extension?, hname]

namespace Project

variable {p : Project} {path path' : String}

/-- The path of a file is not in its analysis. -/
theorem analyzeParsed_path (p : Project) (family : Family) (shown path path' : String) (source : Bytes) (g : Grammar)
    (tree : Syntax.Node) : p.analyzeParsed family shown ⟨path, source, g, tree⟩ =
      p.analyzeParsed family shown ⟨path', source, g, tree⟩ := by
  cases g <;> rfl

theorem agrees_analyzeSource (hcomponents : Path.components path = Path.components path')
    (hshown : p.shown path = p.shown path') (source : Bytes) :
    (p.analyzeSource path source).Agrees (p.analyzeSource path' source) := by
  rw [analyzeSource, analyzeSource, ParsedFile.read?, ParsedFile.read?, Grammar.ofPath?_of_components hcomponents, hshown]
  cases Grammar.ofPath? path' with
  | none => exact .faults _ _
  | some g => exact .inl (p.analyzeParsed_path g.family (p.shown path') path path' source g (g.tree source))

theorem agrees_analyze (hcomponents : Path.components path = Path.components path')
    (hshown : p.shown path = p.shown path') (program : SyntaxCheck → Bytes → Attempt) (content : Except FileFault Bytes) :
    ((p.analyze path).run (answerFrom program content) ()).1.Agrees
      ((p.analyze path').run (answerFrom program content) ()).1 := by
  have hexempt : p.exemption? path = p.exemption? path' := by
    rw [exemption?, exemption?, Exemption.ofPath?, Exemption.ofPath?, Grammar.ofPath?_of_components hcomponents,
      show Path.relative p.root path = Path.relative p.root path' from hshown]
  rw [analyze, analyze, Grammar.ofPath?_of_components hcomponents, hshown, hexempt]
  cases Grammar.ofPath? path' with
  | none => exact .faults _ _
  | some g =>
    simp only
    split
    · exact .refl _
    · split
      · exact .refl _
      · cases content with
        | error f => exact .faults _ _
        | ok source => exact agrees_analyzeSource hcomponents hshown source

theorem agrees_checkOnAnalyze (e : Enforcer) {a b : Analysis} (h : a.Agrees b) (path path' : String)
    (program : SyntaxCheck → Bytes → Attempt) (content : Except FileFault Bytes) :
    ((e.checkOnAnalyze path a).run (answerFrom program content) ()).1.Agrees
      ((e.checkOnAnalyze path' b).run (answerFrom program content) ()).1 := by
  rcases h with rfl | ⟨ha, hb⟩
  · rw [Enforcer.checkOnAnalyze, Enforcer.checkOnAnalyze]
    cases e.onAnalyze? a with
    | none => exact .refl a
    | some check =>
      cases content with
      | error f => exact .faults _ _
      | ok source =>
        have hread : ∀ path : String, (Procedure.request (.read path)).run (answerFrom program (.ok source)) () =
            (.ok source, ()) := fun _ => rfl
        have hjudged : (Procedure.request (.judge check source)).run (answerFrom program (.ok source)) () =
            (program check source, ()) := rfl
        simp only [Procedure.run_bind, hread]
        split
        · exact .faults _ _
        · simp only [Procedure.run_bind, hjudged]
          cases check.verdict (program check source) with
          | error f => exact .faults _ _
          | ok u => exact .refl a
  · have hnone : ∀ {a : Analysis}, a.hasError = true → e.onAnalyze? a = none := by
      intro a ha
      rw [Enforcer.onAnalyze?]
      simp only [ha, Bool.not_true, Bool.and_false, Bool.false_eq_true, if_false, bind, Option.bind_eq_none_iff,
        implies_true]
    rw [Enforcer.checkOnAnalyze, Enforcer.checkOnAnalyze, hnone ha, hnone hb]
    exact .inr ⟨ha, hb⟩

/-- **Paths that name the same have the same verdict**, or there is something wrong with both. -/
theorem agrees_verdict (hcomponents : Path.components path = Path.components path')
    (hshown : p.shown path = p.shown path') (program : SyntaxCheck → Bytes → Attempt) (content : Except FileFault Bytes) :
    (p.verdict program path content).Agrees (p.verdict program path' content) := by
  rw [verdict, verdict, judged, judged, Procedure.run_bind, Procedure.run_bind]
  exact agrees_checkOnAnalyze _ (agrees_analyze hcomponents hshown program content) path path' program content

end Project

/-! ## Sightings -/

/-- A file that is asked about while a store is open. -/
structure Sighting where
  config : Config
  path : String
  /-- when the file was last written -/
  modified : Instant
  /-- what reading it gives -/
  content : Except FileFault Bytes

namespace Sighting

variable (root : String) (program : SyntaxCheck → Bytes → Attempt)

/-- What a result for the file is stored under. -/
def ticket (s : Sighting) : Cache.Ticket :=
  .of (Project.shown ⟨root, s.config⟩ s.path) s.modified s.config.fingerprint

/-- What is said about the file. -/
def verdict (s : Sighting) : Analysis := Project.verdict ⟨root, s.config⟩ program s.path s.content

/-- The files are the same: paths that name the same, and the same content. -/
def SameFile (s s' : Sighting) : Prop :=
  Path.components s.path = Path.components s'.path ∧ s.content = s'.content

/-- What can be stored for files that are seen. -/
def deposits (seen : List Sighting) : Cache.Deposits :=
  {x | ∃ s ∈ seen, (s.ticket root).key = x.1 ∧ s.verdict root program = x.2 ∧ x.2.hasError = false}

/-- Files that differ do not share a key, and digests do not collide. -/
structure Unambiguous (seen : List Sighting) : Prop where
  sameFile : ∀ s ∈ seen, ∀ s' ∈ seen, (s.ticket root).key = (s'.ticket root).key → s.SameFile s'
  tickets : ∀ s ∈ seen, ∀ s' ∈ seen,
    Sha256.hex (s.ticket root).text = Sha256.hex (s'.ticket root).text → (s.ticket root).text = (s'.ticket root).text
  configs : ∀ s ∈ seen, ∀ s' ∈ seen,
    Sha256.hex s.config.recordText = Sha256.hex s'.config.recordText → s.config.recordText = s'.config.recordText

variable {root program}

/-- **Sightings with the same key have the same verdict**, if it is that nothing is wrong. -/
theorem verdict_eq {seen : List Sighting} (h : Unambiguous root seen) {s s' : Sighting} (hs : s ∈ seen)
    (hs' : s' ∈ seen)
    (hkey : (s.ticket root).key = (s'.ticket root).key) (hok : (s.verdict root program).hasError = false) :
    s'.verdict root program = s.verdict root program := by
  have hplain : ∀ s : Sighting, '\x00' ∉ (s.ticket root).fingerprint.toList := fun s =>
    (Sha256.isHex_hex _).not_mem (by decide)
  have hticket : s.ticket root = s'.ticket root :=
    Cache.ToldApart.eq_of_key ⟨hplain s, hplain s', h.tickets s hs s' hs'⟩ hkey
  have hconfig : s.config = s'.config :=
    Config.eq_of_fingerprint (h.configs s hs s' hs') (congrArg Cache.Ticket.fingerprint hticket)
  have hshown : Project.shown ⟨root, s'.config⟩ s.path = Project.shown ⟨root, s'.config⟩ s'.path :=
    congrArg Cache.Ticket.path hticket
  obtain ⟨hcomponents, hcontent⟩ := h.sameFile s hs s' hs' hkey
  have hverdict : s.verdict root program = Project.verdict ⟨root, s'.config⟩ program s.path s'.content := by
    rw [verdict, hconfig, hcontent]
  rw [hverdict] at hok ⊢
  rcases Project.agrees_verdict hcomponents hshown program s'.content with hsame | ⟨hbad, -⟩
  · exact hsame.symm
  · exact absurd (hbad.symm.trans hok) (by simp)

end Sighting

end LogHygiene
