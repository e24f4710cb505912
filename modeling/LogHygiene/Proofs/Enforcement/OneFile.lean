import LogHygiene.Enforcement.Run
import LogHygiene.Proofs.Carrying
import LogHygiene.Proofs.Fix.Outcome

/-!
# Work on one file

Work on a file asks for that file alone: it reads it, asks programs about texts, and replaces it
(`Procedure.About`). So all that it can see of the outside fits into a `Cell`: what reading the file gives,
what comes of replacing it, and what was written to it since. Where nothing is stored between runs, the work
of a run on each of its files is of this kind (`Enforcer.about_process`).

What it reports is tidy: it goes by the name under which the file is shown, and violations are in order
(`Analysis.Tidy`).
-/

set_option autoImplicit false

namespace LogHygiene

/-! ## What work on one file can see -/

/-- What is to be seen of a file. -/
structure Cell where
  path : String
  /-- what reading gives as long as nothing was written -/
  body : Except FileFault Bytes
  /-- what comes of replacing the file -/
  fault : Option FileFault

/-- Answer a request about one file, given what was written to it. -/
def Cell.answer (k : Cell) (c : Conditions) (q : Request) (written : Option Bytes) : q.Answer × Option Bytes :=
  match q with
  | .read _ => ((c.unreadable k.path).elim (written.elim k.body .ok) .error, written)
  | .judge check source => (c.program check source, written)
  | .replace _ body => (k.fault, if k.fault.isNone then some body else written)
  | q => ((World.answerUnder c q {}).1, written)

namespace Procedure

/-- A procedure that reads the file at a path and asks programs, and, if it `writes`, replaces the file. It may
ask when the file was written, but does nothing with the answer. -/
inductive About {α : Type} (path : String) (writes : Bool) : Procedure α → Prop
  | done (a : α) : About path writes (.done a)
  | modified {next : Option Instant → Procedure α} (hsame : ∀ t, next t = next none)
      (hnext : About path writes (next none)) : About path writes (.ask (.modified path) next)
  | read {next : Except FileFault Bytes → Procedure α} (hnext : ∀ x, About path writes (next x)) :
      About path writes (.ask (.read path) next)
  | judge {check : SyntaxCheck} {source : Bytes} {next : Attempt → Procedure α}
      (hnext : ∀ x, About path writes (next x)) : About path writes (.ask (.judge check source) next)
  | replace {body : Bytes} {next : Option FileFault → Procedure α} (hwrites : writes = true)
      (hnext : ∀ x, About path writes (next x)) : About path writes (.ask (.replace path body) next)

namespace About

variable {α β : Type} {path : String} {writes : Bool}

theorem bind {x : Procedure α} {f : α → Procedure β} (hx : About path writes x)
    (hf : ∀ a, About path writes (f a)) : About path writes (x >>= f) := by
  induction hx with
  | done a => exact hf a
  | @modified next hsame _ ih =>
    exact .modified (fun t => congrArg (fun y : Procedure α => y.bind f) (hsame t)) ih
  | read _ ih => exact .read ih
  | judge _ ih => exact .judge ih
  | replace hwrites _ ih => exact .replace hwrites ih

/-- What only reads may as well write. -/
theorem reading {x : Procedure α} (hx : About path false x) : About path writes x := by
  induction hx with
  | done a => exact .done a
  | modified hsame _ ih => exact .modified hsame ih
  | read _ ih => exact .read ih
  | judge _ ih => exact .judge ih
  | replace hwrites _ _ => exact absurd hwrites (by simp)

end About

end Procedure

open Procedure (About)

/-! ## The work of a run -/

theorem Project.about_analyze (p : Project) (path : String) : About path false (p.analyze path) := by
  unfold Project.analyze
  cases Grammar.ofPath? path with
  | none => exact .done _
  | some g =>
    simp only
    split
    · exact .done _
    · split
      · exact .done _
      · refine .read fun x => ?_
        cases x with
        | error fault => exact .done _
        | ok source => exact .done _

theorem Enforcer.about_checkOnAnalyze (e : Enforcer) (path : String) (a : Analysis) :
    About path false (e.checkOnAnalyze path a) := by
  unfold Enforcer.checkOnAnalyze
  cases e.onAnalyze? a with
  | none => exact .done _
  | some check =>
    refine .read fun x => ?_
    cases x with
    | error fault => exact .done _
    | ok source =>
      show About path false (if _ then _ else _)
      split
      · exact .done _
      · refine .judge fun attempt => ?_
        cases h : check.verdict attempt <;> simp only [Procedure.bind, h] <;> exact .done _

theorem FixPlan.about_apply {plan : FixPlan} {path : String} (hpath : plan.path = path) (dryRun : Bool) :
    About path true (plan.apply dryRun) := by
  unfold FixPlan.apply
  simp only
  split
  · exact .done _
  · refine About.bind ?_ fun verdict => ?_
    · unfold FixPlan.verdict
      split
      · exact .done _
      · exact .judge fun _ => .done _
    · cases verdict with
      | error fault => exact .done _
      | ok u =>
        simp only
        split
        · exact .done _
        · rw [hpath]
          refine .replace rfl fun fault => ?_
          cases fault <;> exact .done _

theorem Project.about_fix (p : Project) (path : String) (dryRun : Bool) :
    About path true (p.fix path dryRun) := by
  have hidle : ∀ r, About path true (Procedure.bind (pure (FixPlan.idle path r)) fun plan => plan.apply dryRun) :=
    fun r => @FixPlan.about_apply (.idle path r) path rfl dryRun
  unfold Project.fix Project.plan
  simp only
  split
  · exact hidle _
  · split
    · exact hidle _
    · refine .read fun x => ?_
      cases x with
      | error fault => exact hidle _
      | ok original =>
        exact @FixPlan.about_apply (p.planSource path original) path
          (p.planSource_sound path original).path_eq dryRun

namespace Enforcer

/-- Work on one file when nothing is stored. -/
theorem process_of_no_cache {e : Enforcer} (hcache : e.cache = none) (options : RunOptions) (path : String) :
    e.process options path = (.ask (.modified path) fun _ => (do
      let a ← e.project.analyze path
      let a ← e.checkOnAnalyze path a
      let fix ← if needsFix options a then some <$> e.project.fix path options.dryRun else pure none
      pure (⟨a, false, fix⟩, e))) := by
  obtain ⟨project, fingerprint, cache⟩ := e
  obtain rfl : cache = none := hcache
  rfl

theorem about_process {e : Enforcer} (hcache : e.cache = none) (options : RunOptions) (path : String) :
    About path true (e.process options path) := by
  rw [process_of_no_cache hcache]
  refine .modified (fun _ => rfl) ?_
  refine (e.project.about_analyze path).reading.bind fun a =>
    (e.about_checkOnAnalyze path a).reading.bind fun a => ?_
  split
  · exact ((e.project.about_fix path _).bind fun _ => .done _).bind fun _ => .done _
  · exact .done _

end Enforcer

/-! ## Which files -/

namespace Enforcer

/-- Looking for files leaves the world alone. -/
theorem run_filesOf_world (c : Conditions) (e : Enforcer) (target : Target) (w : World) :
    ((e.filesOf target).run (World.answerUnder c) w).2 = w := by
  unfold filesOf
  cases target with
  | files paths => rfl
  | matching patterns =>
    simp only
    split
    · rfl
    · rw [Procedure.run_bind, Procedure.run_request]
      simp only [World.answerUnder]
      split <;> rfl

/-- Batches are all of the files. -/
theorem flatten_batchesOf {size : Nat} (hsize : 1 ≤ size) : ∀ (fuel : Nat) (files : List String),
    files.length ≤ fuel → (batchesOf size fuel files).flatten = files
  | 0, files, h => by rw [List.length_eq_zero_iff.mp (Nat.le_zero.mp h)]; rfl
  | fuel + 1, [], _ => rfl
  | fuel + 1, path :: rest, h => by
    have hshorter : ((path :: rest).drop size).length ≤ fuel := by
      rw [List.length_drop]
      omega
    rw [batchesOf, List.flatten_cons, flatten_batchesOf hsize fuel _ hshorter, List.take_append_drop]
    exact fun h => absurd h (by simp)

theorem flatten_batches {size : Nat} (hsize : 1 ≤ size) (files : List String) :
    (batches size files).flatten = files := flatten_batchesOf hsize _ files (Nat.le_refl _)

end Enforcer

/-! ## What is reported about a file -/

/-- An analysis goes by the name of the file, as its violations do, and these are in order. -/
structure Analysis.Tidy (shown : String) (a : Analysis) : Prop where
  path_eq : a.path = shown
  named : ∀ v ∈ a.violations, v.path = shown
  ordered : a.violations.Pairwise fun v v' => v.before v'

theorem Violation.before_trans (u v w : Violation) (huv : u.before v) (hvw : v.before w) : u.before w := by
  simp only [Violation.before, Bool.or_eq_true, Bool.and_eq_true, decide_eq_true_eq, beq_iff_eq] at *
  omega

theorem Violation.before_total (u v : Violation) : (u.before v || v.before u) = true := by
  simp only [Violation.before, Bool.or_eq_true, Bool.and_eq_true, decide_eq_true_eq, beq_iff_eq]
  omega

namespace Analysis.Tidy

variable {shown : String}

theorem of_no_violations {a : Analysis} (hpath : a.path = shown) (h : a.violations = []) : a.Tidy shown where
  path_eq := hpath
  named v hv := absurd (h ▸ hv) (by simp)
  ordered := h ▸ .nil

theorem fail {a : Analysis} (h : a.Tidy shown) (f : AnalysisFault) : (a.fail f).Tidy shown :=
  of_no_violations h.path_eq rfl

theorem ofFault (family : Option Family) (f : AnalysisFault) : (Analysis.ofFault shown family f).Tidy shown :=
  of_no_violations rfl rfl

end Analysis.Tidy

namespace Project

theorem tidy_analyzeSource (p : Project) (path : String) (source : Bytes) :
    (p.analyzeSource path source).Tidy (p.shown path) := by
  unfold analyzeSource
  simp only
  split
  · exact .ofFault _ _
  · rename_i f _
    unfold analyzeParsed
    simp only
    split
    · exact .ofFault _ _
    · refine ⟨rfl, fun v hv => ?_, ?_⟩
      · obtain ⟨c, -, rfl⟩ := List.mem_map.mp (List.mem_mergeSort.mp hv)
        rfl
      · exact List.pairwise_mergeSort Violation.before_trans Violation.before_total _

variable {σ : Type} (answer : (q : Request) → σ → q.Answer × σ) (s : σ)

theorem tidy_analyze (p : Project) (path : String) :
    ((p.analyze path).run answer s).1.Tidy (p.shown path) := by
  unfold analyze
  simp only
  split
  · exact .ofFault _ _
  · split
    · exact .of_no_violations rfl rfl
    · split
      · exact .of_no_violations rfl rfl
      · rw [Procedure.run_bind, Procedure.run_request]
        cases (answer (.read path) s).1 with
        | error fault => exact .ofFault _ _
        | ok source => exact p.tidy_analyzeSource path source

end Project

namespace Enforcer

variable {σ : Type} (answer : (q : Request) → σ → q.Answer × σ) (s : σ)

theorem tidy_checkOnAnalyze (e : Enforcer) (path : String) {shown : String} {a : Analysis} (ha : a.Tidy shown) :
    ((e.checkOnAnalyze path a).run answer s).1.Tidy shown := by
  unfold checkOnAnalyze
  cases e.onAnalyze? a with
  | none => exact ha
  | some check =>
    simp only
    rw [Procedure.run_bind, Procedure.run_request]
    cases (answer (.read path) s).1 with
    | error fault => exact ha.fail _
    | ok source =>
      simp only
      split
      · exact ha.fail _
      · rw [Procedure.run_bind, Procedure.run_request]
        cases check.verdict (answer (.judge check source) (answer (.read path) s).2).1 with
        | error fault => exact ha.fail _
        | ok u => exact ha

end Enforcer

end LogHygiene
