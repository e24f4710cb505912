import LogHygiene.Fix.Plan
import LogHygiene.Proofs.Carrying
import LogHygiene.Proofs.Disk.Renewal
import LogHygiene.Proofs.Syntax.Traversal

/-!
# What a fix leaves behind

`Project.fix` ends in about a dozen ways: no grammar, switched off, exempt, unreadable, not text, broken
before, a call too early, edits that do not fit, broken after, rejected from outside, a write that failed,
a dry run, a write that worked. A maintainer who reads a `FixReport` wants none of these cases but one
contract that all of them keep, and so does everything that acts on reports.

> **a report and the disk agree, at every exit**: a success shows a text that the grammar accepts, a
> failure shows the original, and the file at the path is the fixed text exactly if the report says so.

The proof is in two halves that meet in `FixPlan.Sound`. A plan is sound whatever answered the read
(`Project.plan_sound`), which is where the exits of planning are gone through; and what is made of a sound
plan is one equation (`FixPlan.run_apply`), so that carrying it out has no exits left to go through.

Two things are not as one might think (`Project.fix_contract_not_strict`). A link at the path is replaced: the file that
it led to stays as it was. And if a text can neither be written nor taken away again, the scratch file is left.
-/

set_option autoImplicit false

namespace LogHygiene

open Syntax

/-- The text is read without text that fits no rule and without a word or line end that is not there. -/
def Grammar.Accepts (g : Grammar) (text : Bytes) : Prop :=
  ∀ n ∈ (g.tree text).preorder, n.kind ≠ .error ∧ n.kind ≠ .missing ∧ n.kind ≠ .absent

/-- A report of a success gives no cause of failure. -/
structure FixReport.Succeeds (r : FixReport) : Prop where
  success : r.success = true
  error : r.error = none
  errorKind : r.errorKind = none

/-- A report of a failure gives a cause, in words and of a kind. -/
structure FixReport.Fails (r : FixReport) (f : FixFault) : Prop where
  success : r.success = false
  error : r.error = some f.message
  errorKind : r.errorKind = some f.kind

theorem FixReport.fails_fail (r : FixReport) (f : FixFault) : (r.fail f).Fails f := ⟨rfl, rfl, rfl⟩

/-- What a report promises to whoever reads it next to the disk. -/
structure FixContract (path : String) (dryRun : Bool) (c : Conditions) (before : World) (r : FixReport)
    (after : World) : Prop where
  /-- a success shows a text that the grammar of the path accepts -/
  accepted : r.success = true → r.fixed ≠ [] → ∃ g, Grammar.ofPath? path = some g ∧ g.Accepts r.fixed
  /-- a failure shows the original -/
  reverted : r.success = false → r.changes = [] ∧ r.fixed = r.original ∧ r.written = false
  /-- a failure has a cause, and nothing else has -/
  cause : r.Succeeds ∨ ∃ f, r.Fails f
  written_iff : r.written = true ↔ r.success = true ∧ r.changes ≠ [] ∧ dryRun = false
  /-- what is written is read at the path, from a file of its own, and nothing else is touched -/
  inPlace : r.written = true → after.disk.read path = .ok r.fixed ∧
    ∃ place mode modified, before.disk.placeFor path = .ok place ∧
      before.disk.Swapped place (some (.file r.fixed mode modified)) after.disk
  /-- what is not written leaves the disk as it is; but if it was to be written and scratch files cannot be removed,
  there may be one more -/
  untouched : r.written = false → (∀ q, after.disk.node? q = before.disk.node? q) ∨
    (dryRun = false ∧ c.mishaps.fault .discard ≠ none ∧ ∃ scratch part node, before.disk.NextScratch path scratch ∧
      Disk.IsFile part node ∧ before.disk.Swapped scratch (some node) after.disk)

/-! ## Plans -/

/-- What holds of a plan for the file at a path. -/
structure FixPlan.Sound (path : String) (plan : FixPlan) : Prop where
  path_eq : plan.path = path
  unwritten : plan.report.written = false
  reverted : plan.report.success = false → plan.report.changes = [] ∧ plan.report.fixed = plan.report.original
  cause : plan.report.Succeeds ∨ ∃ f, plan.report.Fails f
  accepted : plan.report.success = true → plan.report.fixed ≠ [] →
    ∃ g, Grammar.ofPath? path = some g ∧ g.Accepts plan.report.fixed

theorem accepts_of_firstFault? {g : Grammar} {text : Bytes} (h : (g.tree text).firstFault? = none) :
    g.Accepts text := by
  rw [Node.firstFault?_eq] at h
  cases hfind : (g.tree text).preorder.find? (·.kind.isFault) with
  | some m => rw [hfind] at h; exact absurd h (by simp)
  | none =>
    simp only [hfind, ite_eq_right_iff, reduceCtorEq, imp_false, Bool.not_eq_true] at h
    intro n hn
    have hkind := List.any_eq_false.mp h n hn
    cases hk : n.kind <;> simp_all [Kind.isFault]

theorem ParsedFile.facts_fault (f : ParsedFile) : f.facts.fault = f.tree.firstFault? := by
  unfold ParsedFile.facts
  cases f.grammar <;> rfl

theorem ParsedFile.read?_eq_some {path : String} {source : Bytes} {f : ParsedFile}
    (h : ParsedFile.read? path source = some f) :
    f.path = path ∧ f.source = source ∧ Grammar.ofPath? path = some f.grammar ∧
      f.tree = f.grammar.tree source := by
  obtain ⟨g, hg, rfl⟩ := Option.map_eq_some_iff.mp h
  exact ⟨rfl, rfl, hg, rfl⟩

theorem ParsedFile.read?_of_grammar {path : String} {g : Grammar} (hg : Grammar.ofPath? path = some g)
    (source : Bytes) : ParsedFile.read? path source = some ⟨path, source, g, g.tree source⟩ := by
  rw [read?, hg]
  rfl

namespace Project

/-- **What `fixParsed` went through when it gives a text**: either no call was left to rewrite, or every
check was passed. -/
theorem fixParsed_cases {p : Project} {shown : String} {fixed : Bytes} {f : ParsedFile}
    {changes : List Change} (h : p.fixParsed shown f = .ok (fixed, changes)) :
    let s := p.config.settings f.grammar.family
    let calls := s.activeCalls f f.facts
    let rewrite := Rewrite.plan shown f.grammar.family s f.facts calls
    f.facts.fault = none ∧ ((calls = [] ∧ fixed = f.source ∧ changes = []) ∨
      (calls ≠ [] ∧ earlyCall? f.facts calls = none ∧ Edit.applyAll f.source rewrite.edits = .ok fixed ∧
        (ParsedFile.read? f.path fixed).bind (·.facts.fault) = none ∧ changes = rewrite.changes)) := by
  intro s calls rewrite
  unfold fixParsed at h
  simp only [bind, Except.bind, pure, Except.pure, throw, throwThe, MonadExceptOf.throw] at h
  cases hfault : f.facts.fault with
  | some at_ => rw [hfault] at h; exact absurd h (by simp)
  | none =>
    refine ⟨rfl, ?_⟩
    rw [hfault] at h
    simp only at h
    split at h
    · rename_i hempty
      obtain ⟨rfl, rfl⟩ := Prod.mk.inj (Except.ok.inj h)
      exact .inl ⟨List.isEmpty_iff.mp hempty, rfl, rfl⟩
    · rename_i hsome
      cases hearly : earlyCall? f.facts (s.activeCalls f f.facts) with
      | some c => rw [hearly] at h; exact absurd h (by simp)
      | none =>
        rw [hearly] at h
        simp only at h
        cases hedits : Edit.applyAll f.source rewrite.edits with
        | error fault => rw [hedits] at h; exact absurd h (by simp [Except.mapError])
        | ok after =>
          rw [hedits] at h
          simp only [Except.mapError] at h
          split at h
          · exact absurd h (by simp)
          · rename_i hafter
            obtain ⟨rfl, rfl⟩ := Prod.mk.inj (Except.ok.inj h)
            exact .inr ⟨fun hnil => hsome (List.isEmpty_iff.mpr hnil), rfl, rfl, hafter, rfl⟩

/-- What `fixParsed` gives is accepted by the grammar of the file: either it is the text of the file,
which was looked at first, or it was read once more. -/
theorem fixParsed_accepted {p : Project} {shown path : String} {source fixed : Bytes} {f : ParsedFile}
    {changes : List Change} (hf : ParsedFile.read? path source = some f)
    (h : p.fixParsed shown f = .ok (fixed, changes)) :
    f.grammar.Accepts source ∧ f.grammar.Accepts fixed := by
  obtain ⟨hpath, hsource, hg, htree⟩ := ParsedFile.read?_eq_some hf
  obtain ⟨hfault, hcases⟩ := fixParsed_cases h
  have hbefore : f.grammar.Accepts source :=
    accepts_of_firstFault? (by rw [← htree, ← f.facts_fault, hfault])
  refine ⟨hbefore, ?_⟩
  rcases hcases with ⟨-, rfl, -⟩ | ⟨-, -, -, hafter, -⟩
  · rw [hsource]
    exact hbefore
  · simp only [ParsedFile.read?, hpath, hg, Option.map_some, Option.bind_some,
      ParsedFile.facts_fault] at hafter
    exact accepts_of_firstFault? hafter

end Project

namespace FixPlan.Sound

variable {path shown : String}

theorem failed (f : FixFault) : (FixPlan.idle path (.failed shown f)).Sound path where
  path_eq := rfl
  unwritten := rfl
  reverted _ := ⟨rfl, rfl⟩
  cause := .inr ⟨f, rfl, rfl, rfl⟩
  accepted h := absurd h (by simp [idle, FixReport.failed])

theorem fail (r : FixReport) (f : FixFault) : (FixPlan.idle path (r.fail f)).Sound path where
  path_eq := rfl
  unwritten := rfl
  reverted _ := ⟨rfl, rfl⟩
  cause := .inr ⟨f, r.fails_fail f⟩
  accepted h := absurd h (by simp [idle, FixReport.fail])

theorem unchanged {content : Bytes}
    (h : content ≠ [] → ∃ g, Grammar.ofPath? path = some g ∧ g.Accepts content) :
    (FixPlan.idle path (.unchanged shown content)).Sound path where
  path_eq := rfl
  unwritten := rfl
  reverted hno := absurd hno (by simp [idle, FixReport.unchanged])
  cause := .inl ⟨rfl, rfl, rfl⟩
  accepted _ := h

end FixPlan.Sound

namespace Project

theorem planSource_sound (p : Project) (path : String) (original : Bytes) :
    (p.planSource path original).Sound path := by
  unfold planSource
  cases hf : ParsedFile.read? path original with
  | none => exact .failed _
  | some f =>
    have hg := (ParsedFile.read?_eq_some hf).2.2.1
    simp only
    split
    · exact .failed _
    · cases hfix : p.fixParsed (p.shown path) f with
      | error fault => exact .fail _ _
      | ok out =>
        obtain ⟨fixed, changes⟩ := out
        obtain ⟨hbefore, hafter⟩ := fixParsed_accepted hf hfix
        cases changes with
        | nil => exact .unchanged fun _ => ⟨_, hg, hbefore⟩
        | cons change rest =>
          exact
            { path_eq := rfl
              unwritten := rfl
              reverted := fun hno => absurd hno (by simp [FixReport.unchanged])
              cause := .inl ⟨rfl, rfl, rfl⟩
              accepted := fun _ _ => ⟨_, hg, hafter⟩ }

/-- A plan is sound whatever the read was answered with. -/
theorem plan_sound {σ : Type} (answer : (q : Request) → σ → q.Answer × σ) (p : Project) (path : String)
    (s : σ) : ((p.plan path).run answer s).1.Sound path := by
  unfold plan
  cases Grammar.ofPath? path with
  | none => exact .failed _
  | some g =>
    simp only
    split
    · exact .unchanged fun h => absurd rfl h
    · rw [Procedure.run_bind, Procedure.run_request]
      cases (answer (.read path) s).1 with
      | error fault => exact .failed _
      | ok original => exact p.planSource_sound path original

/-- Planning only looks. -/
theorem run_plan_world (c : Conditions) (p : Project) (path : String) (w : World) :
    ((p.plan path).run (World.answerUnder c) w).2 = w := by
  unfold plan
  cases Grammar.ofPath? path with
  | none => rfl
  | some g =>
    simp only
    split
    · rfl
    · rw [Procedure.run_bind, Procedure.run_request, World.answerUnder_read]
      simp only
      split <;> rfl

/-- There are no changes to a file that no grammar reads. -/
theorem grammar_of_hasChanges {σ : Type} (answer : (q : Request) → σ → q.Answer × σ) (p : Project) (path : String)
    (s : σ)
    (h : ((p.plan path).run answer s).1.report.hasChanges = true) : Grammar.ofPath? path ≠ none := by
  intro hno
  rw [plan, hno] at h
  exact absurd h (by simp [FixPlan.idle, FixReport.failed, FixReport.unchanged, FixReport.hasChanges])

/-- A report without a fault on a file that was not looked at has no changes, so where there are some, there is a
file. -/
theorem plan_denotes (c : Conditions) (p : Project) (path : String) (w : World)
    (h : ((p.plan path).run (World.answerUnder c) w).1.report.hasChanges = true) : ∃ r, w.disk.Denotes path r := by
  unfold plan at h
  cases hg : Grammar.ofPath? path with
  | none =>
    rw [hg] at h
    exact absurd h (by simp [FixPlan.idle, FixReport.failed, FixReport.unchanged, FixReport.hasChanges])
  | some g =>
    rw [hg] at h
    simp only at h
    split at h
    · exact absurd h (by simp [FixPlan.idle, FixReport.unchanged, FixReport.hasChanges])
    · rw [Procedure.run_bind, Procedure.run_request, World.answerUnder_read] at h
      cases hread : (c.unreadable path).elim (w.disk.read path) .error with
      | error fault =>
        rw [hread] at h
        exact absurd h (by simp [FixPlan.idle, FixReport.failed, FixReport.unchanged, FixReport.hasChanges])
      | ok source =>
        refine Disk.Denotes.of_read (show w.disk.read path = .ok source from ?_)
        cases hunreadable : c.unreadable path with
        | none => rwa [hunreadable] at hread
        | some f => rw [hunreadable] at hread; exact absurd hread (by simp)

end Project

/-! ## Carrying a plan out -/

namespace FixPlan

variable (c : Conditions)

/-- What the program of a plan says about the fixed text. -/
def judgement (plan : FixPlan) : Except CheckFault Unit :=
  match plan.check with
  | none => .ok ()
  | some check => check.verdict (c.program check plan.report.fixed)

theorem run_verdict (plan : FixPlan) (w : World) :
    plan.verdict.run (World.answerUnder c) w = (plan.judgement c, w) := by
  unfold verdict judgement
  cases plan.check with
  | none => rfl
  | some check => rw [Procedure.run_bind, Procedure.run_request, World.answerUnder_judge]; rfl

/-- The report of a plan that was written, or was not. -/
def settled (plan : FixPlan) : Option FileFault → FixReport
  | none => { plan.report with written := true }
  | some fault => plan.report.fail (.unwritable plan.path fault)

/-- All that carrying a plan out can come to. -/
theorem run_apply (plan : FixPlan) (dryRun : Bool) (w : World) :
    (plan.apply dryRun).run (World.answerUnder c) w =
      if !plan.report.success || !plan.report.hasChanges then (plan.report, w)
      else match plan.judgement c with
        | .error fault => (plan.report.fail (.rejected fault), w)
        | .ok () =>
          if dryRun then (plan.report, w)
          else (plan.settled (w.disk.replace c.mishaps plan.path plan.report.fixed).1,
            { w with disk := (w.disk.replace c.mishaps plan.path plan.report.fixed).2 }) := by
  unfold apply
  by_cases hidle : (!plan.report.success || !plan.report.hasChanges) = true
  · simp only [hidle, if_true]; rfl
  · simp only [hidle, Bool.false_eq_true, if_false]
    rw [Procedure.run_bind, run_verdict]
    simp only
    cases plan.judgement c with
    | error fault => rfl
    | ok u =>
      cases dryRun with
      | true => rfl
      | false =>
        simp only [Bool.false_eq_true, if_false]
        rw [Procedure.run_bind, Procedure.run_request, World.answerUnder_replace]
        simp only
        cases (w.disk.replace c.mishaps plan.path plan.report.fixed).1 <;> rfl

theorem contract_fail {path : String} {dryRun : Bool} {w : World} (r : FixReport) (f : FixFault) :
    FixContract path dryRun c w (r.fail f) w where
  accepted h := absurd h (by simp [FixReport.fail])
  reverted _ := ⟨rfl, rfl, rfl⟩
  cause := .inr ⟨f, r.fails_fail f⟩
  written_iff := by simp [FixReport.fail]
  inPlace h := absurd h (by simp [FixReport.fail])
  untouched _ := .inl fun _ => rfl

/-- A report that comes straight from a sound plan. -/
theorem Sound.contract {path : String} {dryRun : Bool} {w : World} {plan : FixPlan}
    (hplan : plan.Sound path)
    (hstop : ¬(plan.report.success = true ∧ plan.report.changes ≠ [] ∧ dryRun = false)) :
    FixContract path dryRun c w plan.report w where
  accepted := hplan.accepted
  reverted h := ⟨(hplan.reverted h).1, (hplan.reverted h).2, hplan.unwritten⟩
  cause := hplan.cause
  written_iff := by rw [hplan.unwritten]; simpa using hstop
  inPlace h := absurd (hplan.unwritten ▸ h) (by simp)
  untouched _ := .inl fun _ => rfl

/-- A plan that gets as far as the write. -/
theorem Sound.contract_settled {path : String} {w : World} {plan : FixPlan} {r : Place} (hplan : plan.Sound path)
    (hfree : w.disk.ScratchFree) (hr : w.disk.Denotes path r)
    (hsuccess : plan.report.success = true) (hchanges : plan.report.changes ≠ []) :
    FixContract path false c w (plan.settled (w.disk.replace c.mishaps plan.path plan.report.fixed).1)
      { w with disk := (w.disk.replace c.mishaps plan.path plan.report.fixed).2 } := by
  rw [hplan.path_eq]
  have hreplaced := hfree.bare.replaced c.mishaps path plan.report.fixed
  generalize w.disk.replace c.mishaps path plan.report.fixed = out at hreplaced
  obtain ⟨answer, disk⟩ := out
  rcases hreplaced.swapped hfree.bare with
    ⟨hnone, place, node, hplace, -, ⟨mode, modified, rfl⟩, hswapped⟩ | ⟨hsome, hleft⟩
  · obtain rfl : answer = none := hnone
    have hread := hr.read_of_swapped hfree hplace hswapped hreplaced.process
    have hsucceeds : plan.report.Succeeds := hplan.cause.resolve_right fun ⟨f, hf⟩ =>
      absurd (hsuccess.symm.trans hf.success) (by simp)
    exact
      { accepted := fun _ => hplan.accepted hsuccess
        reverted := fun h => absurd hsuccess (by simpa [settled] using h)
        cause := .inl ⟨hsuccess, hsucceeds.error, hsucceeds.errorKind⟩
        written_iff := ⟨fun _ => ⟨hsuccess, hchanges, rfl⟩, fun _ => rfl⟩
        inPlace := fun _ => ⟨hread, place, mode, modified, hplace, hswapped⟩
        untouched := fun h => absurd h (by simp [settled]) }
  · obtain ⟨fault, rfl⟩ := Option.ne_none_iff_exists'.mp hsome
    exact
      { accepted := fun h => absurd h (by simp [settled, FixReport.fail])
        reverted := fun _ => ⟨rfl, rfl, rfl⟩
        cause := .inr ⟨_, plan.report.fails_fail _⟩
        written_iff := by simp [settled, FixReport.fail]
        inPlace := fun h => absurd h (by simp [settled, FixReport.fail])
        untouched := fun _ => hleft.imp_right fun ⟨s, part, n, hnext, hdiscard, hn, hswapped⟩ =>
          ⟨rfl, hdiscard, s, part, n, hnext, hn, hswapped⟩ }

theorem Sound.contract_apply {path : String} (dryRun : Bool) {w : World} (hfree : w.disk.ScratchFree) {plan : FixPlan}
    (hplan : plan.Sound path) (hdenotes : plan.report.hasChanges = true → ∃ r, w.disk.Denotes path r) :
    FixContract path dryRun c w ((plan.apply dryRun).run (World.answerUnder c) w).1
      ((plan.apply dryRun).run (World.answerUnder c) w).2 := by
  rw [run_apply]
  split
  · rename_i hidle
    refine hplan.contract c fun ⟨hsuccess, hchanges, _⟩ => ?_
    simp [hsuccess, FixReport.hasChanges, hchanges] at hidle
  · rename_i hready
    simp only [Bool.or_eq_true, Bool.not_eq_true', not_or, Bool.not_eq_false] at hready
    cases plan.judgement c with
    | error fault => exact contract_fail c _ _
    | ok u =>
      cases dryRun with
      | true => exact hplan.contract c (by simp)
      | false =>
        obtain ⟨r, hr⟩ := hdenotes hready.2
        refine hplan.contract_settled c hfree hr hready.1 fun hnil => ?_
        simp [FixReport.hasChanges, hnil] at hready

/-- A dry run stops where a real run writes, and reports the same until then. -/
theorem run_apply_dry (plan : FixPlan) (w : World) :
    let dry := ((plan.apply true).run (World.answerUnder c) w).1
    let real := ((plan.apply false).run (World.answerUnder c) w).1
    real = dry ∨ real = { dry with written := true } ∨
      ∃ fault, real = dry.fail (.unwritable plan.path fault) := by
  simp only [run_apply]
  split
  · exact .inl rfl
  · cases plan.judgement c with
    | error fault => exact .inl rfl
    | ok u =>
      simp only [if_true, Bool.false_eq_true, if_false]
      cases (w.disk.replace c.mishaps plan.path plan.report.fixed).1 with
      | none => exact .inr (.inl rfl)
      | some fault => exact .inr (.inr ⟨fault, rfl⟩)

end FixPlan

/-! ## The contract of a fix -/

/-- **Whatever goes wrong outside, the report of a fix and the disk keep the contract, and a dry run
reports what the real run does.** The outside is any world under any conditions: any content of the file
or none, any fault of a read or of a step of the write, any program. Only nothing on the disk has the name of a scratch
file of this process. -/
theorem Project.fix_contract (c : Conditions) (p : Project) (path : String) (w : World) (hfree : w.disk.ScratchFree) :
    (∀ dryRun, FixContract path dryRun c w ((p.fix path dryRun).run (World.answerUnder c) w).1
      ((p.fix path dryRun).run (World.answerUnder c) w).2) ∧
    let dry := ((p.fix path true).run (World.answerUnder c) w).1
    let real := ((p.fix path false).run (World.answerUnder c) w).1
    real = dry ∨ real = { dry with written := true } ∨
      ∃ fault, real = dry.fail (.unwritable path fault) := by
  have hsound := p.plan_sound (World.answerUnder c) path w
  have hdenotes := p.plan_denotes c path w
  have hworld := p.run_plan_world c path w
  simp only [Project.fix, Procedure.run_bind, hworld]
  generalize ((p.plan path).run (World.answerUnder c) w).1 = plan at hsound hdenotes
  refine ⟨fun dryRun => hsound.contract_apply c dryRun hfree hdenotes, ?_⟩
  have hdry := plan.run_apply_dry c w
  rw [hsound.path_eq] at hdry
  exact hdry

/-- A disk with a script and a link to it. -/
def linkedScript : World where
  disk.nodes := [(["a.js"], .file (Bytes.ofText "const logger = pino();\nconsole.log(1);\n") newFileMode 0),
    (["l.js"], .link "a.js")]

/-- The fix of the linked script writes. -/
theorem Project.fix_contract_linkedScript :
    let p : Project := ⟨"/", .default⟩
    let ran := (p.fix "/l.js" false).run (World.answerUnder {}) linkedScript
    linkedScript.disk.ScratchFree ∧ ran.1.written = true ∧ FixContract "/l.js" false {} linkedScript ran.1 ran.2 := by
  have hfree : linkedScript.disk.ScratchFree := Disk.scratchFree_of_names (by decide +kernel)
  exact ⟨hfree, by decide +kernel, (Project.fix_contract {} ⟨"/", .default⟩ "/l.js" linkedScript hfree).1 false⟩

/-- Neither can a text be written nor a scratch file be removed. -/
def Conditions.stuck : Conditions where
  mishaps.fault step := if step = .write ∨ step = .discard then some .denied else none

/-- A link is replaced, and the file that it led to is not fixed. And a fix that does not work can leave a file. -/
theorem Project.fix_contract_not_strict :
    let p : Project := ⟨"/", .default⟩
    let ran := (p.fix "/l.js" false).run (World.answerUnder {}) linkedScript
    let stopped := (p.fix "/a.js" false).run (World.answerUnder .stuck) linkedScript
    let scratch := linkedScript.disk.scratchAt ["a.js"] 0
    (linkedScript.disk.Denotes "/l.js" ["a.js"] ∧ ran.1.written = true ∧ ran.1.fixed ≠ ran.1.original ∧
      ran.2.disk.node? ["a.js"] = linkedScript.disk.node? ["a.js"]) ∧
    (stopped.1.written = false ∧ linkedScript.disk.node? scratch = none ∧ stopped.2.disk.node? scratch ≠ none) := by
  intro p ran stopped scratch
  refine ⟨⟨⟨rfl, _, _, _, rfl⟩, ?_, ?_, ?_⟩, ?_, ?_, ?_⟩
  all_goals decide +kernel

end LogHygiene
