import LogHygiene.Proofs.Fix.Changed

/-!
# The fixer follows the detector

`Project.analyze` and `Project.plan` go the same way through a file, each on its own: neither looks at what the other
found. Summaries compare the two all the same, and call a file fixed if as many calls were rewritten as violations were
found. `FixReport.Follows` says what has to hold for that to be right: a fault that ends the one way ends the other, in
the same words; what is clean is left alone; and of the rest every violation is rewritten, or none is.

> **a plan follows the analysis of the same file**, if its family is to be fixed and its bytes are text
> (`Project.plan_follows_analyze`).

Text is asked for because only the fixer has to write the file again. The detector looks at any bytes, so in bytes that
are no text it may find violations where the plan fails (`Project.planSource_of_not_text`).
-/

set_option autoImplicit false

namespace LogHygiene

open Syntax

namespace FixReport

/-- What takes the place of the calls that are rewritten. -/
def replacements (r : FixReport) : List String := (r.changes.filter (·.kind == .callRewrite)).map (·.new)

theorem length_replacements (r : FixReport) : r.replacements.length = r.callsRewritten := by
  rw [replacements, callsRewritten, List.length_map, List.countP_eq_length_filter]

/-- A report says of a file what its analysis says, when reading the file gives `content`. -/
structure Follows (r : FixReport) (a : Analysis) (content : Except FileFault Bytes) : Prop where
  failed : ∀ message, a.error = some message → ∃ fault, r.Fails fault ∧ fault.message = message ∧
    fault.kind ∈ [.unsupportedLanguage, .io, .parse] ∧ a.errorKind.map FailureKind.label = some fault.kind.label
  clean : a.error = none → a.violations = [] → r.Succeeds ∧ r.changes = [] ∧ content = .ok r.fixed
  rewritten : a.violations ≠ [] → (∃ fault, r.Fails fault ∧ fault.kind = .regeneration) ∨
    (r.Succeeds ∧ r.callsRewritten = a.violations.length ∧ ∃ family name, a.family = some family ∧
      r.replacements.Perm (a.violations.map fun v => name ++ "." ++ v.level.method family))

namespace Follows

variable {r : FixReport} {a : Analysis} {content : Except FileFault Bytes}

/-- One fault ends both ways. -/
theorem fail {found : AnalysisFault} {fault : FixFault} (hfails : r.Fails fault)
    (hmessage : fault.message = found.message)
    (hlabel : fault.kind.label = found.kind.label) (hkind : fault.kind ∈ [.unsupportedLanguage, .io, .parse]) :
    r.Follows (a.fail found) content where
  failed message h := ⟨fault, hfails, hmessage.trans (Option.some.inj h), hkind, by rw [hlabel]; rfl⟩
  clean h := absurd h (by simp [Analysis.fail])
  rewritten h := absurd rfl h

theorem of_clean (herror : a.error = none) (hnone : a.violations = []) (hsuccess : r.Succeeds)
    (hchanges : r.changes = []) (hcontent : content = .ok r.fixed) : r.Follows a content where
  failed message h := absurd (herror.symm.trans h) (by simp)
  clean _ _ := ⟨hsuccess, hchanges, hcontent⟩
  rewritten h := absurd hnone h

theorem of_violations (herror : a.error = none) (hsome : a.violations ≠ [])
    (h : (∃ fault, r.Fails fault ∧ fault.kind = .regeneration) ∨
      (r.Succeeds ∧ ∃ family name, a.family = some family ∧
        r.replacements.Perm (a.violations.map fun v => name ++ "." ++ v.level.method family))) :
    r.Follows a content where
  failed message hmessage := absurd (herror.symm.trans hmessage) (by simp)
  clean _ hnone := absurd hnone hsome
  rewritten _ := h.imp_right fun ⟨hsuccess, family, name, hfamily, hperm⟩ =>
    ⟨hsuccess, by rw [← length_replacements, hperm.length_eq, List.length_map], family, name, hfamily, hperm⟩

end Follows

end FixReport

namespace LoggerSetup

/-- The lines that set a logger up rewrite no call. -/
theorem filter_changesFrom_choose (shown : String) (family : Family) (s : FamilySettings) (x : FileFacts) (line : Nat) :
    (changesFrom line (choose shown family s x).lines).filter (·.kind == .callRewrite) = [] := by
  unfold choose
  cases x.logger.preferred? with
  | some name => rfl
  | none => cases x.logger.binding <;> rfl

theorem filter_callChange (u : LoggerSetup) (family : Family) (i : Insertion) (calls : List CallSite) :
    (calls.map (u.callChange family i)).filter (·.kind == .callRewrite) = calls.map (u.callChange family i) := by
  refine List.filter_eq_self.mpr fun change hchange => ?_
  obtain ⟨c, -, rfl⟩ := List.mem_map.mp hchange
  rfl

end LoggerSetup

/-- A rewrite gives each call the method for its level, and rewrites nothing else. -/
theorem Rewrite.replacements_plan (shown : String) (family : Family) (s : FamilySettings) (x : FileFacts)
    (calls : List CallSite) :
    let name := (LoggerSetup.choose shown family s x).name
    (((Rewrite.plan shown family s x calls).changes.filter (·.kind == .callRewrite)).map (·.new)).Perm
      (calls.map fun c => name ++ "." ++ c.level.method family) := by
  intro name
  refine (((List.mergeSort_perm _ _).filter _).map _).trans (.of_eq ?_)
  rw [List.filter_append, LoggerSetup.filter_changesFrom_choose, LoggerSetup.filter_callChange, List.nil_append,
    List.map_map]
  rfl

namespace Project

variable {p : Project} {path shown : String} {source : Bytes} {f : ParsedFile}

/-- **Every way in which `fixParsed` fails**: the file breaks the grammar, or its calls cannot be rewritten. -/
theorem fixParsed_error {fault : FixFault} (h : p.fixParsed shown f = .error fault) :
    (∃ at_, f.facts.fault = some at_ ∧ fault = .syntaxError shown at_.start) ∨
      (f.facts.fault = none ∧ (p.config.settings f.grammar.family).activeCalls f f.facts ≠ [] ∧
        fault.kind = .regeneration) := by
  unfold fixParsed at h
  simp only [bind, Except.bind, pure, Except.pure, throw, throwThe, MonadExceptOf.throw] at h
  cases hfault : f.facts.fault with
  | some at_ =>
    rw [hfault] at h
    exact .inl ⟨at_, rfl, (Except.error.inj h).symm⟩
  | none =>
    rw [hfault] at h
    simp only at h
    split at h
    · exact absurd h (by simp)
    · rename_i hsome
      refine .inr ⟨rfl, fun hnil => hsome (List.isEmpty_iff.mpr hnil), ?_⟩
      -- three checks are left: on the calls, on the edits and on the result
      generalize earlyCall? f.facts _ = early at h
      generalize Edit.applyAll f.source _ = applied at h
      cases early with
      | some c => exact Except.error.inj h ▸ rfl
      | none =>
        cases applied with
        | error fault => exact Except.error.inj h ▸ rfl
        | ok after =>
          simp only [Except.mapError] at h
          split at h
          · exact Except.error.inj h ▸ rfl
          · exact absurd h (by simp)

/-- What is reported of a file that the grammar accepts: a violation for each active call. -/
theorem analyzeParsed_of_accepted (p : Project) (family : Family) (shown : String) (hfault : f.facts.fault = none) :
    let a := p.analyzeParsed family shown f
    let s := p.config.settings family
    a.error = none ∧ a.family = some family ∧
      a.violations.Perm ((s.activeCalls f f.facts).map (Violation.ofCall shown s.severity)) := by
  simp only [analyzeParsed, hfault]
  exact ⟨rfl, rfl, List.mergeSort_perm _ _⟩

/-- What the fixer makes of a text that the grammar accepts follows what the detector finds in it. -/
theorem planSource_follows_of_accepted (hf : ParsedFile.read? path source = some f)
    (htext : source.text?.isSome = true) (hfault : f.facts.fault = none) :
    (p.planSource path source).report.Follows (p.analyzeParsed f.grammar.family (p.shown path) f) (.ok source) := by
  let w : Rework := ⟨f, p.config.settings f.grammar.family, p.shown path⟩
  obtain ⟨herror, hfamily, hperm⟩ := analyzeParsed_of_accepted p f.grammar.family (p.shown path) hfault
  generalize p.analyzeParsed f.grammar.family (p.shown path) f = a at herror hfamily hperm ⊢
  have hnone : a.violations = [] ↔ w.calls = [] := by
    rw [← List.length_eq_zero_iff, hperm.length_eq, List.length_map, List.length_eq_zero_iff]
    rfl
  cases hfix : p.fixParsed (p.shown path) f with
  | error fault =>
    rw [planSource_of_error hf htext hfix]
    obtain ⟨at_, hsome, -⟩ | ⟨-, hcalls, hkind⟩ := fixParsed_error hfix
    · exact absurd (hfault.symm.trans hsome) (by simp)
    · exact .of_violations herror (mt hnone.mp hcalls) (.inl ⟨fault, FixReport.fails_fail _ _, hkind⟩)
  | ok out =>
    obtain ⟨fixed, changes⟩ := out
    rw [planSource_of_ok hf htext hfix]
    obtain ⟨-, ⟨hcalls, rfl, rfl⟩ | ⟨hcalls, -, -, -, rfl⟩⟩ := fixParsed_cases hfix
    · exact .of_clean herror (hnone.mpr hcalls) ⟨rfl, rfl, rfl⟩ rfl (by rw [(ParsedFile.read?_eq_some hf).2.1])
    · have hreplaced := Rewrite.replacements_plan w.shown w.family w.settings w.file.facts w.calls
      have hfound := hperm.map fun v => w.setup.name ++ "." ++ v.level.method w.family
      rw [List.map_map] at hfound
      exact .of_violations herror (mt hnone.mp hcalls)
        (.inr ⟨⟨rfl, rfl, rfl⟩, w.family, w.setup.name, hfamily, hreplaced.trans hfound.symm⟩)

/-- What the fixer makes of a text follows what the detector finds in it. -/
theorem planSource_follows (p : Project) (path : String) {source : Bytes} (htext : source.text?.isSome = true) :
    (p.planSource path source).report.Follows (p.analyzeSource path source) (.ok source) := by
  cases hf : ParsedFile.read? path source with
  | none =>
    simp only [planSource, analyzeSource, hf]
    exact .fail ⟨rfl, rfl, rfl⟩ rfl rfl (by simp [FixFault.kind])
  | some f =>
    have hanalysis : p.analyzeSource path source = p.analyzeParsed f.grammar.family (p.shown path) f := by
      simp only [analyzeSource, hf]
    rw [hanalysis]
    cases hfault : f.facts.fault with
    | none => exact planSource_follows_of_accepted hf htext hfault
    | some at_ =>
      have hfix : p.fixParsed (p.shown path) f = .error (.syntaxError (p.shown path) at_.start) := by
        rw [fixParsed, hfault]
        rfl
      rw [planSource_of_error hf htext hfix]
      simp only [analyzeParsed, hfault]
      exact .fail ⟨rfl, rfl, rfl⟩ rfl rfl (by simp [FixFault.kind])

/-- Bytes that are no text are not fixed, whatever the detector finds in them. -/
theorem planSource_of_not_text {g : Grammar} (hg : Grammar.ofPath? path = some g) (h : source.text? = none) :
    (p.planSource path source).report = .failed (p.shown path) (.notText path) := by
  rw [planSource, ParsedFile.read?, hg]
  simp only [Option.map_some, h, Option.isNone_none, if_true]
  rfl

/-- Reading a file does not make it exempt. -/
theorem analyzeSource_excluded (p : Project) (path : String) (source : Bytes) :
    (p.analyzeSource path source).excluded = false := by
  unfold analyzeSource analyzeParsed
  cases ParsedFile.read? path source with
  | none => rfl
  | some f =>
    simp only
    cases f.facts.fault <;> rfl

/-- What is found in a file that is looked at, whether or not it can be read. -/
theorem analyze_of_open (c : Conditions) {g : Grammar} (w : World) (hg : Grammar.ofPath? path = some g)
    (henabled : (p.config.settings g.family).enabled = true) (hexempt : p.exemption? path = none) :
    ((p.analyze path).run (World.answerUnder c) w).1 = match (World.answerUnder c (.read path) w).1 with
      | .error fault => .ofFault (p.shown path) (some g.family) (.unreadable path fault)
      | .ok source => p.analyzeSource path source := by
  unfold analyze
  simp only [hg, henabled, hexempt, Bool.not_true, Bool.false_eq_true, if_false]
  rw [Procedure.run_bind, Procedure.run_request]
  cases (World.answerUnder c (.read path) w).1 <;> rfl

theorem plan_of_unreadable {c : Conditions} {g : Grammar} {w : World} {fault : FileFault}
    (hg : Grammar.ofPath? path = some g)
    (hidle : (!(p.config.settings g.family).enabled || !(p.config.settings g.family).autoFix ||
      (p.exemption? path).isSome) = false) (hread : (World.answerUnder c (.read path) w).1 = .error fault) :
    ((p.plan path).run (World.answerUnder c) w).1 =
      .idle path (.failed (p.shown path) (.unreadable path fault)) := by
  unfold plan
  simp only [hg, hidle, Bool.false_eq_true, if_false]
  rw [Procedure.run_bind, Procedure.run_request, hread]
  rfl

/-- **A plan follows the analysis of the same file.** Both see one world, which may hold any text at the path or keep it
from being read. A file that is exempt or whose family is switched off is left alone; of any other file the plan says
what the analysis says. -/
theorem plan_follows_analyze (c : Conditions) (p : Project) (path : String) (w : World)
    (hauto : ∀ g, Grammar.ofPath? path = some g → (p.config.settings g.family).autoFix = true)
    (htext : ∀ source, (World.answerUnder c (.read path) w).1 = .ok source → source.text?.isSome = true) :
    let a := ((p.analyze path).run (World.answerUnder c) w).1
    let r := ((p.plan path).run (World.answerUnder c) w).1.report
    let passed := a.excluded = true ∨
      ∃ g, Grammar.ofPath? path = some g ∧ (p.config.settings g.family).enabled = false
    (passed → r.Succeeds ∧ r.changes = []) ∧ (¬ passed → r.Follows a (World.answerUnder c (.read path) w).1) := by
  cases hg : Grammar.ofPath? path with
  | none =>
    simp only [analyze, plan, hg, reduceCtorEq, false_and, exists_false, or_false]
    exact ⟨fun h => absurd h Bool.false_ne_true, fun _ => .fail ⟨rfl, rfl, rfl⟩ rfl rfl (by simp [FixFault.kind])⟩
  | some g =>
    simp only [Option.some.injEq, exists_eq_left']
    cases henabled : (p.config.settings g.family).enabled with
    | false =>
      simp only [plan, hg, henabled, Bool.not_false, Bool.true_or, if_true]
      exact ⟨fun _ => ⟨⟨rfl, rfl, rfl⟩, rfl⟩, fun h => absurd (.inr trivial) h⟩
    | true =>
      cases hexempt : p.exemption? path with
      | some why =>
        simp only [analyze, plan, hg, henabled, hexempt, Option.isSome_some, Bool.or_true, if_true]
        exact ⟨fun _ => ⟨⟨rfl, rfl, rfl⟩, rfl⟩, fun h => absurd (.inl rfl) h⟩
      | none =>
        have hidle : (!(p.config.settings g.family).enabled || !(p.config.settings g.family).autoFix ||
            (p.exemption? path).isSome) = false := by rw [henabled, hauto g hg, hexempt]; rfl
        rw [analyze_of_open c w hg henabled hexempt]
        cases hread : (World.answerUnder c (.read path) w).1 with
        | error fault =>
          rw [plan_of_unreadable hg hidle hread]
          exact ⟨fun h => absurd h (by simp [Analysis.ofFault, Analysis.fail, Analysis.clean]),
            fun _ => .fail ⟨rfl, rfl, rfl⟩ rfl rfl (by simp [FixFault.kind])⟩
        | ok source =>
          simp only [plan_of_read hg hidle hread, p.analyzeSource_excluded]
          exact ⟨fun h => absurd h (by simp), fun _ => p.planSource_follows path (htext source hread)⟩

/-- Of three calls one is silenced, and of the other two one stands in the arguments of the other. -/
theorem plan_follows_analyze_nestedCalls :
    let p : Project := ⟨"", Config.default⟩
    let world : World := { disk := { nodes := [(["a.js"], .file Rewrite.nestedCalls.source 0o644 default)] } }
    let a := ((p.analyze "a.js").run (World.answerUnder {}) world).1
    let r := ((p.plan "a.js").run (World.answerUnder {}) world).1.report
    a.excluded = false ∧ a.violations.length = 2 ∧ r.Succeeds ∧ r.callsRewritten = 2 ∧
      ∃ name, r.replacements.Perm [name ++ ".info", name ++ ".warn"] := by
  intro p world a r
  let f := Rewrite.nestedCalls
  let w : Rework := ⟨f, p.config.settings .javascript, p.shown "a.js"⟩
  have hgrammar : Grammar.ofPath? "a.js" = some .javascript := by decide +kernel
  have hread : ParsedFile.read? "a.js" f.source = some f := ParsedFile.read?_of_grammar hgrammar _
  have hanswer : (World.answerUnder {} (.read "a.js") world).1 = .ok f.source := by decide +kernel
  obtain ⟨-, hchanges, -, -, hcalls⟩ : r = _ ∧ r.changes ≠ [] ∧ _ ∧ _ ∧ w.calls = w.met :=
    plan_of_smooth hgrammar (by decide +kernel) hanswer hread (by decide +kernel)
  have hsource : a = p.analyzeSource "a.js" f.source := by
    show ((p.analyze "a.js").run (World.answerUnder {}) world).1 = _
    rw [analyze_of_open {} world hgrammar (by decide +kernel) (by decide +kernel), hanswer]
  have hparsed : a = p.analyzeParsed .javascript (p.shown "a.js") f := by
    rw [hsource, analyzeSource, hread]
    rfl
  have haccepted : f.facts.fault = none := by decide +kernel
  obtain ⟨-, hown, hviolations⟩ := analyzeParsed_of_accepted p .javascript (p.shown "a.js") haccepted
  rw [← hparsed] at hown hviolations
  -- the calls are compared by their levels, as the walk meets them
  have hlevels : (a.violations.map (·.level)).Perm [.info, .warn] := by
    have hmet : w.met.map CallSite.level = [.info, .warn] := by decide +kernel
    rw [← hmet, ← hcalls]
    refine (hviolations.map _).trans (.of_eq ?_)
    rw [List.map_map]
    rfl
  have hlength : a.violations.length = 2 := by
    rw [← List.length_map (·.level), hlevels.length_eq]
    rfl
  have hexcluded : a.excluded = false := hsource ▸ p.analyzeSource_excluded "a.js" f.source
  have hauto : ∀ g, Grammar.ofPath? "a.js" = some g → (p.config.settings g.family).autoFix = true := by
    intro g hg
    obtain rfl := Option.some.inj (hgrammar.symm.trans hg)
    decide +kernel
  have htext : ∀ source, (World.answerUnder {} (.read "a.js") world).1 = .ok source → source.text?.isSome = true := by
    intro source hsource
    obtain rfl := Except.ok.inj (hanswer.symm.trans hsource)
    decide +kernel
  have hfollows : r.Follows a (World.answerUnder {} (.read "a.js") world).1 := by
    refine (plan_follows_analyze {} p "a.js" world hauto htext).2 ?_
    rintro (h | ⟨g, hg, h⟩)
    · exact absurd (hexcluded.symm.trans h) (by decide)
    · obtain rfl := Option.some.inj (hgrammar.symm.trans hg)
      exact absurd h (by decide +kernel)
  have hsome : a.violations ≠ [] := fun h => absurd (h ▸ hlength) (by decide)
  obtain ⟨fault, hfault, -⟩ | ⟨hfault, hcount, family, name, hfamily, hperm⟩ := hfollows.rewritten hsome
  · exact absurd ((p.plan_sound (World.answerUnder {}) "a.js" world).reverted hfault.success).1 hchanges
  · obtain rfl := Option.some.inj (hown.symm.trans hfamily)
    have hmethods := hlevels.map fun l => name ++ "." ++ l.method .javascript
    rw [List.map_map] at hmethods
    refine ⟨hexcluded, hlength, hfault, hcount.trans hlength, name, hperm.trans (hmethods.trans (.of_eq ?_))⟩
    simp only [List.map_cons, List.map_nil, String.append_assoc]
    rfl

end Project

end LogHygiene
