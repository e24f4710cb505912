import LogHygiene.Proofs.Enforcement.OneFile
import LogHygiene.Proofs.Facts.CallSites
import LogHygiene.Proofs.Facts.Loggers
import LogHygiene.Proofs.Fix.Rewriting
import LogHygiene.Proofs.Syntax.Repair

/-!
# What is reported about a file fits together

The fields of an `Analysis` are free of one another, for a record in a store may say anything. What a run makes up about
a file is not: it is made on one of a few exits, and an outside program may turn it into a failure later. On every
way through both steps

> **what is reported about a file is coherent** (`Enforcer.coherent_analysis`),

whatever the configuration says, whatever the bytes are and whatever the outside answers, also when the file is another
one at the second look.

That no two violations stand at one place needs the tree: of the calls that start together one counts, calls start at
places of the text (`Grammar.tree_within`), and places with different bytes before them differ in line or column. So the
violations are in order before they are sorted.
-/

set_option autoImplicit false

namespace LogHygiene

open Syntax

/-! ## Calls in order -/

/-- A file that was read has all of its nodes at places of its text. -/
theorem ParsedFile.tree_within {path : String} {source : Bytes} {f : ParsedFile} (h : read? path source = some f) :
    f.tree.Within f.source := by
  obtain ⟨g, -, rfl⟩ := Option.map_eq_some_iff.mp h
  exact g.tree_within source

/-- The calls of a file stand one behind the other. -/
theorem ParsedFile.calls_before {f : ParsedFile} (h : f.tree.Within f.source) :
    f.facts.calls.Pairwise fun c d => c.call.start.Before d.call.start := by
  have hplace : ∀ c ∈ f.facts.calls, c.call.start.Within f.source := by
    intro c hc
    obtain ⟨n, hn, hsite⟩ := exists_node_of_mem_calls hc
    rw [(callSite?_eq_some hsite).2.1]
    exact (h n hn).1
  have hascending : f.facts.calls.Pairwise fun c d => c.call.start.byte < d.call.start.byte := by
    rw [f.facts_calls]
    exact CallSite.inOrder_ascending _
  exact hascending.imp_of_mem fun hc hd hlt => (hplace _ hc).before_of_lt (hplace _ hd) hlt

/-! ## Coherent analyses -/

/-- A violation stands on an earlier line than another, or further left on the same one. -/
def Violation.Precedes (v w : Violation) : Prop := v.line < w.line ∨ v.line = w.line ∧ v.column < w.column

theorem Violation.Precedes.before {v w : Violation} (h : v.Precedes w) : v.before w = true := by
  simp only [Violation.before, Bool.or_eq_true, Bool.and_eq_true, decide_eq_true_eq, beq_iff_eq]
  unfold Precedes at h
  omega

theorem Violation.precedes_ofCall {c d : CallSite} (h : c.call.start.Before d.call.start) (path : String)
    (severity : Severity) : (ofCall path severity c).Precedes (ofCall path severity d) := by
  rcases h with hrow | ⟨hrow, hcolumn⟩
  · exact .inl (Nat.succ_lt_succ hrow)
  · exact .inr ⟨congrArg (· + 1) hrow, Nat.succ_lt_succ hcolumn⟩

/-- The fields of an analysis go together. -/
structure Analysis.Coherent (config : Config) (a : Analysis) : Prop where
  exemption : a.excluded = true ↔ a.exemption.isSome = true
  errorKind : a.error.isSome = true ↔ a.errorKind.isSome = true
  spared : a.excluded = true → a.error = none
  silent : a.excluded = true ∨ a.error.isSome = true → a.violations = []
  family : a.family = none ↔ a.errorKind = some .unsupportedLanguage
  loggers : a.hasInstance = true ↔ a.loggerNames ≠ []
  ordered : a.violations.Pairwise Violation.Precedes
  named : ∀ v ∈ a.violations, v.path = a.path
  severity : ∀ v ∈ a.violations, ∃ family, a.family = some family ∧ v.severity = (config.settings family).severity

namespace Analysis.Coherent

variable {config : Config}

theorem clean (path : String) (family : Family) : (Analysis.clean path (some family)).Coherent config := by
  constructor <;> simp [Analysis.clean]

theorem exempt (path : String) (family : Family) (why : Exemption) :
    (Analysis.exempt path family why).Coherent config := by
  constructor <;> simp [Analysis.exempt]

/-- A fault in the place of the violations leaves an analysis coherent if the file was not exempt, and if it is of the
sort that goes with its family. -/
theorem fail {a : Analysis} {f : AnalysisFault} (hexcluded : a.excluded = false)
    (hexemption : a.exemption = none) (hloggers : a.hasInstance = true ↔ a.loggerNames ≠ [])
    (hfamily : a.family = none ↔ f.kind = .unsupportedLanguage) : (a.fail f).Coherent config := by
  constructor <;> simp [Analysis.fail, hexcluded, hexemption, hloggers, hfamily]

theorem ofFault (path : String) {family : Option Family} {f : AnalysisFault}
    (hfamily : family = none ↔ f.kind = .unsupportedLanguage) :
    (Analysis.ofFault path family f).Coherent config :=
  fail rfl rfl (by simp [Analysis.clean]) hfamily

end Analysis.Coherent

/-! ## The exits -/

namespace Project

/-- Of a file that was read the calls that count become violations in order, so sorting them changes nothing. -/
theorem coherent_analyzeParsed (p : Project) (shown : String) {f : ParsedFile} (h : f.tree.Within f.source) :
    (p.analyzeParsed f.grammar.family shown f).Coherent p.config := by
  unfold analyzeParsed
  dsimp only
  split
  · exact .ofFault _ (by simp [AnalysisFault.kind])
  · have hcalls : ((p.config.settings f.grammar.family).activeCalls f f.facts).Pairwise
        fun c d => c.call.start.Before d.call.start :=
      (f.calls_before h).sublist (FamilySettings.activeCalls_sublist _ _ _)
    have hordered : (((p.config.settings f.grammar.family).activeCalls f f.facts).map
        (Violation.ofCall shown (p.config.settings f.grammar.family).severity)).Pairwise Violation.Precedes :=
      List.pairwise_map.mpr (hcalls.imp fun hbefore => Violation.precedes_ofCall hbefore _ _)
    rw [List.mergeSort_of_pairwise (hordered.imp Violation.Precedes.before)]
    have hviolation : ∀ v ∈ ((p.config.settings f.grammar.family).activeCalls f f.facts).map
        (Violation.ofCall shown (p.config.settings f.grammar.family).severity),
        v.path = shown ∧ v.severity = (p.config.settings f.grammar.family).severity := by
      intro v hv
      obtain ⟨c, -, rfl⟩ := List.mem_map.mp hv
      exact ⟨rfl, rfl⟩
    constructor
    case loggers => exact f.counted_facts.names
    case ordered => exact hordered
    case named => exact fun v hv => (hviolation v hv).1
    case severity => exact fun v hv => ⟨f.grammar.family, rfl, (hviolation v hv).2⟩
    all_goals simp [Analysis.clean]

theorem coherent_analyzeSource (p : Project) (path : String) (source : Bytes) :
    (p.analyzeSource path source).Coherent p.config := by
  unfold analyzeSource
  dsimp only
  split
  · exact .ofFault _ (by simp [AnalysisFault.kind])
  · rename_i f hread
    exact p.coherent_analyzeParsed _ (ParsedFile.tree_within hread)

variable {σ : Type} (answer : (q : Request) → σ → q.Answer × σ) (s : σ)

theorem coherent_analyze (p : Project) (path : String) :
    ((p.analyze path).run answer s).1.Coherent p.config := by
  unfold analyze
  simp only
  split
  · exact .ofFault _ (by simp [AnalysisFault.kind])
  · split
    · exact .clean _ _
    · split
      · exact .exempt _ _ _
      · rw [Procedure.run_bind, Procedure.run_request]
        cases (answer (.read path) s).1 with
        | error fault => exact .ofFault _ (by simp [AnalysisFault.kind])
        | ok source => exact p.coherent_analyzeSource path source

end Project

namespace Enforcer

/-- Only what was analyzed without fault and is not exempt is shown to an outside program. -/
theorem onAnalyze?_eq_some {e : Enforcer} {a : Analysis} {check : SyntaxCheck} (h : e.onAnalyze? a = some check) :
    a.family ≠ none ∧ a.excluded = false ∧ a.error = none := by
  rw [onAnalyze?] at h
  obtain ⟨family, hfamily, h⟩ := Option.bind_eq_some_iff.mp h
  obtain ⟨c, -, h⟩ := Option.bind_eq_some_iff.mp h
  split at h
  · rename_i hcond
    simp only [Bool.and_eq_true, Bool.not_eq_true', Analysis.hasError, Option.isSome_eq_false_iff,
      Option.isNone_iff_eq_none] at hcond
    exact ⟨by simp [hfamily], hcond.1.2, hcond.2⟩
  · exact absurd h (by simp)

variable {σ : Type} (answer : (q : Request) → σ → q.Answer × σ) (s : σ)

theorem coherent_checkOnAnalyze (e : Enforcer) (path : String) {a : Analysis} (ha : a.Coherent e.project.config) :
    ((e.checkOnAnalyze path a).run answer s).1.Coherent e.project.config := by
  unfold checkOnAnalyze
  split
  · exact ha
  · rename_i check hcheck
    obtain ⟨hfamily, hexcluded, -⟩ := onAnalyze?_eq_some hcheck
    have hexemption : a.exemption = none := by
      have hnone := mt ha.exemption.mpr (by simp [hexcluded])
      simpa using hnone
    have hfail : ∀ {f : AnalysisFault}, f.kind ≠ .unsupportedLanguage → (a.fail f).Coherent e.project.config :=
      fun hkind => .fail hexcluded hexemption ha.loggers (iff_of_false hfamily hkind)
    rw [Procedure.run_bind, Procedure.run_request]
    cases (answer (.read path) s).1 with
    | error fault => exact hfail (by simp [AnalysisFault.kind])
    | ok source =>
      simp only
      split
      · exact hfail (by simp [AnalysisFault.kind])
      · rw [Procedure.run_bind, Procedure.run_request]
        cases check.verdict (answer (.judge check source) (answer (.read path) s).2).1 with
        | error fault => exact hfail (by simp [AnalysisFault.kind])
        | ok u => exact ha

/-- **What is reported about a file is coherent**, whatever the outside answers. -/
theorem coherent_analysis (e : Enforcer) (path : String) :
    ((do
      let a ← e.project.analyze path
      e.checkOnAnalyze path a).run answer s).1.Coherent e.project.config := by
  rw [Procedure.run_bind]
  exact e.coherent_checkOnAnalyze answer _ path (e.project.coherent_analyze answer s path)

end Enforcer

end LogHygiene
