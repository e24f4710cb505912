import LogHygiene.Proofs.Fix.Outcome
import LogHygiene.Proofs.Fix.Rereading

/-!
# Fixes that change something

`Project.plan` gives a report whatever happens, and what is said of a fixed text is said under one
condition, that there are changes. What a plan with changes went through is worked out once, in
`Project.Changed`: the file was read, its calls were rewritten by accepted edits, the result is text, and
reading it again found no fault.

> **a plan with changes has all that `Changed` says** (`planSource_changed`), and it depends on the path
> and on the text that was read, not on the rest of the world (`plan_changed`).
-/

set_option autoImplicit false

namespace LogHygiene

open Syntax

/-- A rewrite without changes rewrites no call. -/
theorem Rewrite.calls_eq_nil {shown : String} {family : Family} {s : FamilySettings} {x : FileFacts}
    {calls : List CallSite} (h : (Rewrite.plan shown family s x calls).changes = []) : calls = [] := by
  have hlength := congrArg List.length h
  simp only [Rewrite.plan, List.length_mergeSort, List.length_append, List.length_map, List.length_nil,
    Nat.add_eq_zero_iff] at hlength
  exact List.length_eq_zero_iff.mp hlength.2

/-- The calls that are rewritten, in the order of the walk. -/
def Rework.met (w : Rework) : List CallSite :=
  Suppression.active (Suppression.all w.file.source w.settings.markers w.file.tree)
    (w.file.tree.preorder.filterMap w.file.callSite?)

namespace Project

variable {p : Project} {path shown : String} {source : Bytes} {f : ParsedFile}

/-! ## What is planned for a text -/

theorem planSource_of_error {fault : FixFault} (hf : ParsedFile.read? path source = some f)
    (htext : source.text?.isSome = true) (hfix : p.fixParsed (p.shown path) f = .error fault) :
    (p.planSource path source).report = (FixReport.unchanged (p.shown path) source).fail fault := by
  obtain ⟨text, htext⟩ := Option.isSome_iff_exists.mp htext
  simp only [planSource, hf, htext, hfix, Option.isNone_some, Bool.false_eq_true, if_false]
  rfl

theorem planSource_of_ok {fixed : Bytes} {changes : List Change} (hf : ParsedFile.read? path source = some f)
    (htext : source.text?.isSome = true) (hfix : p.fixParsed (p.shown path) f = .ok (fixed, changes)) :
    (p.planSource path source).report = { FixReport.unchanged (p.shown path) source with fixed, changes } := by
  obtain ⟨text, htext⟩ := Option.isSome_iff_exists.mp htext
  simp only [planSource, hf, htext, hfix, Option.isNone_some, Bool.false_eq_true, if_false]
  cases changes with
  | cons change rest => rfl
  | nil =>
    -- nothing was changed, so the text is the one of the file
    have hsame : fixed = source := by
      rw [← (ParsedFile.read?_eq_some hf).2.1]
      obtain ⟨-, ⟨-, hfixed, -⟩ | ⟨hcalls, -, -, -, hchanges⟩⟩ := fixParsed_cases hfix
      · exact hfixed
      · exact absurd (Rewrite.calls_eq_nil hchanges.symm) hcalls
    rw [hsame]
    rfl

/-- A file that the grammar accepts is left alone exactly if it has no active call. -/
theorem fixParsed_nil_iff (hfault : f.facts.fault = none) :
    (∃ after, p.fixParsed shown f = .ok (after, [])) ↔
      (p.config.settings f.grammar.family).activeCalls f f.facts = [] := by
  constructor
  · rintro ⟨after, h⟩
    rcases (fixParsed_cases h).2 with ⟨hnone, -⟩ | ⟨-, -, -, -, hchanges⟩
    · exact hnone
    · exact Rewrite.calls_eq_nil hchanges.symm
  · intro hnone
    refine ⟨f.source, ?_⟩
    unfold fixParsed
    simp only [hfault, hnone]
    rfl

/-- When a readable text is planned to be left alone. -/
theorem planSource_nil_iff (hf : ParsedFile.read? path source = some f) (htext : source.text?.isSome = true)
    (hfault : f.facts.fault = none) :
    ((p.planSource path source).report.success = true ∧ (p.planSource path source).report.changes = []) ↔
      (p.config.settings f.grammar.family).activeCalls f f.facts = [] := by
  have hleft : (∃ after, p.fixParsed (p.shown path) f = .ok (after, [])) ↔ _ := fixParsed_nil_iff hfault
  rw [← hleft]
  cases hfix : p.fixParsed (p.shown path) f with
  | error fault =>
    rw [planSource_of_error hf htext hfix]
    simp [FixReport.fail]
  | ok out =>
    rw [planSource_of_ok hf htext hfix]
    simp [FixReport.unchanged, Prod.ext_iff]

/-! ## Plans that change something -/

/-- All that a plan with changes went through. -/
structure Changed (p : Project) (path : String) (source : Bytes) (f after : ParsedFile) : Prop where
  read : ParsedFile.read? path source = some f
  reread : ParsedFile.read? path (p.planSource path source).report.fixed = some after
  content : after.source = (p.planSource path source).report.fixed
  grammar : after.grammar = f.grammar
  text : (p.planSource path source).report.fixed.text?.isSome = true
  fault : after.facts.fault = none
  changes : (p.planSource path source).report.changes =
    (Rewrite.plan (p.shown path) f.grammar.family (p.config.settings f.grammar.family) f.facts
      ((p.config.settings f.grammar.family).activeCalls f f.facts)).changes
  accepted : f.WellFormed → f.Regular →
    (⟨f, p.config.settings f.grammar.family, p.shown path⟩ : Rework).Accepted

theorem exists_fixParsed (hchanges : (p.planSource path source).report.changes ≠ []) :
    ∃ f, ParsedFile.read? path source = some f ∧ source.text?.isSome = true ∧
      p.fixParsed (p.shown path) f =
        .ok ((p.planSource path source).report.fixed, (p.planSource path source).report.changes) := by
  cases hf : ParsedFile.read? path source with
  | none =>
    rw [planSource, hf] at hchanges
    exact absurd rfl hchanges
  | some f =>
    refine ⟨f, rfl, ?_⟩
    cases htext : source.text?.isSome with
    | false =>
      rw [planSource, hf] at hchanges
      simp only [Option.not_isSome_iff_eq_none.mp (Bool.eq_false_iff.mp htext), Option.isNone_none, if_true] at hchanges
      exact absurd rfl hchanges
    | true =>
      cases hfix : p.fixParsed (p.shown path) f with
      | error fault =>
        rw [planSource_of_error hf htext hfix] at hchanges
        exact absurd rfl hchanges
      | ok out =>
        rw [planSource_of_ok hf htext hfix]
        exact ⟨rfl, rfl⟩

/-- **A plan with changes went through all of it.** -/
theorem planSource_changed (hchanges : (p.planSource path source).report.changes ≠ []) :
    ∃ f after, Changed p path source f after := by
  obtain ⟨f, hf, htext, hfix⟩ := exists_fixParsed hchanges
  obtain ⟨-, ⟨-, -, hnil⟩ | ⟨-, hearly, happlied, hafter, hplanned⟩⟩ := fixParsed_cases hfix
  · exact absurd hnil hchanges
  obtain ⟨hpath, hsource, hg, -⟩ := ParsedFile.read?_eq_some hf
  obtain ⟨after, hread⟩ : ∃ after,
      ParsedFile.read? path (p.planSource path source).report.fixed = some after :=
    ⟨_, ParsedFile.read?_of_grammar hg _⟩
  obtain ⟨-, hafterSource, hg', -⟩ := ParsedFile.read?_eq_some hread
  let w : Rework := ⟨f, p.config.settings f.grammar.family, p.shown path⟩
  have happlied : Edit.applyAll f.source w.edits = .ok (p.planSource path source).report.fixed := happlied
  have hftext : f.source.text?.isSome = true := by rw [hsource]; exact htext
  refine ⟨f, after, hf, hread, hafterSource, Option.some.inj (hg'.symm.trans hg), ?_, ?_, hplanned,
    fun hwf hregular => ⟨hwf, ParsedFile.positioned_of_read hf, ParsedFile.headed_of_read hf, hregular, hearly, ?_⟩⟩
  · exact Edit.text?_applyAll happlied hftext Rework.text?_edits
  · rw [hpath, hread] at hafter
    exact hafter
  · rw [(Edit.applyAll_eq_ok happlied).2.2] at happlied
    exact happlied

/-- What a plan with changes makes of a file. -/
theorem planSource_fixed (hchanges : (p.planSource path source).report.changes ≠ [])
    (hf : ParsedFile.read? path source = some f) : (p.planSource path source).report.fixed =
      (⟨f, p.config.settings f.grammar.family, p.shown path⟩ : Rework).fixed := by
  obtain ⟨f', hf', -, hfix⟩ := exists_fixParsed hchanges
  obtain rfl := Option.some.inj (hf'.symm.trans hf)
  obtain ⟨-, ⟨-, -, hnil⟩ | ⟨-, -, happlied, -⟩⟩ := fixParsed_cases hfix
  · exact absurd hnil hchanges
  · exact (Edit.applyAll_eq_ok happlied).2.2

/-- What a plan with changes reports: the lines that are put in, and the calls that are rewritten. -/
theorem planSource_changes (hchanges : (p.planSource path source).report.changes ≠ [])
    (hf : ParsedFile.read? path source = some f) :
    let w : Rework := ⟨f, p.config.settings f.grammar.family, p.shown path⟩
    (p.planSource path source).report.changes.Perm
      (LoggerSetup.changesFrom w.insertion.line w.setup.lines ++
        w.calls.map (w.setup.callChange w.family w.insertion)) := by
  intro w
  obtain ⟨f', after, h⟩ := planSource_changed hchanges
  obtain rfl := Option.some.inj (h.read.symm.trans hf)
  rw [h.changes]
  exact List.mergeSort_perm _ _

theorem planSource_original (hchanges : (p.planSource path source).report.changes ≠ []) :
    (p.planSource path source).report.original = source := by
  obtain ⟨f, hf, htext, hfix⟩ := exists_fixParsed hchanges
  rw [planSource_of_ok hf htext hfix]
  rfl

/-- The plan for a file that is looked at and can be read. -/
theorem plan_of_read {c : Conditions} {g : Grammar} {w : World} {text : Bytes} (hg : Grammar.ofPath? path = some g)
    (hidle : (!(p.config.settings g.family).enabled || !(p.config.settings g.family).autoFix ||
      (p.exemption? path).isSome) = false) (hread : (World.answerUnder c (.read path) w).1 = .ok text) :
    ((p.plan path).run (World.answerUnder c) w).1 = p.planSource path text := by
  unfold plan
  simp only [hg, hidle, Bool.false_eq_true, if_false]
  rw [Procedure.run_bind, Procedure.run_request, hread]
  rfl

/-- Where a plan that changes something read its file, and what it makes of another text there. -/
theorem plan_changed {c : Conditions} {w₁ : World}
    (hchanges : ((p.plan path).run (World.answerUnder c) w₁).1.report.changes ≠ []) :
    ∃ source, ((p.plan path).run (World.answerUnder c) w₁).1 = p.planSource path source ∧
      ∀ w₂ text, (World.answerUnder c (.read path) w₂).1 = .ok text →
        ((p.plan path).run (World.answerUnder c) w₂).1 = p.planSource path text := by
  cases hg : Grammar.ofPath? path with
  | none =>
    unfold plan at hchanges
    rw [hg] at hchanges
    exact absurd rfl hchanges
  | some g =>
    cases hidle : !(p.config.settings g.family).enabled || !(p.config.settings g.family).autoFix ||
        (p.exemption? path).isSome with
    | true =>
      unfold plan at hchanges
      simp only [hg, hidle, if_true] at hchanges
      exact absurd rfl hchanges
    | false =>
      cases hread : (World.answerUnder c (.read path) w₁).1 with
      | error fault =>
        unfold plan at hchanges
        simp only [hg, hidle, Bool.false_eq_true, if_false] at hchanges
        rw [Procedure.run_bind, Procedure.run_request, hread] at hchanges
        exact absurd rfl hchanges
      | ok source => exact ⟨source, plan_of_read hg hidle hread, fun _ _ hread => plan_of_read hg hidle hread⟩

/-! ## Fixes that go through -/

theorem fixParsed_ok {fixed : Bytes} (hfault : f.facts.fault = none)
    (hsome : (p.config.settings f.grammar.family).activeCalls f f.facts ≠ [])
    (hearly : earlyCall? f.facts ((p.config.settings f.grammar.family).activeCalls f f.facts) = none)
    (happlied : Edit.applyAll f.source
      (⟨f, p.config.settings f.grammar.family, shown⟩ : Rework).edits = .ok fixed)
    (hafter : (ParsedFile.read? f.path fixed).bind (·.facts.fault) = none) :
    ∃ change rest, p.fixParsed shown f = .ok (fixed, change :: rest) := by
  obtain ⟨change, rest, hcons⟩ := List.exists_cons_of_ne_nil
    (mt (@Rewrite.calls_eq_nil shown f.grammar.family (p.config.settings f.grammar.family) f.facts _) hsome)
  refine ⟨change, rest, ?_⟩
  have happlied : Edit.applyAll f.source (Rewrite.plan shown f.grammar.family (p.config.settings f.grammar.family)
      f.facts ((p.config.settings f.grammar.family).activeCalls f f.facts)).edits = .ok fixed := happlied
  unfold fixParsed
  simp only [hfault, List.isEmpty_eq_false_iff.mpr hsome, hearly, happlied, Except.mapError, bind, Except.bind, pure,
    Except.pure, hafter, hcons, Bool.false_eq_true, if_false]

/-- A file whose calls the walk meets in order is fixed if its edits, in order as well, leave nothing to object to. -/
theorem planSource_of_ordered (hf : ParsedFile.read? path source = some f) (htext : source.text?.isSome = true)
    (hfault : f.facts.fault = none)
    (hordered : (f.tree.preorder.filterMap f.callSite?).Pairwise fun a b => a.call.start.byte < b.call.start.byte) :
    let w : Rework := ⟨f, p.config.settings f.grammar.family, p.shown path⟩
    let edits := w.setup.edits w.insertion ++ w.met.map (w.setup.callEdit w.family)
    let fixed := Edit.splice f.source 0 edits
    w.met ≠ [] → earlyCall? f.facts w.met = none → (edits.Pairwise fun a b => a.before b = true) →
      Edit.fault? f.source edits = none → (ParsedFile.read? path fixed).bind (·.facts.fault) = none →
      w.calls = w.met ∧ (p.planSource path source).report.changes ≠ [] ∧
        (p.planSource path source).report.fixed = fixed := by
  intro w edits fixed hsome hearly hedits hfit hafter
  have hcalls : w.calls = w.met := by
    rw [Rework.calls, FamilySettings.activeCalls, f.facts_calls_of_ordered hordered]
    rfl
  have happlied : Edit.applyAll f.source w.edits = .ok fixed := by
    have hself : w.edits = edits := by
      rw [Rework.edits, hcalls]
      rfl
    rw [hself]
    exact Edit.applyAll_of_inOrder hedits hfit
  rw [← (ParsedFile.read?_eq_some hf).1] at hafter
  obtain ⟨change, rest, hfix⟩ := fixParsed_ok hfault
    (by rw [← hcalls] at hsome; exact hsome) (by rw [← hcalls] at hearly; exact hearly) happlied hafter
  rw [planSource_of_ok hf htext hfix]
  exact ⟨hcalls, List.cons_ne_nil _ _, rfl⟩

/-- The calls of a file stand in order, and so do the edits of a plan, which leave nothing to object to. This can be
worked out for a file at once. -/
def IsSmooth (p : Project) (path : String) (f : ParsedFile) : Prop :=
  let w : Rework := ⟨f, p.config.settings f.grammar.family, p.shown path⟩
  let edits := w.setup.edits w.insertion ++ w.met.map (w.setup.callEdit w.family)
  (f.source.text?.isSome = true ∧ f.facts.fault = none ∧
    (f.tree.preorder.filterMap f.callSite?).Pairwise fun a b => a.call.start.byte < b.call.start.byte) ∧
  (w.met ≠ [] ∧ earlyCall? f.facts w.met = none) ∧
  (edits.Pairwise fun a b => a.before b = true) ∧ Edit.fault? f.source edits = none ∧
    (ParsedFile.read? path (Edit.splice f.source 0 edits)).bind (·.facts.fault) = none

instance (p : Project) (path : String) (f : ParsedFile) : Decidable (p.IsSmooth path f) :=
  inferInstanceAs (Decidable ((_ ∧ _ ∧ _) ∧ (_ ∧ _) ∧ _ ∧ _ ∧ _))

theorem planSource_of_smooth (hf : ParsedFile.read? path f.source = some f) (h : p.IsSmooth path f) :
    let w : Rework := ⟨f, p.config.settings f.grammar.family, p.shown path⟩
    w.calls = w.met ∧ (p.planSource path f.source).report.changes ≠ [] := by
  obtain ⟨⟨htext, hfault, hordered⟩, ⟨hsome, hearly⟩, hedits, hfit, hafter⟩ := h
  obtain ⟨hcalls, hchanges, -⟩ := planSource_of_ordered hf htext hfault hordered hsome hearly hedits hfit hafter
  exact ⟨hcalls, hchanges⟩

/-- What such a file becomes. -/
theorem fixed_of_smooth (hf : ParsedFile.read? path f.source = some f) (h : p.IsSmooth path f) :
    let w : Rework := ⟨f, p.config.settings f.grammar.family, p.shown path⟩
    w.fixed = Edit.splice f.source 0 (w.setup.edits w.insertion ++ w.met.map (w.setup.callEdit w.family)) := by
  intro w
  obtain ⟨⟨htext, hfault, hordered⟩, ⟨hsome, hearly⟩, hedits, hfit, hafter⟩ := h
  obtain ⟨-, hchanges, hfixed⟩ := planSource_of_ordered hf htext hfault hordered hsome hearly hedits hfit hafter
  exact (planSource_fixed hchanges hf).symm.trans hfixed

/-- The plan for such a file where it is looked at. -/
theorem plan_of_smooth {c : Conditions} {g : Grammar} {world : World} (hg : Grammar.ofPath? path = some g)
    (hidle : (!(p.config.settings g.family).enabled || !(p.config.settings g.family).autoFix ||
      (p.exemption? path).isSome) = false) (hanswer : (World.answerUnder c (.read path) world).1 = .ok f.source)
    (hf : ParsedFile.read? path f.source = some f) (h : p.IsSmooth path f) :
    let w : Rework := ⟨f, p.config.settings f.grammar.family, p.shown path⟩
    let r := ((p.plan path).run (World.answerUnder c) world).1.report
    r = (p.planSource path f.source).report ∧ r.changes ≠ [] ∧ r.original = f.source ∧ r.fixed = w.fixed ∧
      w.calls = w.met := by
  intro w r
  obtain ⟨hcalls, hchanges⟩ := planSource_of_smooth hf h
  have hplan : r = (p.planSource path f.source).report := congrArg FixPlan.report (plan_of_read hg hidle hanswer)
  exact ⟨hplan, hplan ▸ hchanges, hplan ▸ planSource_original hchanges, hplan ▸ planSource_fixed hchanges hf, hcalls⟩

end Project

end LogHygiene
