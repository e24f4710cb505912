import LogHygiene.Proofs.Fix.Origins
import LogHygiene.Proofs.Fix.Positions

/-!
# What comes first in a fixed text

A line that creates a logger can only run behind what it takes the logger from, and a rewritten call only behind what
creates its logger. A plan puts lines in behind the **head** of the file, the imports that it begins with; but it looks
for the import and the logger everywhere.

> **A new logger stands in front of all rewritten calls, and behind its import exactly if that belongs to the head**
> (`Project.plan_instance_behind_import_iff`). **Behind a logger that is there already stand exactly the calls that
> stood behind it before** (`Project.plan_calls_behind_logger_iff`).

So `lg.getLogger` may come to stand above `import logging as lg`, and `logger.info` above `const logger`. That the order
of two things can be told from the file is due to `Edit.stopAfter_le` and `Edit.startAfter_add_le`: edits move things
apart or together, but not past each other.
-/

set_option autoImplicit false

namespace LogHygiene

open Syntax
open Bytes (newlines widthOf)

/-! ## The order of a fixed text -/

namespace Rework

variable {w : Rework} {n : Node} {c : CallSite}

/-- The width of what is put in where the new lines go. -/
def blockWidth (w : Rework) : Nat := widthOf (w.setup.block w.insertion)

theorem widthOf_pos {text : String} (h : text ≠ "") : 0 < widthOf text :=
  Nat.pos_of_ne_zero fun hzero => h (Bytes.ofText_injective ((List.length_eq_zero_iff.mp hzero).trans rfl))

theorem callee_ne_empty (u : LoggerSetup) (family : Family) (c : CallSite) : u.callee family c ≠ "" := by
  intro hempty
  have hdot : '.' ∈ (u.callee family c).toList := by simp [LoggerSetup.callee]
  rw [hempty] at hdot
  exact absurd hdot (by simp)

theorem instanceStatement_ne_empty (family : Family) (b : Binding) (name : String) :
    instanceStatement family b name ≠ "" := by
  intro hempty
  have hblank : ' ' ∈ (instanceStatement family b name).toList := by
    cases family <;> simp [instanceStatement]
  rw [hempty] at hblank
  exact absurd hblank (by simp)

theorem insertion_le_instanceStart (w : Rework) : w.insertion.byte ≤ w.instanceStart := by
  have hblock : w.insertion.byte ≤ w.blockStart := Nat.le_add_right _ _
  unfold instanceStart
  split <;> omega

/-- The logger that calls use, where there is one. -/
theorem knows_name (hold : w.isNew = false) : w.file.facts.logger.Knows w.setup.name := by
  obtain ⟨name, hname⟩ := Option.isSome_iff_exists.mp
    (show w.file.facts.logger.preferred?.isSome = true by simpa [isNew] using hold)
  rw [setup, LoggerSetup.choose_of_some hname]
  exact LoggerFacts.knows_of_preferred? hname

namespace Accepted

/-- An edit takes nothing away, or is beside a statement or inside it. -/
theorem beside_or_inside {e : Edit} (h : w.Accepted) (hn : n ∈ w.file.tree.children) (he : e ∈ w.edits) :
    e.start = e.stop ∨ (e.stop ≤ n.start ∨ n.stop ≤ e.start) ∨ (n.start ≤ e.start ∧ e.stop ≤ n.stop) := by
  rcases mem_edits.mp he with ⟨-, rfl⟩ | ⟨d, hd, rfl⟩
  · exact .inl rfl
  · refine .inr ?_
    rcases (h.placed_top hn).calls d hd with hclear | ⟨m, hm, hsite⟩
    · exact .inl hclear
    · have hnTree := ParsedFile.WellFormed.mem_child w.file.tree.mem_preorder_self hn
      have hspan := (h.wellFormed.nested.child hn).span_of_mem hm
      have hin := h.wellFormed.callee_inside (Node.mem_preorder_trans hnTree hm) hsite
      exact .inr ⟨Nat.le_trans hspan.1 hin.1, Nat.le_trans hin.2 hspan.2.2⟩

/-- No edit reaches over the start of a statement. -/
theorem cut_start (h : w.Accepted) (hn : n ∈ w.file.tree.children) : Edit.Cut w.edits n.start := by
  intro e he
  have hforward := h.wellFormed.forward (ParsedFile.WellFormed.mem_child w.file.tree.mem_preorder_self hn)
  have hplace := h.beside_or_inside hn he
  omega

/-- No edit reaches over the end of a statement. -/
theorem cut_stop (h : w.Accepted) (hn : n ∈ w.file.tree.children) : Edit.Cut w.edits n.stop := by
  intro e he
  have hforward := h.wellFormed.forward (ParsedFile.WellFormed.mem_child w.file.tree.mem_preorder_self hn)
  have hplace := h.beside_or_inside hn he
  omega

/-- No edit reaches over the place of the new lines. -/
theorem cut_insertion (h : w.Accepted) (hnew : w.isNew = true) : Edit.Cut w.edits w.insertion.byte := by
  intro e he
  rcases mem_edits.mp he with ⟨-, rfl⟩ | ⟨d, hd, rfl⟩
  · exact .inl (Nat.le_refl _)
  · exact .inr (h.insertion_le hnew hd)

/-- **A rewritten call is behind a statement exactly if it was behind it before.** -/
theorem stop_le_landing_iff (h : w.Accepted) (hn : n ∈ w.file.tree.children) (hc : c ∈ w.calls) :
    (w.carry n).stop ≤ w.landing c ↔ n.stop ≤ c.callee.start.byte := by
  have hsound := h.sound hc
  have hlen := h.wellFormed.length_le (ParsedFile.WellFormed.mem_child w.file.tree.mem_preorder_self hn)
  rw [carry_stop]
  constructor
  · intro hstop
    by_contra hbefore
    have hlanding : w.landing c + widthOf (w.setup.callee w.family c) ≤ Edit.stopAfter w.edits n.stop :=
      Edit.startAfter_add_le (e := w.setup.callEdit w.family c) h.applied (mem_edits.mpr (.inr ⟨c, hc, rfl⟩))
        (h.cut_callee hc) (h.cut_stop hn) (Nat.not_le.mp hbefore) hsound.wide hlen
    have hpos := widthOf_pos (callee_ne_empty w.setup w.family c)
    omega
  · intro hstop
    exact Edit.stopAfter_le h.applied (h.cut_stop hn) (h.cut_callee hc) hstop
      (Nat.le_trans (Nat.le_of_lt hsound.wide) hsound.inFile)

/-- The line that creates the logger is among what is put in. -/
theorem instance_inside (hnew : w.isNew = true) :
    w.instanceStart + widthOf (instanceStatement w.family w.binding w.setup.name) ≤
      w.insertion.byte + w.blockWidth := by
  rw [blockWidth, widthOf, widthOf, LoggerSetup.ofText_block, setup_of_new hnew, instanceStart, blockStart]
  simp only [List.length_append]
  cases w.file.facts.logger.binding with
  | some b =>
    rw [List.nil_append, LoggerSetup.joined, List.map_singleton, String.intercalate_singleton]
    cases w.insertion.needsLeadingNewline <;> simp only [if_true, if_false, Bool.false_eq_true,
      List.length_singleton, List.length_nil] <;> omega
  | none =>
    rw [List.singleton_append, LoggerSetup.joined_cons_cons, LoggerSetup.joined, List.map_singleton,
      String.intercalate_singleton, List.length_append, List.length_cons]
    cases w.insertion.needsLeadingNewline <;> simp only [if_true, if_false, Bool.false_eq_true,
      List.length_singleton, List.length_nil, widthOf] <;> omega

/-- **A new logger is created in front of every rewritten call.** -/
theorem instance_le_landing (h : w.Accepted) (hnew : w.isNew = true) (hc : c ∈ w.calls) :
    w.instanceStart + widthOf (instanceStatement w.family w.binding w.setup.name) ≤ w.landing c := by
  obtain ⟨front, -, -, hfront⟩ := h.take_landing hc
  have hlength := congrArg List.length hfront
  have hsound := h.sound hc
  have hbehind := h.insertion_le hnew hc
  rw [List.length_append, opening, if_pos hnew, List.length_append, List.length_take, List.length_take] at hlength
  have hinside := instance_inside hnew
  have hwidth : w.blockWidth = (Bytes.ofText (w.setup.block w.insertion)).length := rfl
  have hwide := hsound.wide
  have hinFile := hsound.inFile
  omega

/-- What starts at the insertion place is moved by all that is put in there. -/
theorem startAfter_insertion (h : w.Accepted) (hnew : w.isNew = true) :
    Edit.startAfter w.edits w.insertion.byte = w.insertion.byte + w.blockWidth := by
  have hcalls : (w.calls.map (w.setup.callEdit w.family)).filter (·.stop ≤ w.insertion.byte) = [] := by
    refine List.filter_eq_nil_iff.mpr fun e he => ?_
    obtain ⟨d, hd, rfl⟩ := List.mem_map.mp he
    have hbehind := h.insertion_le hnew hd
    have hwide := (h.sound hd).wide
    show ¬ decide (d.callee.stop.byte ≤ w.insertion.byte) = true
    rw [decide_eq_true_eq]
    omega
  rw [Edit.startAfter, edits_eq, if_pos hnew, List.singleton_append, List.filter_cons, hcalls]
  simp [Edit.insert, Edit.added, Edit.removed, blockWidth, widthOf]

/-- **No statement of the file starts among the new lines.** -/
theorem carry_start_outside (h : w.Accepted) (hnew : w.isNew = true) (hn : n ∈ w.file.tree.children) :
    (w.carry n).start < w.insertion.byte ∨ w.insertion.byte + w.blockWidth ≤ (w.carry n).start := by
  have hnTree := ParsedFile.WellFormed.mem_child w.file.tree.mem_preorder_self hn
  have hlen : n.start ≤ w.file.source.length := Nat.le_trans (h.wellFormed.forward hnTree) (h.wellFormed.length_le hnTree)
  rw [carry_start]
  rcases Nat.lt_or_ge n.start w.insertion.byte with hfront | hbehind
  · -- nothing is edited in front of the insertion place
    have hnone : w.edits.filter (·.stop ≤ n.start) = [] := by
      refine List.filter_eq_nil_iff.mpr fun e he => ?_
      rw [decide_eq_true_eq, Nat.not_le]
      rcases mem_edits.mp he with ⟨-, rfl⟩ | ⟨d, hd, rfl⟩
      · exact hfront
      · have hplace := h.insertion_le hnew hd
        have hwide := (h.sound hd).wide
        show n.start < d.callee.stop.byte
        omega
    rw [Edit.startAfter, hnone]
    exact .inl hfront
  · refine .inr ?_
    rw [← h.startAfter_insertion hnew]
    rcases Nat.lt_or_eq_of_le hbehind with hlt | heq
    · calc Edit.startAfter w.edits w.insertion.byte
        _ ≤ Edit.stopAfter w.edits n.start :=
          Edit.stopAfter_eq h.applied (h.cut_insertion hnew) (h.cut_start hn) hlt hlen ▸ Nat.le_add_right _ _
        _ ≤ Edit.startAfter w.edits n.start :=
          Edit.stopAfter_le_startAfter (h.cut_start hn) fun e he =>
            ((Edit.applyAll_eq_ok h.applied).1.mem e ((Edit.inOrder_perm _).mem_iff.mpr he)).2.1
    · rw [heq]

/-- **The line that creates the logger is behind a statement exactly if the statement ends above the new lines.** -/
theorem stop_le_instanceStart_iff (h : w.Accepted) (hnew : w.isNew = true) (hn : n ∈ w.file.tree.children) :
    (w.carry n).stop ≤ w.instanceStart ↔ n.stop ≤ w.insertion.byte := by
  have hlen := h.wellFormed.length_le (ParsedFile.WellFormed.mem_child w.file.tree.mem_preorder_self hn)
  have hstart := w.insertion_le_instanceStart
  rw [carry_stop]
  constructor
  · intro hstop
    by_contra hover
    have hmoved := Edit.stopAfter_eq h.applied (h.cut_insertion hnew) (h.cut_stop hn) (Nat.not_le.mp hover) hlen
    rw [h.startAfter_insertion hnew] at hmoved
    have hinside := instance_inside hnew
    have hpos := widthOf_pos (instanceStatement_ne_empty w.family w.binding w.setup.name)
    omega
  · intro hstop
    -- nothing is edited in front of the insertion place
    have hnone : w.edits.filter (·.start < n.stop) = [] := by
      refine List.filter_eq_nil_iff.mpr fun e he => ?_
      rw [decide_eq_true_eq, Nat.not_lt]
      rcases mem_edits.mp he with ⟨-, rfl⟩ | ⟨d, hd, rfl⟩
      · exact hstop
      · exact Nat.le_trans hstop (h.insertion_le hnew hd)
    have hsame : Edit.stopAfter w.edits n.stop = n.stop := by
      rw [Edit.stopAfter, hnone]
      rfl
    omega

end Accepted

end Rework

namespace Project

/-- **Where a logger is created from an import that is there.** The statement that binds the import is in front of the
new line exactly if it belongs to the head of the file; and it is looked for everywhere. -/
theorem plan_instance_behind_import_iff (c : Conditions) (p : Project) (path : String) (world : World)
    (hchanges : ((p.plan path).run (World.answerUnder c) world).1.report.changes ≠ []) :
    let r := ((p.plan path).run (World.answerUnder c) world).1.report
    ∃ f, ParsedFile.read? path r.original = some f ∧
      let w : Rework := ⟨f, p.config.settings f.grammar.family, p.shown path⟩
      f.WellFormed → f.Regular → w.isNew = true → ∀ b, f.facts.logger.binding = some b →
        r.fixed.Shows w.instanceStart (instanceStatement w.family b w.setup.name) ∧
        ∃ front n back, f.tree.namedChildren = front ++ n :: back ∧ (f.loggersOf front).binding = none ∧
          (f.loggersOf (front ++ [n])).binding = some b ∧
          ((w.carry n).stop ≤ w.instanceStart ↔
            ∃ m following, f.headEnd? = some (m, following) ∧ n ∉ following) := by
  obtain ⟨source, hplan, -⟩ := plan_changed hchanges
  rw [hplan] at hchanges ⊢
  obtain ⟨f, after, h⟩ := planSource_changed hchanges
  refine ⟨f, by rw [planSource_original hchanges]; exact h.read, ?_⟩
  intro w hwf hregular hnew b hb
  have haccepted : w.Accepted := h.accepted hwf hregular
  have hbinding : w.binding = b := by rw [Rework.binding, hb]; rfl
  obtain ⟨front, n, back, hrow, hnone, hsome, hkind, hwide⟩ := hwf.exists_binding_statement hb
  have hn : n ∈ f.tree.namedChildren := hrow ▸ by simp
  rw [planSource_fixed hchanges h.read]
  refine ⟨hbinding ▸ haccepted.shows_instance hnew, front, n, back, hrow, hnone, hsome, ?_⟩
  rw [haccepted.stop_le_instanceStart_iff hnew (Node.mem_children_of_named hn)]
  exact hwf.stop_le_insertion_iff haccepted.positioned hn hkind hwide

/-- A backend that is imported behind the head. -/
def lateImport : ParsedFile :=
  let source := Bytes.ofText "import os\nx = 1\nimport logging as lg\nprint(1)\n"
  ⟨"a.py", source, .python, Grammar.python.tree source⟩

/-- `lg.getLogger` is put in front of `import logging as lg`. -/
theorem plan_instance_behind_import_iff_lateImport :
    let p : Project := ⟨"", Config.default⟩
    let w : Rework := ⟨lateImport, p.config.settings .python, p.shown "a.py"⟩
    let world : World := { disk := { nodes := [(["a.py"], .file lateImport.source 0o644 default)] } }
    let r := ((p.plan "a.py").run (World.answerUnder {}) world).1.report
    (r.changes ≠ [] ∧ lateImport.WellFormed ∧ lateImport.Regular ∧ w.isNew = true) ∧
      r.fixed.Shows w.instanceStart "logger = lg.getLogger(__name__)" ∧
      ∃ front n back, lateImport.tree.namedChildren = front ++ n :: back ∧
        (lateImport.loggersOf front).binding = none ∧
        (lateImport.loggersOf (front ++ [n])).binding = some ⟨.logging, "lg", .module⟩ ∧
        ¬ (w.carry n).stop ≤ w.instanceStart := by
  intro p w world r
  have hgrammar : Grammar.ofPath? "a.py" = some .python := by decide +kernel
  have hread : ParsedFile.read? "a.py" lateImport.source = some lateImport :=
    ParsedFile.read?_of_grammar hgrammar _
  obtain ⟨-, hchanges, horiginal, -⟩ : r = _ ∧ r.changes ≠ [] ∧ r.original = lateImport.source ∧ _ :=
    plan_of_smooth hgrammar (by decide +kernel) (by decide +kernel) hread (by decide +kernel)
  -- what binds stands behind the first statement, and the head ends there
  obtain ⟨⟨hwf, hregular, hnew⟩, hbinding, hstatement, hcount, hlate⟩ :
      (lateImport.WellFormed ∧ lateImport.Regular ∧ w.isNew = true) ∧
      lateImport.facts.logger.binding = some ⟨.logging, "lg", .module⟩ ∧
      instanceStatement w.family ⟨.logging, "lg", .module⟩ w.setup.name = "logger = lg.getLogger(__name__)" ∧
      lateImport.tree.namedChildren.length = 4 ∧
      ∀ i < 4, ∀ n ∈ lateImport.tree.namedChildren[i]?,
        (lateImport.loggersOf (lateImport.tree.namedChildren.take (i + 1))).binding ≠ none →
          ∀ x ∈ lateImport.headEnd?, n ∈ x.2 := by decide +kernel
  obtain ⟨f, hf, hplaced⟩ := plan_instance_behind_import_iff {} p "a.py" world hchanges
  obtain rfl := Option.some.inj (hread.symm.trans (horiginal ▸ hf))
  obtain ⟨hshows, front, n, back, hrow, hnone, hsome, hiff⟩ := hplaced hwf hregular hnew _ hbinding
  have hiff : (w.carry n).stop ≤ w.instanceStart ↔ _ := hiff
  refine ⟨⟨hchanges, hwf, hregular, hnew⟩, hstatement ▸ hshows, front, n, back, hrow, hnone, hsome, ?_⟩
  rw [hiff]
  rintro ⟨m, following, hhead, hnot⟩
  obtain ⟨hlength, hthere, htake⟩ := split_at_length hrow
  refine hnot (hlate front.length (Nat.lt_of_lt_of_eq hlength hcount) n hthere ?_ _ hhead)
  rw [htake, hsome]
  exact Option.some_ne_none _

/-- **Whether calls stand behind the logger they use.** A logger that a plan creates stands in front of all rewritten
calls. Behind a logger that is there already stand exactly the calls that were there before: a plan looks at where
calls are only if it puts lines in. -/
theorem plan_calls_behind_logger_iff (c : Conditions) (p : Project) (path : String) (world : World)
    (hchanges : ((p.plan path).run (World.answerUnder c) world).1.report.changes ≠ []) :
    let r := ((p.plan path).run (World.answerUnder c) world).1.report
    ∃ f, ParsedFile.read? path r.original = some f ∧
      let w : Rework := ⟨f, p.config.settings f.grammar.family, p.shown path⟩
      let made := instanceStatement w.family w.binding w.setup.name
      f.WellFormed → f.Regular → ∀ call ∈ w.calls,
        r.fixed.Shows (w.landing call) (w.setup.callee w.family call) ∧
        (w.isNew = true → r.fixed.Shows w.instanceStart made ∧ w.instanceStart + widthOf made ≤ w.landing call) ∧
        (w.isNew = false → ∃ front n back, f.tree.namedChildren = front ++ n :: back ∧
          ¬ (f.loggersOf front).Knows w.setup.name ∧ (f.loggersOf (front ++ [n])).Knows w.setup.name ∧
          ((w.carry n).stop ≤ w.landing call ↔ n.stop ≤ call.callee.start.byte)) := by
  obtain ⟨source, hplan, -⟩ := plan_changed hchanges
  rw [hplan] at hchanges ⊢
  obtain ⟨f, after, h⟩ := planSource_changed hchanges
  refine ⟨f, by rw [planSource_original hchanges]; exact h.read, ?_⟩
  intro w made hwf hregular call hcall
  have haccepted : w.Accepted := h.accepted hwf hregular
  rw [planSource_fixed hchanges h.read]
  refine ⟨haccepted.shows_newCallee hcall,
    fun hnew => ⟨haccepted.shows_instance hnew, haccepted.instance_le_landing hnew hcall⟩, fun hold => ?_⟩
  obtain ⟨front, n, back, hrow, hbefore, hafter⟩ := f.exists_statement (P := (·.Knows w.setup.name))
    (by simp [LoggerFacts.Knows]) (Rework.knows_name (w := w) hold)
  have hn : n ∈ f.tree.children := Node.mem_children_of_named (hrow ▸ by simp)
  exact ⟨front, n, back, hrow, hbefore, hafter, haccepted.stop_le_landing_iff hn hcall⟩

/-- A logger that is created behind a call. -/
def lateLogger : ParsedFile :=
  let source := Bytes.ofText "import pino from 'pino';\nconsole.log(1);\nconst logger = pino();\n"
  ⟨"a.js", source, .javascript, Grammar.javascript.tree source⟩

/-- `logger.info` is put in front of `const logger`. -/
theorem plan_calls_behind_logger_iff_lateLogger :
    let p : Project := ⟨"", Config.default⟩
    let w : Rework := ⟨lateLogger, p.config.settings .javascript, p.shown "a.js"⟩
    let world : World := { disk := { nodes := [(["a.js"], .file lateLogger.source 0o644 default)] } }
    let r := ((p.plan "a.js").run (World.answerUnder {}) world).1.report
    (r.changes ≠ [] ∧ lateLogger.WellFormed ∧ lateLogger.Regular ∧ w.isNew = false) ∧
      ∃ call ∈ w.calls, r.fixed.Shows (w.landing call) "logger.info" ∧
        ∃ front n back, lateLogger.tree.namedChildren = front ++ n :: back ∧
          ¬ (lateLogger.loggersOf front).Knows "logger" ∧ (lateLogger.loggersOf (front ++ [n])).Knows "logger" ∧
          ¬ (w.carry n).stop ≤ w.landing call := by
  intro p w world r
  have hgrammar : Grammar.ofPath? "a.js" = some .javascript := by decide +kernel
  have hread : ParsedFile.read? "a.js" lateLogger.source = some lateLogger :=
    ParsedFile.read?_of_grammar hgrammar _
  obtain ⟨-, hchanges, horiginal, -, hcalls⟩ :
      r = _ ∧ r.changes ≠ [] ∧ r.original = lateLogger.source ∧ _ ∧ w.calls = w.met :=
    plan_of_smooth hgrammar (by decide +kernel) (by decide +kernel) hread (by decide +kernel)
  -- only the last statement makes the logger known
  obtain ⟨⟨hwf, hregular, hold⟩, hname, ⟨call, hcall, hcallee, hearly⟩, hcount, hlate⟩ :
      (lateLogger.WellFormed ∧ lateLogger.Regular ∧ w.isNew = false) ∧ w.setup.name = "logger" ∧
      (∃ call ∈ w.met, w.setup.callee w.family call = "logger.info" ∧ call.callee.start.byte = 25) ∧
      lateLogger.tree.namedChildren.length = 3 ∧
      ∀ i < 3, ∀ n ∈ lateLogger.tree.namedChildren[i]?,
        (lateLogger.loggersOf (lateLogger.tree.namedChildren.take (i + 1))).Knows "logger" → 25 < n.stop := by
    decide +kernel
  obtain ⟨f, hf, hplaced⟩ := plan_calls_behind_logger_iff {} p "a.js" world hchanges
  obtain rfl := Option.some.inj (hread.symm.trans (horiginal ▸ hf))
  rw [← hcalls] at hcall
  obtain ⟨hshows, -, hplace⟩ := hplaced hwf hregular call hcall
  obtain ⟨front, n, back, hrow, hbefore, hafter, hiff⟩ := hplace hold
  have hbefore : ¬ (lateLogger.loggersOf front).Knows w.setup.name := hbefore
  have hafter : (lateLogger.loggersOf (front ++ [n])).Knows w.setup.name := hafter
  have hiff : (w.carry n).stop ≤ w.landing call ↔ _ := hiff
  rw [hname] at hbefore hafter
  refine ⟨⟨hchanges, hwf, hregular, hold⟩, call, hcall, hcallee ▸ hshows, front, n, back, hrow, hbefore, hafter, ?_⟩
  obtain ⟨hlength, hthere, htake⟩ := split_at_length hrow
  have hstop := hlate front.length (Nat.lt_of_lt_of_eq hlength hcount) n hthere (htake ▸ hafter)
  rw [hiff]
  omega

end Project

end LogHygiene
