import LogHygiene.Proofs.Fix.Binders
import LogHygiene.Proofs.Fix.LoggerRules
import LogHygiene.Proofs.Fix.Ordering
import LogHygiene.Proofs.Logger.Recognition

/-!
# The logger that rewritten calls use

Rewritten calls go to a logger, and reading the fixed text again should find it. The file and its fixed text are walked
side by side (`Rework.Walk`): statements that were carried tell both walks the same, so it is left to the new lines
whether the walks part.

> **The logger is found exactly if there was one, or the new lines stand as statements and their factory is known where
> they stand** (`Project.plan_logger_found_iff`).

A factory that was just imported is on the list of factories. One that is taken from an import of the file is known only
behind that import, and the new lines stand behind the head of the file, wherever the import is.
-/

set_option autoImplicit false

namespace LogHygiene

open Syntax

namespace Rework

/-! ## When a logger is found -/

/-- The statements above the new lines. -/
def front (w : Rework) : List Node := w.file.tree.namedChildren.filter (·.stop ≤ w.insertion.byte)

/-- The statements below the new lines. -/
def back (w : Rework) : List Node :=
  w.file.tree.namedChildren.filter fun n => !decide (n.stop ≤ w.insertion.byte)

/-- What is known of loggers above the new lines. -/
def above (w : Rework) : LoggerFacts :=
  w.file.loggersOf w.front

/-- There was a logger, or one is set up by statements, from a factory that is known above them. -/
def Founded (w : Rework) : Prop :=
  w.isNew = false ∨ (w.plants = true ∧ w.binding.recognized w.family w.above = true)

instance (w : Rework) : Decidable w.Founded :=
  inferInstanceAs (Decidable (w.isNew = false ∨ (w.plants = true ∧ w.binding.recognized w.family w.above = true)))

/-! ## Two walks -/

/-- The walk over a file and the walk over its fixed text, as far as loggers go. -/
structure Walk (w : Rework) (σ : Type) where
  logger : σ → LoggerFacts
  before : σ → Node → σ
  after : σ → Node → σ
  first : σ
  empty : logger first = {}
  grows : ∀ s n, (logger s).Grows (logger (before s n))
  growsAfter : ∀ s n, (logger s).Grows (logger (after s n))
  comment : ∀ {s n}, n.kind = .comment → logger (before s n) = logger s ∧ logger (after s n) = logger s
  carry : ∀ {s t n}, w.Followed n → (logger (before s n)).Grows w.file.facts.logger →
    logger s = logger t → logger (before s n) = logger (after t (w.carry n))
  newImport : w.isNew = true → w.file.facts.logger.binding = none → ∀ s, (logger s).Borrows
    (logger (after s (w.fixed.importNode w.family w.file.facts.style w.settings.backend w.blockStart)))
  newInstance : w.isNew = true → ∀ s,
    logger (after s (w.fixed.instanceNode w.family w.binding w.setup.name w.instanceStart)) =
      if w.binding.recognized w.family (logger s) then (logger s).addInstance w.setup.name else logger s

variable {w : Rework} {σ : Type}

/-- The rules of JavaScript and TypeScript. -/
def Accepted.walkJavaScript (h : w.Accepted) (hl : w.Legible) (hjs : w.family = .javascript) :
    Walk w Facts.JavaScript.Scope where
  logger := Facts.JavaScript.Scope.logger
  before := Facts.JavaScript.visit w.file.source
  after := Facts.JavaScript.visit w.fixed
  first := {}
  empty := rfl
  grows := Facts.JavaScript.visit_grows
  growsAfter := Facts.JavaScript.visit_grows
  comment := fun hkind => ⟨Facts.JavaScript.visit_comment hkind, Facts.JavaScript.visit_comment hkind⟩
  carry := fun hn hgrows hst => hn.visit_javascript h hl hjs hgrows hst
  newImport := fun hnew hbinding s => by
    have hshows := h.shows_import hnew hbinding
    rw [hjs] at hshows ⊢
    exact Facts.JavaScript.visit_importNode hshows s
  newInstance := fun hnew s => by
    have hshows := h.shows_instance hnew
    rw [hjs] at hshows ⊢
    exact Facts.JavaScript.visit_instanceNode hshows s

/-- The rules of Python. -/
def Accepted.walkPython (h : w.Accepted) (hl : w.Legible) (hpy : w.family = .python) :
    Walk w Facts.Python.Scope where
  logger := Facts.Python.Scope.logger
  before := Facts.Python.visit w.file.source
  after := Facts.Python.visit w.fixed
  first := {}
  empty := rfl
  grows := Facts.Python.visit_grows
  growsAfter := Facts.Python.visit_grows
  comment := fun hkind => ⟨Facts.Python.visit_comment hkind, Facts.Python.visit_comment hkind⟩
  carry := fun hn hgrows hst => hn.visit_python h hl hpy hgrows hst
  newImport := fun hnew hbinding s => by
    rw [hpy]
    exact Facts.Python.visit_importNode s
  newInstance := fun hnew s => by
    have hshows := h.shows_instance hnew
    rw [hpy] at hshows ⊢
    exact Facts.Python.visit_instanceNode hshows s

namespace Walk

variable {k : Walk w σ} {s t : σ} {ts : List Node}

theorem foldl_grows (k : Walk w σ) (ts : List Node) (s : σ) :
    (k.logger s).Grows (k.logger (ts.foldl k.before s)) :=
  Facts.foldl_related (R := fun s t => (k.logger s).Grows (k.logger t)) (fun s => .refl (k.logger s))
    LoggerFacts.Grows.trans k.grows ts s

theorem foldl_growsAfter (k : Walk w σ) (ts : List Node) (s : σ) :
    (k.logger s).Grows (k.logger (ts.foldl k.after s)) :=
  Facts.foldl_related (R := fun s t => (k.logger s).Grows (k.logger t)) (fun s => .refl (k.logger s))
    LoggerFacts.Grows.trans k.growsAfter ts s

/-- **Statements that are carried make the walks agree again.** -/
theorem foldl_carry (h : w.Accepted) (hts : ∀ t ∈ ts, t ∈ w.file.tree.children)
    (hgrows : (k.logger (ts.foldl k.before s)).Grows w.file.facts.logger) (hst : k.logger s = k.logger t) :
    k.logger (ts.foldl k.before s) = k.logger ((ts.map w.carry).foldl k.after t) := by
  refine Facts.foldl_alike (R := fun s t => k.logger s = k.logger t)
    (P := fun s => (k.logger s).Grows w.file.facts.logger) (fun s n h => (k.grows s n).trans h) ts s t
    (fun n hn s t hgrows hst => ?_) hgrows hst
  by_cases hcomment : n.kind = .comment
  · rw [(k.comment hcomment).1, (k.comment (by rw [carry_kind]; exact hcomment)).2]
    exact hst
  · exact k.carry (.top h (hts n hn) hcomment) hgrows hst

end Walk

/-! ## The statements of the two walks -/

theorem filter_named_carry (cs : List Node) :
    (cs.map w.carry).filter (·.kind.isNamed) = (cs.filter (·.kind.isNamed)).map w.carry := by
  rw [List.filter_map]
  congr 2
  funext n
  exact congrArg Kind.isNamed (carry_kind n)

theorem front_append_back (h : w.Accepted) : w.front ++ w.back = w.file.tree.namedChildren := by
  refine Edit.filter_append_filter_not ?_
  have horderly := h.wellFormed.nested _ w.file.tree.mem_preorder_self
  refine List.Pairwise.filter _ (horderly.apart.imp_of_mem ?_)
  intro a b ha hb hab hstop
  have hforward := h.wellFormed.forward (ParsedFile.WellFormed.mem_child w.file.tree.mem_preorder_self hb)
  simp only [decide_eq_true_eq] at hstop ⊢
  omega

theorem named_of_not_plants (hplants : w.plants = false) :
    w.children.filter (·.kind.isNamed) = w.file.tree.namedChildren.map w.carry := by
  rw [children, hplants]
  exact filter_named_carry _

theorem named_of_plants (hplants : w.plants = true) : w.children.filter (·.kind.isNamed) =
    w.front.map w.carry ++ w.newNodes ++ w.back.map w.carry := by
  have hnew : w.newNodes.filter (·.kind.isNamed) = w.newNodes := by
    refine List.filter_eq_self.mpr fun n hn => ?_
    rcases List.mem_append.mp hn with himport | hinstance
    · split at himport
      · exact absurd himport (by simp)
      · rw [List.mem_singleton.mp himport]
        cases w.family with
        | python => rfl
        | javascript => cases w.file.facts.style <;> rfl
    · rw [List.mem_singleton.mp hinstance]
      cases w.family <;> rfl
  rw [children, hplants]
  simp only [if_true, List.filter_append, hnew, filter_named_carry, front, back, Node.namedChildren]
  rw [List.filter_comm (fun n : Node => n.kind.isNamed), List.filter_comm (fun n : Node => n.kind.isNamed)]

theorem newNodes_of_fresh (hbinding : w.file.facts.logger.binding = none) :
    w.newNodes = [w.fixed.importNode w.family w.file.facts.style w.settings.backend w.blockStart,
      w.fixed.instanceNode w.family w.binding w.setup.name w.instanceStart] := by
  rw [newNodes, hbinding]
  rfl

theorem newNodes_of_known {b : Binding} (hbinding : w.file.facts.logger.binding = some b) :
    w.newNodes = [w.fixed.instanceNode w.family w.binding w.setup.name w.instanceStart] := by
  rw [newNodes, hbinding]
  rfl

/-- The factory of an import that is put in is on the list. -/
theorem recognized_of_fresh (hbackend : w.settings.backend.family = w.family)
    (hbinding : w.file.facts.logger.binding = none) (l : LoggerFacts) :
    w.binding.recognized w.family l = true := by
  have hfresh : w.binding = .fresh w.settings.backend := by rw [binding, hbinding]; rfl
  rw [hfresh]
  exact Binding.fresh_recognized hbackend l

/-! ## The rule -/

namespace Walk

variable {k : Walk w σ}

theorem instantiated_newInstance {s : σ} (hnew : w.isNew = true) (hmade : (k.logger s).instantiated = [])
    (hrecognized : w.binding.recognized w.family (k.logger s) = true) :
    (k.logger (k.after s (w.fixed.instanceNode w.family w.binding w.setup.name w.instanceStart))).instantiated =
      [w.setup.name] := by
  have hinstance := k.newInstance hnew s
  rw [if_pos hrecognized] at hinstance
  rw [hinstance, LoggerFacts.addInstance]
  show LoggerFacts.insertNew (k.logger s).instantiated w.setup.name = _
  rw [hmade]
  rfl

/-- **New statements create the logger, if their factory is known there.** An import that is put in brings no logger of
its own. -/
theorem instantiated_newNodes {s : σ} (hbackend : w.settings.backend.family = w.family) (hnew : w.isNew = true)
    (hmade : (k.logger s).instantiated = []) (hrecognized : w.binding.recognized w.family (k.logger s) = true) :
    (k.logger (w.newNodes.foldl k.after s)).instantiated = [w.setup.name] := by
  cases hbinding : w.file.facts.logger.binding with
  | none =>
    rw [newNodes_of_fresh hbinding]
    have hempty := (k.newImport hnew hbinding s).instantiated.trans hmade
    exact instantiated_newInstance hnew hempty (recognized_of_fresh hbackend hbinding _)
  | some b =>
    rw [newNodes_of_known hbinding]
    exact instantiated_newInstance hnew hmade hrecognized

/-- **Else they say nothing.** -/
theorem logger_newNodes {s : σ} (hbackend : w.settings.backend.family = w.family) (hnew : w.isNew = true)
    (hunknown : w.binding.recognized w.family (k.logger s) = false) :
    k.logger (w.newNodes.foldl k.after s) = k.logger s := by
  cases hbinding : w.file.facts.logger.binding with
  | none =>
    rw [recognized_of_fresh hbackend hbinding] at hunknown
    exact absurd hunknown (by decide)
  | some b =>
    have hinstance := k.newInstance hnew s
    rw [hunknown] at hinstance
    rw [newNodes_of_known hbinding]
    exact hinstance

/-- Without new statements the fixed text tells what the file told. -/
theorem preferred?_of_not_plants (h : w.Accepted) (hplants : w.plants = false)
    (hfacts : w.file.facts.logger = k.logger (w.file.tree.namedChildren.foldl k.before k.first)) :
    (k.logger ((w.children.filter (·.kind.isNamed)).foldl k.after k.first)).preferred? =
      w.file.facts.logger.preferred? := by
  have hgrows := LoggerFacts.Grows.refl w.file.facts.logger
  rw [named_of_not_plants hplants,
    ← k.foldl_carry h (fun _ ht => Node.mem_children_of_named ht) (by rw [← hfacts]; exact hgrows) rfl, hfacts]

/-- With new statements, what is known above them decides. -/
theorem preferred?_of_plants (h : w.Accepted) (hbackend : w.settings.backend.family = w.family)
    (hfacts : w.file.facts.logger = k.logger (w.file.tree.namedChildren.foldl k.before k.first))
    (habove : w.above = k.logger (w.front.foldl k.before k.first)) (hplants : w.plants = true) :
    (k.logger ((w.children.filter (·.kind.isNamed)).foldl k.after k.first)).preferred? =
      if w.binding.recognized w.family w.above then some w.setup.name else none := by
  have hnew := isNew_of_plants hplants
  have hnone : w.file.facts.logger.preferred? = none := Option.isNone_iff_eq_none.mp hnew
  have htop : ∀ t ∈ w.file.tree.namedChildren, t ∈ w.file.tree.children :=
    fun _ ht => Node.mem_children_of_named ht
  have hgrows : w.above.Grows w.file.facts.logger := by
    rw [hfacts, habove, ← front_append_back h, List.foldl_append]
    exact k.foldl_grows _ _
  have hfront : k.logger ((w.front.map w.carry).foldl k.after k.first) = w.above := by
    rw [habove] at hgrows ⊢
    exact (k.foldl_carry h (fun t ht => htop t (List.mem_of_mem_filter ht)) hgrows rfl).symm
  obtain ⟨hmade, -⟩ := LoggerFacts.preferred?_eq_none.mp (hgrows.preferred?_eq_none hnone)
  rw [named_of_plants hplants, List.append_assoc, List.foldl_append, List.foldl_append]
  generalize (w.front.map w.carry).foldl k.after k.first = s at hfront ⊢
  rw [← hfront] at hmade ⊢
  cases hrecognized : w.binding.recognized w.family (k.logger s) with
  | true =>
    exact (k.foldl_growsAfter _ _).preferred?_of_instantiated
      (instantiated_newNodes hbackend hnew hmade hrecognized)
  | false =>
    -- the walk goes on as if the new lines were not there, and ends where it ended before
    have hsilent := logger_newNodes hbackend hnew hrecognized
    have hback : k.logger (w.back.foldl k.before (w.front.foldl k.before k.first)) = w.file.facts.logger := by
      rw [hfacts, ← front_append_back h, List.foldl_append]
    have htopBack : ∀ t ∈ w.back, t ∈ w.file.tree.children :=
      fun t ht => htop t (List.mem_of_mem_filter ht)
    have hend := k.foldl_carry h htopBack (by rw [hback]; exact .refl _)
      (habove.symm.trans (hfront.symm.trans hsilent.symm))
    rw [hback] at hend
    rw [← hend, hnone]
    rfl

/-- **The logger that is found in the fixed text.** -/
theorem preferred?_eq (k : Walk w σ) (h : w.Accepted) (hbackend : w.settings.backend.family = w.family)
    (hfacts : w.file.facts.logger = k.logger (w.file.tree.namedChildren.foldl k.before k.first))
    (habove : w.above = k.logger (w.front.foldl k.before k.first)) :
    (k.logger ((w.children.filter (·.kind.isNamed)).foldl k.after k.first)).preferred? =
      if w.Founded then some w.setup.name else none := by
  cases hplants : w.plants with
  | true =>
    have hnew := isNew_of_plants hplants
    rw [preferred?_of_plants h hbackend hfacts habove hplants]
    exact if_congr (by simp [Founded, hnew, hplants]) rfl rfl
  | false =>
    rw [preferred?_of_not_plants h hplants hfacts]
    cases hnew : w.isNew with
    | false =>
      obtain ⟨name, hname⟩ := Option.isSome_iff_exists.mp
        (show w.file.facts.logger.preferred?.isSome = true by simpa [isNew] using hnew)
      rw [if_pos (.inl hnew), hname, setup, LoggerSetup.choose_of_some hname]
    | true => rw [if_neg (by simp [Founded, hnew, hplants]), Option.isNone_iff_eq_none.mp hnew]

end Walk

/-- **What reading the fixed text again finds.** -/
theorem Reread.preferred?_eq {after : ParsedFile} (hr : w.Reread after) (h : w.Accepted) (hl : w.Legible)
    (hbackend : w.settings.backend.family = w.family) :
    after.facts.logger.preferred? = if w.Founded then some w.setup.name else none := by
  have hnamed : after.tree.namedChildren = w.children.filter (·.kind.isNamed) := by
    rw [Node.namedChildren, hr.children]
  have hfacts := w.file.facts_logger
  have habove : w.above = w.file.loggersOf w.front := rfl
  rw [after.facts_logger, ParsedFile.loggersOf, hr.grammar, hr.source, hnamed]
  rw [ParsedFile.loggersOf] at hfacts habove
  cases hfamily : w.family with
  | javascript =>
    rw [show w.file.grammar.family = .javascript from hfamily] at hfacts habove ⊢
    exact (h.walkJavaScript hl hfamily).preferred?_eq h hbackend hfacts habove
  | python =>
    rw [show w.file.grammar.family = .python from hfamily] at hfacts habove ⊢
    exact (h.walkPython hl hfamily).preferred?_eq h hbackend hfacts habove

/-- **New statements are found where they were put exactly if nothing reaches over their place.** -/
theorem Reread.newNodes_found_iff {after : ParsedFile} (hr : w.Reread after) (h : w.Accepted)
    (hnew : w.isNew = true) : (∀ n ∈ w.newNodes, n ∈ after.tree.namedChildren) ↔
      ∀ n ∈ w.file.tree.children, w.reachesOver n = false := by
  have hplants : w.plants = true ↔ ∀ n ∈ w.file.tree.children, w.reachesOver n = false := by
    rw [plants, hnew, Bool.true_and, Bool.not_eq_true', List.any_eq_false]
    exact forall₂_congr fun n _ => iff_of_eq (Bool.not_eq_true _)
  have hnamed : after.tree.namedChildren = w.children.filter (·.kind.isNamed) := by
    rw [Node.namedChildren, hr.children]
  rw [← hplants, hnamed]
  constructor
  · intro hall
    by_contra hnot
    have hinstance := hall (w.fixed.instanceNode w.family w.binding w.setup.name w.instanceStart)
      (List.mem_append_right _ (List.mem_singleton_self _))
    rw [named_of_not_plants (Bool.eq_false_iff.mpr hnot)] at hinstance
    obtain ⟨t, ht, hcarry⟩ := List.mem_map.mp hinstance
    -- what was there before starts elsewhere
    have hstart : (w.carry t).start = w.instanceStart := by
      rw [hcarry]
      cases w.family <;> rfl
    have hinside := Accepted.instance_inside (w := w) hnew
    have hwide := widthOf_pos (instanceStatement_ne_empty w.family w.binding w.setup.name)
    have hbehind := w.insertion_le_instanceStart
    have houtside := h.carry_start_outside hnew (Node.mem_children_of_named ht)
    omega
  · intro hplants n hn
    rw [named_of_plants hplants]
    exact List.mem_append_left _ (List.mem_append_right _ hn)

end Rework

namespace Project

/-- **When the logger that calls use is found in the fixed text.** If reading the fixed text gives the tree that the
rewrite left, there is a logger exactly if there was one before, or the new lines stand as statements and say something
there: their factory is on the list, or belongs to the import that is known above them. A new factory always is on the
list; that of an import that is there already need not be known above. The new lines stand as statements exactly if
nothing reaches over their place, as a comment may. -/
theorem plan_logger_found_iff (c : Conditions) (p : Project) (path : String) (world : World)
    (hvalid : p.config.check = .ok ())
    (hchanges : ((p.plan path).run (World.answerUnder c) world).1.report.changes ≠ []) :
    let r := ((p.plan path).run (World.answerUnder c) world).1.report
    ∃ f after, ParsedFile.read? path r.original = some f ∧ ParsedFile.read? path r.fixed = some after ∧
      let w : Rework := ⟨f, p.config.settings f.grammar.family, p.shown path⟩
      let found := after.facts.logger
      (∀ change ∈ r.changes, change.kind = .callRewrite →
        ∃ level : Level, change.new = w.setup.name ++ "." ++ level.method w.family) ∧
      (f.WellFormed → f.Regular → w.Legible → w.Reread after →
        (found.hasInstance = true ↔ w.Founded) ∧ (found.preferred? = some w.setup.name ↔ w.Founded) ∧
        (w.isNew = true → ((∀ n ∈ w.newNodes, n ∈ after.tree.namedChildren) ↔
          ∀ n ∈ f.tree.children, w.reachesOver n = false))) := by
  obtain ⟨source, hplan, -⟩ := plan_changed hchanges
  rw [hplan] at hchanges ⊢
  obtain ⟨f, after, h⟩ := planSource_changed hchanges
  refine ⟨f, after, by rw [planSource_original hchanges]; exact h.read, h.reread, ?_⟩
  intro w found
  have hbackend : w.settings.backend.family = w.family :=
    FamilySettings.backend_of_check (Config.check_settings hvalid f.grammar.family)
  refine ⟨fun change hchange hkind => ?_, fun hwf hregular hlegible hreread => ?_⟩
  · obtain ⟨-, -, at_, rfl⟩ | ⟨-, at_, rfl⟩ | ⟨call, -, rfl⟩ :=
      Rework.change_cases (w := w) ((planSource_changes hchanges h.read).mem_iff.mp hchange)
    · exact absurd hkind (show ChangeKind.importAdded ≠ .callRewrite by decide)
    · exact absurd hkind (show ChangeKind.loggerAdded ≠ .callRewrite by decide)
    · exact ⟨call.level, rfl⟩
  · have haccepted : w.Accepted := h.accepted hwf hregular
    have hfound : found.preferred? = if w.Founded then some w.setup.name else none :=
      hreread.preferred?_eq haccepted hlegible hbackend
    refine ⟨?_, ?_, hreread.newNodes_found_iff haccepted⟩
    · rw [← after.counted_facts.isSome_preferred?, hfound]
      by_cases hfounded : w.Founded <;> simp [hfounded]
    · rw [hfound]
      by_cases hfounded : w.Founded <;> simp [hfounded]

/-- The new line is a statement, and takes its logger from a name that is bound further down. -/
theorem plan_logger_found_iff_lateImport :
    let p : Project := ⟨"", Config.default⟩
    let w : Rework := ⟨lateImport, p.config.settings .python, p.shown "a.py"⟩
    let world : World := { disk := { nodes := [(["a.py"], .file lateImport.source 0o644 default)] } }
    let r := ((p.plan "a.py").run (World.answerUnder {}) world).1.report
    let after : ParsedFile := ⟨"a.py", w.fixed, .python, Grammar.python.tree w.fixed⟩
    (p.config.check = .ok () ∧ r.changes ≠ [] ∧ r.fixed = w.fixed ∧ lateImport.WellFormed ∧ lateImport.Regular ∧
        w.Legible ∧ w.Reread after) ∧
      (∀ n ∈ w.newNodes, n ∈ after.tree.namedChildren) ∧ after.facts.logger.hasInstance = false := by
  intro p w world r after
  have hvalid : p.config.check = .ok () := by decide +kernel
  have hgrammar : Grammar.ofPath? "a.py" = some .python := by decide +kernel
  have hread : ∀ text, ParsedFile.read? "a.py" text = some ⟨"a.py", text, .python, Grammar.python.tree text⟩ :=
    ParsedFile.read?_of_grammar hgrammar
  have hsmooth : p.IsSmooth "a.py" lateImport := by decide +kernel
  obtain ⟨-, hchanges, horiginal, hfixed, -⟩ :
      r = _ ∧ r.changes ≠ [] ∧ r.original = lateImport.source ∧ r.fixed = w.fixed ∧ _ :=
    plan_of_smooth hgrammar (by decide +kernel) (by decide +kernel) (hread _) hsmooth
  have htext : w.fixed = Edit.splice lateImport.source 0
      (w.setup.edits w.insertion ++ w.met.map (w.setup.callEdit w.family)) := fixed_of_smooth (hread _) hsmooth
  obtain ⟨hwf, hregular, hnew, hunknown, hstand⟩ : lateImport.WellFormed ∧ lateImport.Regular ∧ w.isNew = true ∧
      w.binding.recognized w.family w.above = false ∧ ∀ n ∈ lateImport.tree.children, w.reachesOver n = false := by
    decide +kernel
  have hlegible : w.Legible := by
    refine ⟨by decide +kernel, by decide +kernel, by decide +kernel, by decide +kernel, by decide +kernel,
      by decide +kernel, by decide +kernel, ?_⟩
    rw [htext]
    decide +kernel
  have hchildren : (Grammar.python.tree w.fixed).children = w.children := by
    -- the walk over the tree is opened, since the text in it has to be worked out first
    delta Rework.children Rework.carry Rework.carry._f Rework.carryAll._f Rework.newNodes Rework.span
      Rework.newCallee
    rw [htext]
    decide +kernel
  have hroot : (Grammar.python.tree w.fixed).kind = .file := by
    rw [htext]
    decide +kernel
  have hreread : w.Reread after := ⟨rfl, rfl, hroot, hchildren⟩
  obtain ⟨f, after', hf, hafter, -, hexact⟩ := plan_logger_found_iff {} p "a.py" world hvalid hchanges
  obtain rfl := Option.some.inj ((hread _).symm.trans (horiginal ▸ hf))
  obtain rfl := Option.some.inj ((hread _).symm.trans (hfixed ▸ hafter))
  obtain ⟨hfound, -, hplanted⟩ := hexact hwf hregular hlegible hreread
  refine ⟨⟨hvalid, hchanges, hfixed, hwf, hregular, hlegible, hreread⟩, (hplanted hnew).mpr hstand, ?_⟩
  refine Bool.eq_false_iff.mpr (mt hfound.mp ?_)
  rintro (hold | ⟨-, hrecognized⟩)
  · exact absurd (hold.symm.trans hnew) (by decide)
  · exact absurd (hrecognized.symm.trans hunknown) (by decide)

end Project

end LogHygiene
