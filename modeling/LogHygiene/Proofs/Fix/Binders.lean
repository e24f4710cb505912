import LogHygiene.Proofs.Fix.Changed
import LogHygiene.Proofs.Logger.Naming

/-!
# What inserted lines bind

A fix may put two lines into a file. One imports a package, under the name of the package; the other creates a logger,
under a name that was searched for. `Change.bound?` reads the name off the line.

The search keeps the logger apart from all that the file declares, whatever the settings are. It knows nothing of the
import, and for the import no name is searched:

> **inserted lines bind new and different names exactly if nothing in the file is called like the package, and the
> logger was not to be called so either** (`Project.plan_binds_fresh_iff`).

A duplicate binding is no fault of the grammar, so reading the fixed text again does not find it.
-/

set_option autoImplicit false

namespace LogHygiene

open Syntax

/-! ## Reading names off lines -/

/-- A text up to its first blank. -/
def firstWord (text : String) : String := String.ofList (text.toList.takeWhile (· != ' '))

/-- What is behind the first blank of a text, up to the next one. -/
def secondWord (text : String) : String :=
  String.ofList (((text.toList.dropWhile (· != ' ')).drop 1).takeWhile (· != ' '))

/-- The name that the line of a change binds. -/
def Change.bound? (family : Family) (c : Change) : Option String :=
  match c.kind, family with
  | .callRewrite, _ => none
  | .loggerAdded, .python => some (firstWord c.new)
  | _, _ => some (secondWord c.new)

theorem takeWhile_blank {name rest : List Char} (h : ' ' ∉ name) :
    (name ++ ' ' :: rest).takeWhile (· != ' ') = name := by
  have hname : ∀ c ∈ name, (c != ' ') = true := fun c hc => bne_iff_ne.mpr fun heq => h (heq ▸ hc)
  rw [List.takeWhile_append_of_pos hname, List.takeWhile_cons_of_neg (by decide), List.append_nil]

theorem secondWord_importStatement (family : Family) (style : ModuleStyle) (backend : Backend) :
    secondWord (importStatement family style backend) = backend.module := by
  cases family <;> cases style <;> cases backend <;> decide

theorem bound?_instance {family : Family} {b : Binding} {name : String} {line column : Nat} (h : ' ' ∉ name.toList) :
    Change.bound? family ⟨line, column, "", instanceStatement family b name, .loggerAdded⟩ = some name := by
  cases family with
  | javascript =>
    have hlist : (instanceStatement .javascript b name).toList = "const".toList ++ ' ' ::
        (name.toList ++ ' ' :: ("= ".toList ++ (b.factory .javascript).toList ++ "();".toList)) := by
      simp only [instanceStatement, String.toList_append, List.append_assoc]
      rfl
    have hword : secondWord (instanceStatement .javascript b name) = name := by
      rw [secondWord, hlist]
      show String.ofList ((name.toList ++ _).takeWhile _) = name
      rw [takeWhile_blank h, String.ofList_toList]
    exact congrArg some hword
  | python =>
    have hlist : (instanceStatement .python b name).toList =
        name.toList ++ ' ' :: ("= ".toList ++ (b.factory .python).toList ++ "(__name__)".toList) := by
      simp only [instanceStatement, String.toList_append, List.append_assoc]
      rfl
    have hword : firstWord (instanceStatement .python b name) = name := by
      rw [firstWord, hlist, takeWhile_blank h, String.ofList_toList]
    exact congrArg some hword

/-! ## The lines of a rewrite -/

namespace Rework

variable {w : Rework}

/-- The names that the inserted lines of a rewrite bind. -/
def binds (w : Rework) : List String :=
  if w.isNew then
    (if w.file.facts.logger.binding.isNone then [w.settings.backend.module] else []) ++ [w.setup.name]
  else []

theorem setup_name_of_new (hnew : w.isNew = true) :
    w.setup.name = newLoggerName w.family w.settings w.file.facts.declared w.shown := by
  have hnone : w.file.facts.logger.preferred? = none := Option.isNone_iff_eq_none.mp hnew
  unfold setup LoggerSetup.choose
  rw [hnone]
  cases w.file.facts.logger.binding <;> rfl

theorem blank_not_mem_name (hvalid : w.settings.check w.family = .ok ()) (hnew : w.isNew = true) :
    ' ' ∉ w.setup.name.toList := by
  rw [setup_name_of_new hnew]
  exact blank_not_mem_newLoggerName hvalid _ _

/-- **The lines bind what they say.** -/
theorem filterMap_bound?_changesFrom (hvalid : w.settings.check w.family = .ok ()) (line : Nat) :
    (LoggerSetup.changesFrom line w.setup.lines).filterMap (Change.bound? w.family) = w.binds := by
  unfold binds
  cases hnew : w.isNew with
  | false =>
    rw [setup_of_old hnew]
    rfl
  | true =>
    have hinstance : ∀ line b, Change.bound? w.family
        ⟨line, 1, "", instanceStatement w.family b w.setup.name, .loggerAdded⟩ = some w.setup.name :=
      fun _ _ => bound?_instance (blank_not_mem_name hvalid hnew)
    have himport : ∀ line, Change.bound? w.family
        ⟨line, 1, "", importStatement w.family w.file.facts.style w.settings.backend, .importAdded⟩ =
          some w.settings.backend.module := by
      intro line
      rw [← secondWord_importStatement w.family w.file.facts.style w.settings.backend]
      cases w.family <;> rfl
    rw [Accepted.setup_of_new hnew]
    cases hbinding : w.file.facts.logger.binding with
    | some b => simp [LoggerSetup.changesFrom, hinstance]
    | none => simp [LoggerSetup.changesFrom, hinstance, himport]

theorem filterMap_bound?_calls (calls : List CallSite) :
    (calls.map (w.setup.callChange w.family w.insertion)).filterMap (Change.bound? w.family) = [] := by
  rw [List.filterMap_map]
  refine List.filterMap_eq_nil_iff.mpr fun c _ => ?_
  cases w.family <;> rfl

/-- **What a rewrite reports**: an import, the line of the logger, or a call. -/
theorem change_cases {line : Nat} {change : Change} (h : change ∈ LoggerSetup.changesFrom line w.setup.lines ++
    w.calls.map (w.setup.callChange w.family w.insertion)) :
    (w.isNew = true ∧ w.file.facts.logger.binding = none ∧ ∃ at_, change =
      ⟨at_, 1, "", importStatement w.family w.file.facts.style w.settings.backend, .importAdded⟩) ∨
    (w.isNew = true ∧ ∃ at_, change = ⟨at_, 1, "", instanceStatement w.family w.binding w.setup.name, .loggerAdded⟩) ∨
    ∃ call ∈ w.calls, change = w.setup.callChange w.family w.insertion call := by
  rcases List.mem_append.mp h with hline | hcall
  · cases hnew : w.isNew with
    | false =>
      rw [setup_of_old hnew] at hline
      exact absurd hline (by simp [LoggerSetup.changesFrom])
    | true =>
      rw [Accepted.setup_of_new hnew] at hline
      cases hbinding : w.file.facts.logger.binding with
      | some b =>
        rw [hbinding] at hline
        exact .inr (.inl ⟨rfl, line, List.mem_singleton.mp hline⟩)
      | none =>
        rw [hbinding] at hline
        rcases List.mem_cons.mp hline with himport | hline
        · exact .inl ⟨rfl, rfl, line, himport⟩
        · exact .inr (.inl ⟨rfl, line + 1, List.mem_singleton.mp hline⟩)
  · obtain ⟨call, hmem, rfl⟩ := List.mem_map.mp hcall
    exact .inr (.inr ⟨call, hmem, rfl⟩)

/-- An import is reported exactly if lines are put in and none of the imports there are will do. -/
theorem importAdded_iff (line : Nat) :
    (∃ change ∈ LoggerSetup.changesFrom line w.setup.lines ++ w.calls.map (w.setup.callChange w.family w.insertion),
      change.kind = .importAdded) ↔ w.isNew = true ∧ w.file.facts.logger.binding = none := by
  constructor
  · rintro ⟨change, hchange, hkind⟩
    obtain ⟨hnew, hbinding, -⟩ | ⟨-, at_, rfl⟩ | ⟨call, -, rfl⟩ := change_cases hchange
    · exact ⟨hnew, hbinding⟩
    · exact absurd hkind (show ChangeKind.loggerAdded ≠ .importAdded by decide)
    · exact absurd hkind (by simp [LoggerSetup.callChange])
  · rintro ⟨hnew, hbinding⟩
    rw [Accepted.setup_of_new hnew, hbinding]
    exact ⟨_, List.mem_cons_self, rfl⟩

/-- The line of the logger binds its name, which is free. -/
theorem loggerAdded_free (hvalid : w.settings.check w.family = .ok ()) {line : Nat} {change : Change}
    (hchange : change ∈ LoggerSetup.changesFrom line w.setup.lines ++
      w.calls.map (w.setup.callChange w.family w.insertion)) (hkind : change.kind = .loggerAdded) :
    ∃ name, change.bound? w.family = some name ∧ name ∉ w.file.facts.declared := by
  obtain ⟨-, -, at_, rfl⟩ | ⟨hnew, at_, rfl⟩ | ⟨call, -, rfl⟩ := change_cases hchange
  · exact absurd hkind (show ChangeKind.importAdded ≠ .loggerAdded by decide)
  · refine ⟨w.setup.name, bound?_instance (blank_not_mem_name hvalid hnew), ?_⟩
    rw [setup_name_of_new hnew]
    exact Naming.free_not_mem _ _
  · exact absurd hkind (by simp [LoggerSetup.callChange])

/-- **When all names are new and different.** Of the logger this is always so, but for the import. -/
theorem binds_fresh_iff :
    (w.binds.Nodup ∧ ∀ n ∈ w.binds, n ∉ w.file.facts.declared) ↔
      (w.isNew = true ∧ w.file.facts.logger.binding = none → w.settings.backend.module ∉ w.file.facts.declared ∧
        Naming.base w.family w.settings w.shown ≠ w.settings.backend.module) := by
  unfold binds
  cases hnew : w.isNew with
  | false => simp
  | true =>
    have hname := setup_name_of_new hnew
    have hfree : w.setup.name ∉ w.file.facts.declared := by
      rw [hname]
      exact Naming.free_not_mem _ _
    cases hbinding : w.file.facts.logger.binding with
    | some b => simp [hfree]
    | none =>
      have hmodule := @Naming.free_eq_module_iff w.file.facts.declared
        (Naming.base w.family w.settings w.shown) w.settings.backend
      rw [← newLoggerName, ← hname] at hmodule
      simp only [Option.isNone_none, if_true, List.singleton_append, List.nodup_cons, List.mem_singleton,
        List.not_mem_nil, not_false_eq_true, List.nodup_nil, and_true, List.forall_mem_cons, forall_eq, true_implies]
      -- a numbered name is never the package's, so only the base name matters
      constructor
      · rintro ⟨hne, hnot, -⟩
        exact ⟨hnot, fun hbase => hne (hmodule.mpr ⟨hbase ▸ hnot, hbase⟩).symm⟩
      · rintro ⟨hnot, hbase⟩
        exact ⟨fun heq => hbase (hmodule.mp heq.symm).2, hnot, hfree⟩

end Rework

namespace Project

/-- **What a fix binds is new, exactly if the package is not in the way.** The name of the logger is never declared in
the file. -/
theorem plan_binds_fresh_iff (c : Conditions) (p : Project) (path : String) (world : World)
    (hvalid : p.config.check = .ok ())
    (hchanges : ((p.plan path).run (World.answerUnder c) world).1.report.changes ≠ []) :
    let r := ((p.plan path).run (World.answerUnder c) world).1.report
    ∃ f, ParsedFile.read? path r.original = some f ∧
      let family := f.grammar.family
      let s := p.config.settings family
      let bound := r.changes.filterMap (Change.bound? family)
      ((bound.Nodup ∧ ∀ name ∈ bound, name ∉ f.facts.declared) ↔
        ((∃ change ∈ r.changes, change.kind = .importAdded) → s.backend.module ∉ f.facts.declared ∧
          Naming.base family s (p.shown path) ≠ s.backend.module)) ∧
      ∀ change ∈ r.changes, change.kind = .loggerAdded →
        ∃ name, change.bound? family = some name ∧ name ∉ f.facts.declared := by
  obtain ⟨source, hplan, -⟩ := plan_changed hchanges
  rw [hplan] at hchanges ⊢
  obtain ⟨f, after, h⟩ := planSource_changed hchanges
  refine ⟨f, by rw [planSource_original hchanges]; exact h.read, ?_⟩
  let w : Rework := ⟨f, p.config.settings f.grammar.family, p.shown path⟩
  have hcheck : w.settings.check w.family = .ok () := Config.check_settings hvalid f.grammar.family
  have hperm : (p.planSource path source).report.changes.Perm
      (LoggerSetup.changesFrom w.insertion.line w.setup.lines ++
        w.calls.map (w.setup.callChange w.family w.insertion)) := planSource_changes hchanges h.read
  have hbound : ((p.planSource path source).report.changes.filterMap (Change.bound? w.family)).Perm w.binds := by
    refine (hperm.filterMap _).trans (.of_eq ?_)
    rw [List.filterMap_append, Rework.filterMap_bound?_changesFrom hcheck, Rework.filterMap_bound?_calls,
      List.append_nil]
  -- reports are sorted, which changes neither what is bound nor whether there is an import
  have himport := @Rework.importAdded_iff w w.insertion.line
  simp only [← hperm.mem_iff] at himport
  refine ⟨?_, fun change hchange => Rework.loggerAdded_free hcheck (hperm.mem_iff.mp hchange)⟩
  rw [himport]
  exact (and_congr hbound.nodup_iff (forall_congr' fun _ => imp_congr_left hbound.mem_iff)).trans w.binds_fresh_iff

/-- A file that has a use of its own for the name of the package. -/
def shadowedPackage : ParsedFile :=
  let source := Bytes.ofText "const pino = 1;\nconsole.log(pino);\n"
  ⟨"a.js", source, .javascript, Grammar.javascript.tree source⟩

/-- `import pino` is put in front of `const pino`. -/
theorem plan_binds_fresh_iff_shadowedPackage :
    let p : Project := ⟨"", Config.default⟩
    let world : World := { disk := { nodes := [(["a.js"], .file shadowedPackage.source 0o644 default)] } }
    let r := ((p.plan "a.js").run (World.answerUnder {}) world).1.report
    let bound := r.changes.filterMap (Change.bound? .javascript)
    p.config.check = .ok () ∧ r.changes ≠ [] ∧ "pino" ∈ shadowedPackage.facts.declared ∧
      ¬ (bound.Nodup ∧ ∀ name ∈ bound, name ∉ shadowedPackage.facts.declared) := by
  intro p world r bound
  have hvalid : p.config.check = .ok () := by decide +kernel
  have hgrammar : Grammar.ofPath? "a.js" = some .javascript := by decide +kernel
  have hread : ParsedFile.read? "a.js" shadowedPackage.source = some shadowedPackage :=
    ParsedFile.read?_of_grammar hgrammar _
  obtain ⟨hplan, hchanges, horiginal, -⟩ : r = _ ∧ r.changes ≠ [] ∧ r.original = shadowedPackage.source ∧ _ :=
    plan_of_smooth hgrammar (by decide +kernel) (by decide +kernel) hread (by decide +kernel)
  have himport : ∃ change ∈ r.changes, change.kind = .importAdded := by
    have hperm := planSource_changes (hplan ▸ hchanges) hread
    simp only [hplan, hperm.mem_iff]
    exact (Rework.importAdded_iff _).mpr ⟨by decide +kernel, by decide +kernel⟩
  have hdeclared : "pino" ∈ shadowedPackage.facts.declared := by decide +kernel
  obtain ⟨f, hf, hexact, -⟩ := plan_binds_fresh_iff {} p "a.js" world hvalid hchanges
  obtain rfl := Option.some.inj (hread.symm.trans (horiginal ▸ hf))
  exact ⟨hvalid, hchanges, hdeclared, fun hfresh => (hexact.mp hfresh himport).1 hdeclared⟩

end Project

end LogHygiene
