import LogHygiene.Proofs.Facts.Loggers

/-!
# What the loggers of a file rest on

The walk over the statements notes loggers in one place and names in another, and nothing in its types ties
the two together. The fixer relies on a tie: it reuses a logger as a name that the file has, and it keeps
a new logger away from the names that the file has.

> **a logger or binding that is noted has a name that the file declares**, no logger is noted twice, and
> a binding is of a backend of the family that was imported (`ParsedFile.facts_grounded`).

`LoggerFacts.Grounded` says so of any moment of the walk. Four notes change what is known, and each keeps it
under a condition on the name (`Grounded.addName`, `addInstance`, `noteImport`, `bind`); a statement is a row of
notes, so what is left to show for it is that the name was declared first, and for a binding that the module
was noted first (`Scope.Noted`). What is said of the first logger there is to prefer is `Counted` already.
-/

set_option autoImplicit false

namespace LogHygiene

open Syntax

namespace LoggerFacts

/-- What is known of loggers rests on the names that a file of a family declares. -/
structure Grounded (family : Family) (declared : List String) (l : LoggerFacts) : Prop where
  names_nodup : l.names.Nodup
  instantiated_nodup : l.instantiated.Nodup
  instantiated_names : ∀ x ∈ l.instantiated, x ∈ l.names
  names_declared : ∀ x ∈ l.names, x ∈ declared
  binding_declared : ∀ b, l.binding = some b → b.name ∈ declared
  binding_imported : ∀ b, l.binding = some b → l.hasImport = true
  binding_family : ∀ b, l.binding = some b → b.backend.family = family

theorem mem_insertNew {xs : List String} {x y : String} : y ∈ insertNew xs x ↔ y ∈ xs ∨ y = x := by
  unfold insertNew
  split
  · rename_i h
    have hx : x ∈ xs := List.contains_iff_mem.mp h
    exact ⟨.inl, fun h => h.elim id fun h => h ▸ hx⟩
  · rw [List.mem_append, List.mem_singleton]

theorem nodup_insertNew {xs : List String} (h : xs.Nodup) (x : String) : (insertNew xs x).Nodup := by
  unfold insertNew
  split
  · exact h
  · rename_i hnew
    rw [List.contains_iff_mem] at hnew
    refine List.nodup_append.mpr ⟨h, List.pairwise_singleton _ x, fun y hy z hz => ?_⟩
    rw [List.mem_singleton] at hz
    exact fun heq => hnew (hz ▸ heq ▸ hy)

/-- The logger to prefer is one of the loggers. -/
theorem Grounded.preferred_mem {family : Family} {declared : List String} {l : LoggerFacts}
    (h : l.Grounded family declared) {name : String} (hname : l.preferred? = some name) : name ∈ l.names := by
  rcases Option.or_eq_some_iff.mp hname with hmade | ⟨-, hfirst⟩
  · exact h.instantiated_names name (List.mem_of_head? hmade)
  · exact List.mem_of_head? hfirst

namespace Grounded

variable {family : Family} {declared more : List String} {l : LoggerFacts} {name : String}

theorem empty (family : Family) (declared : List String) : Grounded family declared {} :=
  ⟨.nil, .nil, by simp, by simp, by simp, by simp, by simp⟩

/-- More names can be declared. -/
theorem mono (h : l.Grounded family declared) (hmore : declared ⊆ more) : l.Grounded family more :=
  { h with
    names_declared := fun x hx => hmore (h.names_declared x hx)
    binding_declared := fun b hb => hmore (h.binding_declared b hb) }

/-- A logger under a name that is declared can be noted. -/
theorem addName (h : l.Grounded family declared) (hname : name ∈ declared) :
    (l.addName name).Grounded family declared :=
  { h with
    names_nodup := nodup_insertNew h.names_nodup name
    instantiated_names := fun x hx => mem_insertNew.mpr (.inl (h.instantiated_names x hx))
    names_declared := fun x hx => (mem_insertNew.mp hx).elim (h.names_declared x) fun hx => hx ▸ hname }

/-- A logger that is created under a name that is declared can be noted. -/
theorem addInstance (h : l.Grounded family declared) (hname : name ∈ declared) :
    (l.addInstance name).Grounded family declared :=
  { h.addName hname with
    instantiated_nodup := nodup_insertNew h.instantiated_nodup name
    instantiated_names := fun x hx => (mem_insertNew.mp hx).elim
      (fun hx => mem_insertNew.mpr (.inl (h.instantiated_names x hx))) (fun hx => mem_insertNew.mpr (.inr hx)) }

/-- A module that provides loggers can be noted. -/
theorem noteImport (h : l.Grounded family declared) : Grounded family declared { l with hasImport := true } :=
  { h with binding_imported := fun _ _ => rfl }

/-- A backend of the family can be bound to a name that is declared once a module was noted. -/
theorem bind (h : l.Grounded family declared) (himported : l.hasImport = true) (made : Option Binding)
    (hmade : ∀ b, made = some b → b.name ∈ declared ∧ b.backend.family = family) :
    Grounded family declared { l with binding := l.binding.or made } := by
  have hcases : ∀ b, l.binding.or made = some b → l.binding = some b ∨ made = some b :=
    fun b hb => (Option.or_eq_some_iff.mp hb).imp id And.right
  exact { h with
    binding_declared := fun b hb => (hcases b hb).elim (h.binding_declared b) fun hb => (hmade b hb).1
    binding_imported := fun _ _ => himported
    binding_family := fun b hb => (hcases b hb).elim (h.binding_family b) fun hb => (hmade b hb).2 }

end Grounded

end LoggerFacts

/-- A module name means a backend of the family that it is looked up for. -/
theorem Backend.ofModule?_eq_some {family : Family} {module : String} {backend : Backend}
    (h : ofModule? family module = some backend) : backend.family = family ∧ backend.module = module := by
  have hfound := List.find?_some h
  rwa [Bool.and_eq_true, beq_iff_eq, beq_iff_eq] at hfound

namespace Facts

/-! ## JavaScript and TypeScript -/

namespace JavaScript

variable {source : Bytes} {s : Scope} {module : String}

/-- The loggers of a walk rest on the names of the walk. -/
def Scope.Grounded (s : Scope) : Prop := s.logger.Grounded .javascript s.declared

/-- Names can be taken out of a module: if it provides loggers, that was noted. -/
structure Scope.Noted (module : String) (s : Scope) : Prop where
  grounded : s.Grounded
  imported : isLoggerModule module = true → s.logger.hasImport = true

theorem Scope.Grounded.declare (h : s.Grounded) (name : String) : (s.declare name).Grounded :=
  h.mono fun _ hx => List.mem_insert_of_mem hx

theorem Scope.Grounded.noteModule (h : s.Grounded) (module : String) : (s.noteModule module).Noted module := by
  unfold Scope.noteModule
  split
  · exact ⟨h.noteImport, fun _ => rfl⟩
  · rename_i hnot
    exact ⟨h, fun hlogs => absurd hlogs hnot⟩

theorem isLoggerModule_of_backend {backend : Backend} (h : Backend.ofModule? .javascript module = some backend) :
    isLoggerModule module = true := by
  obtain ⟨hfamily, rfl⟩ := Backend.ofModule?_eq_some h
  cases backend with
  | pino | winston => decide
  | logging | structlog => exact absurd hfamily (by decide)

/-- A name taken out of a module is declared, whatever it stands for. -/
theorem Scope.Noted.bind (h : s.Noted module) (name : String) (imported : Option String) :
    (s.bind module name imported).Noted module := by
  have hdeclared : name ∈ (s.declare name).declared := List.mem_insert_self
  unfold Scope.bind
  split
  · rename_i backend hbackend
    refine ⟨(h.grounded.declare name).bind (h.imported (isLoggerModule_of_backend hbackend)) _ ?_, h.imported⟩
    intro b hb
    obtain ⟨kind, -, rfl⟩ := Option.map_eq_some_iff.mp hb
    exact ⟨hdeclared, (Backend.ofModule?_eq_some hbackend).1⟩
  · split
    · exact ⟨(h.grounded.declare name).noteImport.addName hdeclared, fun _ => rfl⟩
    · exact ⟨h.grounded.declare name, h.imported⟩

theorem Scope.Noted.visitSpecifier (h : s.Noted module) (n : Node) :
    (visitSpecifier source module s n).Noted module := by
  unfold JavaScript.visitSpecifier
  split
  · exact h
  · split
    · exact h
    · exact h.bind _ _

theorem Scope.Noted.visitImportPart (h : s.Noted module) (n : Node) :
    (visitImportPart source module s n).Noted module := by
  unfold JavaScript.visitImportPart
  split
  · exact h.bind _ _
  · split
    · exact h.bind _ _
    · exact h
  · exact List.foldlRecOn _ _ h fun _ ht n _ => ht.visitSpecifier n
  · exact h

theorem Scope.Grounded.visitImport (h : s.Grounded) (n : Node) : (visitImport source s n).Grounded := by
  unfold JavaScript.visitImport
  dsimp only
  split
  · exact h
  · rename_i module _
    have hnoted : (Scope.noteModule { s with hasImport := true } module).Noted module :=
      Scope.Grounded.noteModule (s := { s with hasImport := true }) h module
    exact (List.foldlRecOn _ _ hnoted fun _ ht n _ => ht.visitImportPart n).grounded

/-- The name of a logger that a declarator creates is a name that the declarator declares. -/
theorem Scope.Grounded.visitDeclarator (h : s.Grounded) (n : Node) : (visitDeclarator source s n).Grounded := by
  unfold JavaScript.visitDeclarator
  split
  · exact h
  · rename_i name _
    have hgrounded : ((declaredNames source name).foldl Scope.declare s).Grounded :=
      List.foldlRecOn (motive := Scope.Grounded) _ _ h fun _ ht x _ => ht.declare x
    have hword : name.kind = .identifier →
        name.text source ∈ ((declaredNames source name).foldl Scope.declare s).declared := by
      intro hkind
      have hnames : declaredNames source name = [name.text source] := by
        rw [declaredNames_eq, hkind]
        exact boundNames_of_word (.inl hkind)
      rw [hnames]
      exact List.mem_insert_self
    dsimp only
    generalize (declaredNames source name).foldl Scope.declare s = t at hgrounded hword ⊢
    split
    · exact hgrounded
    · split
      · rename_i module _
        have hnoted : (Scope.noteModule { t with hasRequire := true } module).Noted module :=
          Scope.Grounded.noteModule (s := { t with hasRequire := true }) hgrounded module
        exact (List.foldlRecOn (motive := Scope.Noted module) _ _ hnoted fun _ ht x _ => ht.bind x _).grounded
      · split
        · rename_i hmade
          rw [Bool.and_eq_true, beq_iff_eq] at hmade
          exact hgrounded.addInstance (hword hmade.1)
        · exact hgrounded

/-- **A statement keeps the loggers on the names.** -/
theorem Scope.Grounded.visit (h : s.Grounded) (n : Node) : (visit source s n).Grounded := by
  unfold JavaScript.visit
  dsimp only
  generalize (if n.kind == .exportStatement then (n.child? .declaration).getD n else n) = statement
  split
  · exact h.visitImport statement
  · exact List.foldlRecOn (motive := Scope.Grounded) _ _ h fun _ ht n _ => ht.visitDeclarator n
  · exact List.foldlRecOn (motive := Scope.Grounded) _ _ h fun _ ht n _ => ht.visitDeclarator n
  · split
    · exact h.declare _
    · exact h
  · split
    · exact h.declare _
    · exact h
  · split <;> exact h
  · exact h

theorem grounded_scope (source : Bytes) (tree : Node) : (scope source tree).Grounded :=
  List.foldlRecOn (motive := Scope.Grounded) _ _ (.empty _ _) fun _ hs n _ => hs.visit n

end JavaScript

/-! ## Python -/

namespace Python

variable {source : Bytes} {s : Scope} {root : String}

/-- The loggers of a walk rest on the names of the walk. -/
def Scope.Grounded (s : Scope) : Prop := s.logger.Grounded .python s.declared

/-- Names can be taken out of a package: if it provides loggers, that was noted. -/
structure Scope.Noted (root : String) (s : Scope) : Prop where
  grounded : s.Grounded
  imported : loggerModules.contains root = true → s.logger.hasImport = true

theorem Scope.Grounded.declare (h : s.Grounded) (name : String) : (s.declare name).Grounded :=
  h.mono fun _ hx => List.mem_insert_of_mem hx

theorem Scope.Grounded.noteModule (h : s.Grounded) (root : String) : (s.noteModule root).Noted root := by
  unfold Scope.noteModule
  split
  · exact ⟨h.noteImport, fun _ => rfl⟩
  · rename_i hnot
    exact ⟨h, fun hlogs => absurd hlogs hnot⟩

theorem loggerModules_of_backend {backend : Backend} (h : Backend.ofModule? .python root = some backend) :
    loggerModules.contains root = true := by
  obtain ⟨hfamily, rfl⟩ := Backend.ofModule?_eq_some h
  cases backend with
  | logging | structlog => decide
  | pino | winston => exact absurd hfamily (by decide)

/-- A backend that a package means can be bound to a name that is declared. -/
theorem Scope.Noted.bind {backend : Backend} {name : String} {kind : BindingKind} (h : s.Noted root)
    (hbackend : Backend.ofModule? .python root = some backend) (hname : name ∈ s.declared) :
    (s.bind ⟨backend, name, kind⟩).Noted root := by
  refine ⟨LoggerFacts.Grounded.bind h.grounded (h.imported (loggerModules_of_backend hbackend)) _ ?_, h.imported⟩
  intro b hb
  rw [← Option.some.inj hb]
  exact ⟨hname, (Backend.ofModule?_eq_some hbackend).1⟩

theorem Scope.Grounded.visitImport (h : s.Grounded) (n : Node) : (visitImport source s n).Grounded := by
  unfold Python.visitImport
  obtain ⟨dotted, newName⟩ := importedName source n
  dsimp only
  have hnoted := (h.declare (newName.getD (rootModule dotted))).noteModule (rootModule dotted)
  have hdeclared : newName.getD (rootModule dotted) ∈
      ((s.declare (newName.getD (rootModule dotted))).noteModule (rootModule dotted)).declared := by
    unfold Scope.noteModule
    split <;> exact List.mem_insert_self
  split
  · rename_i backend hbackend
    split
    · exact (hnoted.bind hbackend hdeclared).grounded
    · exact hnoted.grounded
  · exact hnoted.grounded

/-- A name taken out of a package is declared, whatever it stands for. -/
theorem Scope.Noted.visitImportFrom (h : s.Noted root) (n : Node) :
    (visitImportFrom source root s n).Noted root := by
  unfold Python.visitImportFrom
  obtain ⟨imported, newName⟩ := importedName source n
  dsimp only
  have hdeclared : newName.getD imported ∈ (s.declare (newName.getD imported)).declared := List.mem_insert_self
  have hnoted : (s.declare (newName.getD imported)).Noted root := ⟨h.grounded.declare _, h.imported⟩
  generalize newName.getD imported = name at hdeclared hnoted ⊢
  -- the local name of a factory comes first, the name of a logger second
  have hlogger : ∀ (t : Scope) (p : Bool), t.Noted root ∧ name ∈ t.declared →
      Scope.Noted root (if p = true then
        { t with logger := { t.logger with hasImport := true }.addName name } else t) := by
    rintro t p ⟨ht, hname⟩
    split
    · exact ⟨ht.grounded.noteImport.addName hname, fun _ => rfl⟩
    · exact ht
  refine hlogger _ _ ?_
  split
  · rename_i backend hbackend
    split
    · exact ⟨hnoted.bind hbackend hdeclared, hdeclared⟩
    · exact ⟨hnoted, hdeclared⟩
  · exact ⟨hnoted, hdeclared⟩

/-- The name of a logger that an assignment creates is a name that the assignment declares. -/
theorem Scope.Grounded.visitAssignment (h : s.Grounded) (n : Node) : (visitAssignment source s n).Grounded := by
  unfold Python.visitAssignment
  split
  · exact h
  · rename_i left _
    have hgrounded : ((boundNames source (source.length + 1) left).foldl Scope.declare s).Grounded :=
      List.foldlRecOn (motive := Scope.Grounded) _ _ h fun _ ht x _ => ht.declare x
    have hword : left.kind = .identifier →
        left.text source ∈ ((boundNames source (source.length + 1) left).foldl Scope.declare s).declared := by
      intro hkind
      have hnames : boundNames source (source.length + 1) left = [left.text source] := by
        rw [boundNames, hkind]
        rfl
      rw [hnames]
      exact List.mem_insert_self
    dsimp only
    generalize (boundNames source (source.length + 1) left).foldl Scope.declare s = t at hgrounded hword ⊢
    split
    · exact hgrounded
    · rename_i hkind
      rw [bne_iff_ne, ne_eq, Decidable.not_not] at hkind
      split
      · exact hgrounded.addInstance (hword hkind)
      · exact hgrounded

/-- **A statement keeps the loggers on the names.** -/
theorem Scope.Grounded.visit (h : s.Grounded) (n : Node) : (visit source s n).Grounded := by
  unfold Python.visit
  dsimp only
  generalize (if n.kind == .decorated then (n.child? .definition).getD n else n) = statement
  split
  · exact List.foldlRecOn (motive := Scope.Grounded) _ _ h fun _ ht n _ => ht.visitImport n
  · generalize rootModule _ = root
    exact (List.foldlRecOn (motive := Scope.Noted root) _ _ (h.noteModule root)
      fun _ ht n _ => ht.visitImportFrom n).grounded
  · split
    · exact h.declare _
    · exact h
  · split
    · exact h.declare _
    · exact h
  · split
    · split
      · exact h.visitAssignment _
      · exact h
    · exact h
  · exact h

theorem grounded_scope (source : Bytes) (tree : Node) : (scope source tree).Grounded :=
  List.foldlRecOn (motive := Scope.Grounded) _ _ (.empty _ _) fun _ hs n _ => hs.visit n

end Python

end Facts

namespace ParsedFile

/-- Whatever the tree of a file is, the loggers that are found rest on the names that are found. -/
theorem grounded (f : ParsedFile) : f.facts.logger.Grounded f.facts.family f.facts.declared := by
  unfold facts
  cases f.grammar with
  | python => exact Facts.Python.grounded_scope f.source f.tree
  | javascript | typescript | tsx => exact Facts.JavaScript.grounded_scope f.source f.tree

/-- **What is known of the loggers of a file fits together and fits the names of the file**, whatever its
tree is: no logger is noted twice, those created in the file are loggers of the file, there is a logger to
prefer exactly if there is a logger, it is one of them, and every name that is noted is declared. -/
theorem facts_grounded (f : ParsedFile) :
    f.facts.logger.Grounded f.facts.family f.facts.declared ∧
      (f.facts.logger.hasInstance = true ↔ f.facts.logger.names ≠ []) ∧
      (f.facts.logger.preferred?.isSome = true ↔ f.facts.logger.names ≠ []) ∧
      ∀ name, f.facts.logger.preferred? = some name → name ∈ f.facts.logger.names :=
  have hcounted := f.counted_facts
  ⟨f.grounded, hcounted.names, hcounted.isSome_preferred?.trans hcounted.names,
    fun _ h => f.grounded.preferred_mem h⟩

end ParsedFile

end LogHygiene
