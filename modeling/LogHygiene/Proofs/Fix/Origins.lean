import LogHygiene.Proofs.Fix.Legible

/-!
# Which statement brings a logger

What is known of the loggers of a file is known when the walk over its statements is over, and by then it does not show
where it comes from. But it only grows, and nothing is known at first:

> **what is known at the end comes with one of the statements** (`ParsedFile.exists_statement`).

For the backend that is bound there is more to say: the statement is no comment, and it is not empty, since a node that
shows nothing names no package (`exists_binding_statement`).
-/

set_option autoImplicit false

namespace LogHygiene

open Syntax

/-! ## The statement that brings something -/

/-- What holds of a whole row, and not of the empty one, comes with one of its elements. -/
theorem exists_split {α : Type} {Q : List α → Prop} (hnil : ¬ Q []) (xs : List α) (h : Q xs) :
    ∃ front x back, xs = front ++ x :: back ∧ ¬ Q front ∧ Q (front ++ [x]) := by
  induction xs using List.reverseRecOn with
  | nil => exact absurd h hnil
  | append_singleton xs x ih =>
    by_cases hQ : Q xs
    · obtain ⟨front, y, back, rfl, hfront, hy⟩ := ih hQ
      exact ⟨front, y, back ++ [x], by simp, hfront, hy⟩
    · exact ⟨xs, x, [], rfl, hQ, h⟩

/-- Where the element of a split stands. -/
theorem split_at_length {α : Type} {xs front back : List α} {x : α} (h : xs = front ++ x :: back) :
    front.length < xs.length ∧ x ∈ xs[front.length]? ∧ xs.take (front.length + 1) = front ++ [x] := by
  subst h
  refine ⟨by simp, by simp, ?_⟩
  rw [List.take_append]
  simp

/-- What is known of loggers in the end comes with one of the statements. -/
theorem ParsedFile.exists_statement (f : ParsedFile) {P : LoggerFacts → Prop} (hnone : ¬ P {})
    (hfacts : P f.facts.logger) : ∃ front n back, f.tree.namedChildren = front ++ n :: back ∧
      ¬ P (f.loggersOf front) ∧ P (f.loggersOf (front ++ [n])) := by
  rw [facts_logger] at hfacts
  rw [← f.loggersOf_nil] at hnone
  exact exists_split (Q := fun row => P (f.loggersOf row)) hnone _ hfacts

/-- A logger goes by a name. -/
def LoggerFacts.Knows (l : LoggerFacts) (name : String) : Prop := name ∈ l.names ∨ name ∈ l.instantiated

instance (l : LoggerFacts) (name : String) : Decidable (l.Knows name) :=
  inferInstanceAs (Decidable (name ∈ l.names ∨ name ∈ l.instantiated))

theorem LoggerFacts.knows_of_preferred? {l : LoggerFacts} {name : String} (h : l.preferred? = some name) :
    l.Knows name := by
  rw [preferred?, Option.or_eq_some_iff] at h
  rcases h with hmade | ⟨-, hnamed⟩
  · exact .inr (List.mem_of_mem_head? hmade)
  · exact .inl (List.mem_of_mem_head? hnamed)

/-! ## Statements that show nothing -/

/-- Nothing is to be read in a tree. -/
def Syntax.Node.Silent (source : Bytes) (n : Node) : Prop := ∀ m ∈ n.preorder, m.text source = ""

namespace Syntax.Node

variable {source : Bytes} {n k m : Node} {r : Role}

theorem silent_of_narrow (h : n.Nested) (hnarrow : n.stop ≤ n.start) : n.Silent source := by
  intro m hm
  have hspan := h.span_of_mem hm
  have hslice : source.slice m.start m.stop = [] := by
    rw [Bytes.slice, Nat.sub_eq_zero_of_le (by omega), List.take_zero]
  rw [Node.text, Bytes.textBetween, hslice]
  rfl

theorem Silent.sub (h : n.Silent source) (hk : k ∈ n.preorder) : k.Silent source :=
  fun m hm => h m (mem_preorder_trans hk hm)

theorem Silent.child (h : n.Silent source) (hk : k ∈ n.children) : k.Silent source :=
  h.sub (mem_preorder_of_child hk k.mem_preorder_self)

theorem Silent.child? (h : n.Silent source) (hk : n.child? r = some k) : k.Silent source :=
  h.child (child?_eq_some hk).1

theorem Silent.childrenIn (h : n.Silent source) (hk : k ∈ n.childrenIn r) : k.Silent source :=
  h.child (List.mem_of_mem_filter hk)

theorem Silent.text (h : n.Silent source) : n.text source = "" := h n n.mem_preorder_self

/-- What is shown by a part that may be missing. -/
theorem Silent.text_child? (h : n.Silent source) (r : Role) :
    ((n.child? r).map (·.text source)).getD "" = "" := by
  cases hk : n.child? r with
  | none => rfl
  | some k => exact (h.child? hk).text

end Syntax.Node

/-- What no step of a walk changes is at the end what it was. -/
theorem Facts.foldl_same {σ α β : Type} (look : σ → β) {step : σ → α → σ} {xs : List α}
    (h : ∀ s, ∀ x ∈ xs, look (step s x) = look s) (s : σ) : look (xs.foldl step s) = look s := by
  induction xs generalizing s with
  | nil => rfl
  | cons x xs ih =>
    exact (ih (fun s y hy => h s y (List.mem_cons_of_mem _ hy)) _).trans (h s x List.mem_cons_self)

namespace Facts.JavaScript

variable {source : Bytes} {n : Node}

/-- The empty path is no backend's. -/
theorem Scope.binding_bind (s : Scope) (name : String) (imported : Option String) :
    (s.bind "" name imported).logger.binding = s.logger.binding := by
  have hnone : Backend.ofModule? .javascript "" = none := rfl
  unfold Scope.bind
  rw [hnone]
  dsimp only
  split <;> rfl

theorem Scope.binding_noteModule (s : Scope) (module : String) :
    (s.noteModule module).logger.binding = s.logger.binding := by
  unfold Scope.noteModule
  split <;> rfl

theorem binding_visitImportPart (s : Scope) (part : Node) :
    (visitImportPart source "" s part).logger.binding = s.logger.binding := by
  unfold visitImportPart
  split
  · exact s.binding_bind _ _
  · split
    · exact s.binding_bind _ _
    · rfl
  · refine foldl_same (fun s : Scope => s.logger.binding) (fun s specifier _ => ?_) s
    unfold visitSpecifier
    split
    · rfl
    · split
      · rfl
      · exact s.binding_bind _ _
  · rfl

theorem binding_visitImport (h : n.Silent source) (s : Scope) :
    (visitImport source s n).logger.binding = s.logger.binding := by
  unfold visitImport
  dsimp only
  cases hmodule : (n.child? .source).bind (stringValue? source) with
  | none => rfl
  | some module =>
    obtain ⟨path, hpath, hvalue⟩ := Option.bind_eq_some_iff.mp hmodule
    have hempty : module = "" := by
      rw [stringValue?, (h.child? hpath).text] at hvalue
      split at hvalue
      · exact (Option.some.inj hvalue).symm
      · exact absurd hvalue (by simp)
    subst hempty
    exact (foldl_same (fun s : Scope => s.logger.binding) (fun s part _ => binding_visitImportPart s part) _).trans
      (Scope.binding_noteModule _ _)

theorem binding_visitDeclarator (h : n.Silent source) (s : Scope) :
    (visitDeclarator source s n).logger.binding = s.logger.binding := by
  unfold visitDeclarator
  cases n.child? .name with
  | none => rfl
  | some name =>
    have hdeclared := foldl_declare_logger (declaredNames source name) s
    dsimp only
    cases hvalue : n.child? .value with
    | none => exact congrArg LoggerFacts.binding hdeclared
    | some value =>
      have hrequire : requireSource? source (unwrapped source value) = none := by
        have hinner := (h.child? hvalue).sub (unwrap_mem (i := source.length + 1))
        rw [requireSource?_eq]
        split
        · cases hcallee : (unwrap (source.length + 1) value).child? .callee with
          | none => rw [unwrapped, hcallee]; rfl
          | some callee =>
            have hword : ¬ (callee.kind = .identifier ∧ callee.text source = "require") := by
              rw [(hinner.child? hcallee).text]
              simp
            rw [unwrapped, hcallee, Option.bind_some, if_neg hword]
        · rfl
      simp only [Option.map_some, hrequire]
      split
      · exact (congrArg LoggerFacts.binding hdeclared :)
      · exact congrArg LoggerFacts.binding hdeclared

/-- A statement in which nothing is to be read brings no backend. -/
theorem binding_visit (h : n.Silent source) (s : Scope) :
    (visit source s n).logger.binding = s.logger.binding := by
  unfold visit
  dsimp only
  have hstatement : (if n.kind == .exportStatement then (n.child? .declaration).getD n else n).Silent source := by
    split
    · cases hk : n.child? .declaration with
      | none => exact h
      | some k => exact h.child? hk
    · exact h
  generalize (if n.kind == .exportStatement then (n.child? .declaration).getD n else n) = statement at hstatement ⊢
  have hdeclarators : ∀ s, ((statement.namedChildren.filter (·.kind == .declarator)).foldl
      (visitDeclarator source) s).logger.binding = s.logger.binding :=
    foldl_same (fun s : Scope => s.logger.binding) fun s d hd => binding_visitDeclarator
      (hstatement.child (List.mem_of_mem_filter (List.mem_of_mem_filter hd))) s
  split
  · exact binding_visitImport hstatement s
  · exact hdeclarators s
  · exact hdeclarators s
  · split <;> rfl
  · split <;> rfl
  · split <;> rfl
  · rfl

end Facts.JavaScript

namespace Facts.Python

variable {source : Bytes} {n : Node}

theorem Scope.binding_noteModule (s : Scope) (root : String) :
    (s.noteModule root).logger.binding = s.logger.binding := by
  unfold Scope.noteModule
  split <;> rfl

theorem importedName_silent (h : n.Silent source) : (importedName source n).1 = "" := by
  unfold importedName
  split
  · exact h.text_child? .name
  · exact h.text

theorem binding_visitImport (h : n.Silent source) (s : Scope) :
    (visitImport source s n).logger.binding = s.logger.binding := by
  have hdotted := importedName_silent h
  have hnone : Backend.ofModule? .python (rootModule "") = none := by decide
  unfold visitImport
  generalize importedName source n = imported at hdotted ⊢
  obtain ⟨dotted, newName⟩ := imported
  obtain rfl : dotted = "" := hdotted
  dsimp only
  rw [hnone]
  exact Scope.binding_noteModule _ _

/-- An assignment brings no backend. -/
theorem binding_visitAssignment (s : Scope) (assignment : Node) :
    (visitAssignment source s assignment).logger.binding = s.logger.binding := by
  unfold visitAssignment
  split
  · rfl
  · rename_i left _
    have hdeclared := foldl_declare_logger (boundNames source (source.length + 1) left) s
    dsimp only
    split
    · exact congrArg LoggerFacts.binding hdeclared
    · split
      · exact (congrArg LoggerFacts.binding hdeclared :)
      · exact congrArg LoggerFacts.binding hdeclared

/-- Nothing is a backend's that is taken out of no package. -/
theorem binding_visitImportFrom (s : Scope) (name : Node) :
    (visitImportFrom source (rootModule "") s name).logger.binding = s.logger.binding := by
  have hnone : Backend.ofModule? .python (rootModule "") = none := by decide
  unfold visitImportFrom
  rw [hnone]
  dsimp only
  split <;> rfl

/-- A statement in which nothing is to be read brings no backend. -/
theorem binding_visit (h : n.Silent source) (s : Scope) :
    (visit source s n).logger.binding = s.logger.binding := by
  unfold visit
  dsimp only
  have hstatement : (if n.kind == .decorated then (n.child? .definition).getD n else n).Silent source := by
    split
    · cases hk : n.child? .definition with
      | none => exact h
      | some k => exact h.child? hk
    · exact h
  generalize (if n.kind == .decorated then (n.child? .definition).getD n else n) = statement at hstatement ⊢
  split
  · exact foldl_same (fun s : Scope => s.logger.binding)
      (fun s name hname => binding_visitImport (hstatement.childrenIn hname) s) s
  · rw [hstatement.text_child? .moduleName]
    exact (foldl_same (fun s : Scope => s.logger.binding) (fun s name _ => binding_visitImportFrom s name) _).trans
      (Scope.binding_noteModule _ _)
  · split <;> rfl
  · split <;> rfl
  · split
    · split
      · exact binding_visitAssignment s _
      · rfl
    · rfl
  · rfl

end Facts.Python

/-! ## The statement that binds a backend -/

namespace ParsedFile

variable {f : ParsedFile} {n : Node} {b : Binding}

theorem loggersOf_binding_of_silent (h : n.Silent f.source) (front : List Node) :
    (f.loggersOf (front ++ [n])).binding = (f.loggersOf front).binding := by
  unfold loggersOf
  cases f.grammar.family with
  | javascript =>
    dsimp only
    rw [List.foldl_concat]
    exact Facts.JavaScript.binding_visit h _
  | python =>
    dsimp only
    rw [List.foldl_concat]
    exact Facts.Python.binding_visit h _

theorem loggersOf_of_comment (h : n.kind = .comment) (front : List Node) :
    f.loggersOf (front ++ [n]) = f.loggersOf front := by
  unfold loggersOf
  cases f.grammar.family with
  | javascript =>
    dsimp only
    rw [List.foldl_concat]
    exact Facts.JavaScript.visit_comment h
  | python =>
    dsimp only
    rw [List.foldl_concat]
    exact Facts.Python.visit_comment h

/-- **The statement that binds a backend**: above it none is bound, and there is something in it. -/
theorem WellFormed.exists_binding_statement (h : f.WellFormed) (hb : f.facts.logger.binding = some b) :
    ∃ front n back, f.tree.namedChildren = front ++ n :: back ∧ (f.loggersOf front).binding = none ∧
      (f.loggersOf (front ++ [n])).binding = some b ∧ n.kind ≠ .comment ∧ n.start < n.stop := by
  obtain ⟨front, n, back, hrow, hfront, hn⟩ := f.exists_statement (P := fun l => l.binding ≠ none)
    (by simp) (by rw [hb]; simp)
  have hnone : (f.loggersOf front).binding = none := not_not.mp hfront
  obtain ⟨b', hb'⟩ := Option.ne_none_iff_exists'.mp hn
  have hmem : n ∈ f.tree.children := Node.mem_children_of_named (hrow ▸ by simp)
  refine ⟨front, n, back, hrow, hnone, ?_, fun hcomment => ?_, ?_⟩
  · -- the first binding stays
    have hgrows := f.loggersOf_grows (front ++ [n]) back
    rw [List.append_assoc, List.singleton_append, ← hrow, ← facts_logger] at hgrows
    rw [← hb, hb', hgrows.binding b' hb']
  · rw [loggersOf_of_comment hcomment] at hn
    exact hn hnone
  · by_contra hnarrow
    rw [loggersOf_binding_of_silent (Node.silent_of_narrow (h.nested.child hmem) (Nat.not_lt.mp hnarrow))] at hn
    exact hn hnone

end ParsedFile

end LogHygiene
