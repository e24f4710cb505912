import LogHygiene.Facts.Extraction

/-!
# What a walk over the statements knows of loggers

The loggers of a file are found by one walk over its top-level statements. Whatever a statement is, it can
only add to what is known, and that is all that later proofs need to know about most statements.

> **what is known of loggers grows** (`JavaScript.visit_grows`, `Python.visit_grows`): names are put at the
> end, and the first binding stays.

So the logger that was created first is still the one to use when the walk is over (`preferred?`), and an
expression that creates a logger early on creates one at the end (`createsLogger_mono`). A statement that
imports something `Borrows`: it may bring a logger along, but creates none.
-/

set_option autoImplicit false

namespace LogHygiene

open Syntax

/-! ## Growing -/

namespace LoggerFacts

variable {a b c : LoggerFacts}

/-- A logger is reported if and only if it has a name. -/
structure Counted (a : LoggerFacts) : Prop where
  names : a.hasInstance = true ↔ a.names ≠ []
  instantiated : a.instantiated ≠ [] → a.names ≠ []

/-- `b` is what is known later. -/
structure Grows (a b : LoggerFacts) : Prop where
  binding : ∀ x, a.binding = some x → b.binding = some x
  names : a.names <+: b.names
  instantiated : a.instantiated <+: b.instantiated
  counted : a.Counted → b.Counted

/-- `b` is what is known later, and no logger was created in between. -/
structure Borrows (a b : LoggerFacts) : Prop where
  grows : a.Grows b
  instantiated : b.instantiated = a.instantiated

theorem Counted.empty : Counted {} := ⟨by simp, by simp⟩

/-- A file has a logger if and only if there is one to prefer. -/
theorem Counted.isSome_preferred? (h : a.Counted) : a.preferred?.isSome = true ↔ a.hasInstance = true := by
  rw [h.names, preferred?]
  cases hmade : a.instantiated with
  | nil => cases a.names <;> simp
  | cons x xs =>
    have hsome := h.instantiated (by rw [hmade]; simp)
    simpa using hsome

theorem preferred?_eq_none : a.preferred? = none ↔ a.instantiated = [] ∧ a.names = [] := by
  rw [preferred?, Option.or_eq_none_iff, List.head?_eq_none_iff, List.head?_eq_none_iff]

namespace Grows

theorem refl (a : LoggerFacts) : a.Grows a :=
  ⟨fun _ h => h, List.prefix_refl _, List.prefix_refl _, fun h => h⟩

theorem trans (hab : a.Grows b) (hbc : b.Grows c) : a.Grows c :=
  ⟨fun x h => hbc.binding x (hab.binding x h), hab.names.trans hbc.names,
    hab.instantiated.trans hbc.instantiated, fun h => hbc.counted (hab.counted h)⟩

/-- Before the first logger there is none. -/
theorem preferred?_eq_none (h : a.Grows b) (hnone : b.preferred? = none) : a.preferred? = none := by
  obtain ⟨hmade, hnames⟩ := LoggerFacts.preferred?_eq_none.mp hnone
  have hmade' := h.instantiated
  have hnames' := h.names
  rw [hmade] at hmade'
  rw [hnames] at hnames'
  exact LoggerFacts.preferred?_eq_none.mpr ⟨List.prefix_nil.mp hmade', List.prefix_nil.mp hnames'⟩

/-- The logger that was created first stays the one to use. -/
theorem preferred?_of_instantiated {name : String} {rest : List String} (h : a.Grows b)
    (hmade : a.instantiated = name :: rest) : b.preferred? = some name := by
  obtain ⟨more, hmore⟩ := h.instantiated
  rw [hmade] at hmore
  rw [preferred?, ← hmore]
  rfl

end Grows

namespace Borrows

theorem refl (a : LoggerFacts) : a.Borrows a := ⟨.refl a, rfl⟩

theorem trans (hab : a.Borrows b) (hbc : b.Borrows c) : a.Borrows c :=
  ⟨hab.grows.trans hbc.grows, hbc.instantiated.trans hab.instantiated⟩

end Borrows

/-! ### Single notes -/

theorem insertNew_prefix (xs : List String) (x : String) : xs <+: insertNew xs x := by
  unfold insertNew
  split
  · exact List.prefix_refl _
  · exact List.prefix_append _ _

theorem insertNew_ne_nil (xs : List String) (x : String) : insertNew xs x ≠ [] := by
  unfold insertNew
  split
  · rename_i h
    exact List.ne_nil_of_mem (List.contains_iff_mem.mp h)
  · simp

theorem borrows_addName (a : LoggerFacts) (name : String) : a.Borrows (a.addName name) := by
  refine ⟨⟨fun _ h => h, insertNew_prefix _ _, List.prefix_refl _, fun h => ⟨?_, ?_⟩⟩, rfl⟩
  · exact iff_of_true rfl (insertNew_ne_nil _ _)
  · intro _
    exact insertNew_ne_nil _ _

theorem grows_addInstance (a : LoggerFacts) (name : String) : a.Grows (a.addInstance name) := by
  refine ⟨fun _ h => h, insertNew_prefix _ _, insertNew_prefix _ _, fun h => ⟨?_, ?_⟩⟩
  · exact iff_of_true rfl (insertNew_ne_nil _ _)
  · intro _
    exact insertNew_ne_nil _ _

/-- A backend is imported. -/
theorem borrows_hasImport (a : LoggerFacts) : a.Borrows { a with hasImport := true } :=
  ⟨⟨fun _ h => h, List.prefix_refl _, List.prefix_refl _, fun h => ⟨h.names, h.instantiated⟩⟩, rfl⟩

/-- A backend gets a name, unless one has. -/
theorem borrows_binding (a : LoggerFacts) (made : Option Binding) :
    a.Borrows { a with binding := a.binding.or made } := by
  refine ⟨⟨fun x h => ?_, List.prefix_refl _, List.prefix_refl _, fun h => ⟨h.names, h.instantiated⟩⟩, rfl⟩
  rw [h]
  rfl

end LoggerFacts

namespace Facts

open LoggerFacts Text

/-- What relates every state to the next relates the first to the last. -/
theorem foldl_related {σ α : Type} {R : σ → σ → Prop} (hrefl : ∀ s, R s s)
    (htrans : ∀ {s t u}, R s t → R t u → R s u) {step : σ → α → σ} (hstep : ∀ s x, R s (step s x)) :
    ∀ (xs : List α) (s : σ), R s (xs.foldl step s) := by
  intro xs
  induction xs with
  | nil => intro s; exact hrefl s
  | cons x xs ih => intro s; exact htrans (hstep s x) (ih (step s x))

/-- Two walks stay alike if each pair of steps keeps them alike. `P` holds on the way if it holds at the
end. -/
theorem foldl_alike {σ α : Type} {R : σ → σ → Prop} {P : σ → Prop} {f g : σ → α → σ} {m : α → α}
    (hback : ∀ s x, P (f s x) → P s) : ∀ (xs : List α) (s t : σ),
    (∀ x ∈ xs, ∀ s t, P (f s x) → R s t → R (f s x) (g t (m x))) → P (xs.foldl f s) → R s t →
      R (xs.foldl f s) ((xs.map m).foldl g t) := by
  have hfirst : ∀ (xs : List α) (s : σ), P (xs.foldl f s) → P s := by
    intro xs
    induction xs with
    | nil => intro s h; exact h
    | cons x xs ih => intro s h; exact hback s x (ih (f s x) h)
  intro xs
  induction xs with
  | nil => intro s t _ _ hst; exact hst
  | cons x xs ih =>
    intro s t hstep hend hst
    have hnext := hstep x List.mem_cons_self s t (hfirst xs (f s x) hend) hst
    exact ih _ _ (fun y hy => hstep y (List.mem_cons_of_mem _ hy)) hend hnext

/-- Whether a call of the given expression gives a logger: a factory by its own name or under a local one,
or a method of a logger that makes another. -/
def callsFactory (source : Bytes) (family : Family) (factories methods : List String)
    (logger : LoggerFacts) (callee : Node) : Bool :=
  factories.contains (withoutBlanks (callee.text source)) ||
    logger.binding.any (fun b => withoutBlanks (callee.text source) == b.factory family) ||
    (callee.kind == .member && (callee.child? .object).any fun object =>
      (callee.child? .property).any fun property =>
        methods.contains (property.text source) && logger.names.contains (object.text source))

theorem callsFactory_mono {source : Bytes} {family : Family} {factories methods : List String}
    {a b : LoggerFacts} {callee : Node} (h : a.Grows b)
    (hcalls : callsFactory source family factories methods a callee = true) :
    callsFactory source family factories methods b callee = true := by
  simp only [callsFactory, Bool.or_eq_true, Bool.and_eq_true, Option.any_eq_true] at hcalls ⊢
  rcases hcalls with (hlisted | ⟨x, hx, hlocal⟩) | ⟨hmember, object, hobject, property, hproperty, hmethod, hname⟩
  · exact .inl (.inl hlisted)
  · exact .inl (.inr ⟨x, h.binding x hx, hlocal⟩)
  · refine .inr ⟨hmember, object, hobject, property, hproperty, hmethod, ?_⟩
    rw [List.contains_iff_mem] at hname ⊢
    exact h.names.mem hname

/-! ## JavaScript and TypeScript -/

namespace JavaScript

variable {source : Bytes}

theorem Scope.noteModule_borrows (s : Scope) (module : String) :
    s.logger.Borrows (s.noteModule module).logger := by
  unfold Scope.noteModule
  split
  · exact borrows_hasImport _
  · exact .refl _

theorem Scope.bind_borrows (s : Scope) (module name : String) (imported : Option String) :
    s.logger.Borrows (s.bind module name imported).logger := by
  unfold Scope.bind
  split
  · exact borrows_binding _ _
  · split
    · exact (borrows_hasImport _).trans (borrows_addName _ _)
    · exact .refl _

theorem visitSpecifier_borrows (module : String) (s : Scope) (n : Node) :
    s.logger.Borrows (visitSpecifier source module s n).logger := by
  unfold visitSpecifier
  split
  · exact .refl _
  · split
    · exact .refl _
    · exact s.bind_borrows _ _ _

/-- A row of steps that only borrow. -/
theorem foldl_borrows {α : Type} {step : Scope → α → Scope}
    (h : ∀ (s : Scope) (x : α), s.logger.Borrows (step s x).logger) (xs : List α) (s : Scope) :
    s.logger.Borrows (xs.foldl step s).logger :=
  foldl_related (R := fun s t : Scope => s.logger.Borrows t.logger) (fun s => .refl s.logger) Borrows.trans h xs s

/-- A row of steps that only add. -/
theorem foldl_grows {α : Type} {step : Scope → α → Scope}
    (h : ∀ (s : Scope) (x : α), s.logger.Grows (step s x).logger) (xs : List α) (s : Scope) :
    s.logger.Grows (xs.foldl step s).logger :=
  foldl_related (R := fun s t : Scope => s.logger.Grows t.logger) (fun s => .refl s.logger) Grows.trans h xs s

theorem visitImportPart_borrows (module : String) (s : Scope) (n : Node) :
    s.logger.Borrows (visitImportPart source module s n).logger := by
  unfold visitImportPart
  split
  · exact s.bind_borrows _ _ _
  · split
    · exact s.bind_borrows _ _ _
    · exact .refl _
  · exact foldl_borrows (visitSpecifier_borrows module) _ s
  · exact .refl _

theorem visitImport_borrows (s : Scope) (n : Node) :
    s.logger.Borrows (visitImport source s n).logger := by
  unfold visitImport
  dsimp only
  split
  · exact .refl _
  · rename_i module _
    exact (Scope.noteModule_borrows { s with hasImport := true } module).trans
      (foldl_borrows (visitImportPart_borrows module) _ _)

theorem foldl_declare_logger (names : List String) (s : Scope) :
    (names.foldl Scope.declare s).logger = s.logger :=
  foldl_related (R := fun s t : Scope => t.logger = s.logger) (fun _ => rfl) (fun h₁ h₂ => h₂.trans h₁)
    (fun s name => show (s.declare name).logger = s.logger from rfl) names s

/-- What a note adds depends on what is known of loggers, and on nothing else that is known. -/
theorem Scope.noteModule_congr {s t : Scope} (h : s.logger = t.logger) (module : String) :
    (s.noteModule module).logger = (t.noteModule module).logger := by
  unfold Scope.noteModule
  split
  · dsimp only
    rw [h]
  · exact h

theorem Scope.bind_congr {s t : Scope} (h : s.logger = t.logger) (module name : String)
    (imported : Option String) : (s.bind module name imported).logger = (t.bind module name imported).logger := by
  have hdeclared : (s.declare name).logger = (t.declare name).logger := h
  unfold Scope.bind
  split
  · dsimp only
    rw [hdeclared]
  · split
    · dsimp only
      rw [hdeclared]
    · exact h

theorem Scope.foldl_bind_congr {s t : Scope} (h : s.logger = t.logger) (module : String)
    (imported : String → Option String) (names : List String) :
    (names.foldl (fun s x => s.bind module x (imported x)) s).logger =
      (names.foldl (fun s x => s.bind module x (imported x)) t).logger := by
  induction names generalizing s t with
  | nil => exact h
  | cons x xs ih => exact ih (Scope.bind_congr h module x (imported x))

theorem requireSource?_eq (n : Node) : requireSource? source n =
    if n.kind = .call then (n.child? .callee).bind fun callee =>
      if callee.kind = .identifier ∧ callee.text source = "require" then
        (n.child? .arguments).bind fun list => list.namedChildren.head?.bind (stringValue? source)
      else none
    else none := by
  unfold requireSource?
  by_cases hkind : n.kind = .call
  · simp only [hkind, bne_self_eq_false, Bool.false_eq_true, if_false, if_true, Option.bind_eq_bind]
    congr 1
    funext callee
    by_cases hidentifier : callee.kind = .identifier
    · by_cases htext : callee.text source = "require" <;> simp [hidentifier, htext]
    · simp [hidentifier]
  · simp [hkind]

theorem boundNames_of_word {n : Node} {i : Nat} (h : n.kind = .identifier ∨ n.kind = .shorthandPattern) :
    boundNames source (i + 1) n = [n.text source] := by
  rw [boundNames]
  rcases h with h | h <;> rw [h]

theorem boundNames_of_pair {n : Node} {i : Nat} (h : n.kind = .pairPattern) :
    boundNames source (i + 1) n = ((n.child? .value).map (boundNames source i)).getD [] := by
  rw [boundNames, h]

theorem boundNames_of_other {n : Node} {i : Nat} (hword : ¬ (n.kind = .identifier ∨ n.kind = .shorthandPattern))
    (hpair : n.kind ≠ .pairPattern) :
    boundNames source (i + 1) n = n.namedChildren.flatMap (boundNames source i) := by
  rw [boundNames]
  split
  · rename_i h
    exact absurd (.inl h) hword
  · rename_i h
    exact absurd (.inr h) hword
  · rename_i h
    exact absurd h hpair
  · rfl

theorem declaredNames_eq (name : Node) : declaredNames source name =
    if [Kind.identifier, .objectPattern, .arrayPattern].contains name.kind then
      boundNames source (source.length + 1) name
    else [] := by
  unfold declaredNames
  split
  · rename_i h
    rw [h]
    rfl
  · rename_i h
    rw [h]
    rfl
  · rename_i h
    rw [h]
    rfl
  · rename_i hidentifier hobject harray
    rw [if_neg]
    simpa using ⟨hidentifier, hobject, harray⟩

theorem createsLogger_eq (logger : LoggerFacts) (value : Node) : createsLogger source logger value =
    ((value.kind == .call && (value.child? .callee).any fun callee =>
      match requireSource? source callee with
      | some module => isLoggerModule module
      | none => callsFactory source .javascript loggerFactories ["child"] logger callee) ||
    (value.kind == .construction && (value.child? .constructor).any fun c =>
      c.text source == "Logger" || ".Logger".toList.isSuffixOf (c.text source).toList)) := by
  unfold createsLogger
  split
  · rename_i hkind
    have hother : (Kind.call == .construction) = false := rfl
    rw [hkind, hother, Bool.false_and, Bool.or_false, beq_self_eq_true, Bool.true_and]
    cases value.child? .callee with
    | none => rfl
    | some callee =>
      rw [Option.any_some]
      dsimp only
      cases requireSource? source callee with
      | some module => rfl
      | none =>
        dsimp only [callsFactory]
        rw [Bool.eq_iff_iff]
        cases callee.child? .object <;> cases callee.child? .property <;> simp [or_assoc]
  · rename_i hkind
    rw [hkind]
    cases value.child? .constructor <;> rfl
  · rename_i hcall hconstruction
    have hcall : (value.kind == .call) = false := beq_eq_false_iff_ne.mpr hcall
    have hconstruction : (value.kind == .construction) = false := beq_eq_false_iff_ne.mpr hconstruction
    rw [hcall, hconstruction]
    rfl

theorem createsLogger_mono {a b : LoggerFacts} {value : Node} (h : a.Grows b)
    (hcreates : createsLogger source a value = true) : createsLogger source b value = true := by
  rw [createsLogger_eq, Bool.or_eq_true, Bool.and_eq_true, Option.any_eq_true] at hcreates ⊢
  refine hcreates.imp_left ?_
  rintro ⟨hkind, callee, hcallee, hcreates⟩
  refine ⟨hkind, callee, hcallee, ?_⟩
  cases hrequire : requireSource? source callee with
  | some module =>
    rw [hrequire] at hcreates
    exact hcreates
  | none =>
    rw [hrequire] at hcreates
    exact callsFactory_mono h hcreates

/-- Names are taken out of a module. -/
theorem foldl_bind_borrows (module : String) (imported : String → Option String) (names : List String)
    (s : Scope) : s.logger.Borrows
      (names.foldl (fun s x => s.bind module x (imported x)) (s.noteModule module)).logger :=
  (s.noteModule_borrows module).trans (foldl_borrows (fun s x => s.bind_borrows module x _) names _)

/-- A declarator takes in a module or creates a logger. -/
theorem visitDeclarator_grows (s : Scope) (n : Node) :
    s.logger.Grows (visitDeclarator source s n).logger := by
  unfold visitDeclarator
  split
  · exact .refl _
  · rename_i name _
    let names := declaredNames source name
    have hdeclared := foldl_declare_logger names s
    dsimp only
    split
    · rw [hdeclared]
      exact .refl _
    · split
      · rename_i module _
        rw [← hdeclared]
        exact (foldl_bind_borrows module _ _ { names.foldl Scope.declare s with hasRequire := true }).grows
      · split
        · rw [hdeclared]
          exact grows_addInstance _ _
        · rw [hdeclared]
          exact .refl _

/-- A declarator that takes in a module creates no logger. -/
theorem visitDeclarator_borrows {s : Scope} {n value : Node}
    (hvalue : n.child? .value = some value) (h : (requireSource? source (unwrapped source value)).isSome = true) :
    s.logger.Borrows (visitDeclarator source s n).logger := by
  obtain ⟨module, hmodule⟩ := Option.isSome_iff_exists.mp h
  unfold visitDeclarator
  split
  · exact .refl _
  · rename_i name _
    let names := declaredNames source name
    have hdeclared := foldl_declare_logger names s
    simp only [hvalue, Option.map_some, hmodule]
    rw [← hdeclared]
    exact foldl_bind_borrows module _ _ { names.foldl Scope.declare s with hasRequire := true }

/-- **A statement only adds to what is known.** -/
theorem visit_grows (s : Scope) (n : Node) : s.logger.Grows (visit source s n).logger := by
  unfold visit
  dsimp only
  generalize (if n.kind == .exportStatement then (n.child? .declaration).getD n else n) = statement
  split
  · exact (visitImport_borrows s _).grows
  · exact foldl_grows visitDeclarator_grows _ s
  · exact foldl_grows visitDeclarator_grows _ s
  · split <;> exact .refl _
  · split <;> exact .refl _
  · split <;> exact .refl _
  · exact .refl _

/-- A comment adds nothing. -/
theorem visit_comment {s : Scope} {n : Node} (h : n.kind = .comment) :
    (visit source s n).logger = s.logger := by
  have hself : (if n.kind == .exportStatement then (n.child? .declaration).getD n else n) = n :=
    if_neg (by rw [h]; decide)
  unfold visit
  dsimp only
  rw [hself, h]

end JavaScript

/-! ## Python -/

namespace Python

variable {source : Bytes}

theorem Scope.noteModule_borrows (s : Scope) (root : String) :
    s.logger.Borrows (s.noteModule root).logger := by
  unfold Scope.noteModule
  split
  · exact borrows_hasImport _
  · exact .refl _

theorem Scope.bind_borrows (s : Scope) (b : Binding) : s.logger.Borrows (s.bind b).logger :=
  borrows_binding _ _

/-- A row of steps that only borrow. -/
theorem foldl_borrows {α : Type} {step : Scope → α → Scope}
    (h : ∀ (s : Scope) (x : α), s.logger.Borrows (step s x).logger) (xs : List α) (s : Scope) :
    s.logger.Borrows (xs.foldl step s).logger :=
  foldl_related (R := fun s t : Scope => s.logger.Borrows t.logger) (fun s => .refl s.logger) Borrows.trans h xs s

theorem foldl_declare_logger (names : List String) (s : Scope) :
    (names.foldl Scope.declare s).logger = s.logger :=
  foldl_related (R := fun s t : Scope => t.logger = s.logger) (fun _ => rfl) (fun h₁ h₂ => h₂.trans h₁)
    (fun s name => show (s.declare name).logger = s.logger from rfl) names s

/-- What a note adds depends on what is known of loggers, and on nothing else that is known. -/
theorem Scope.noteModule_congr {s t : Scope} (h : s.logger = t.logger) (root : String) :
    (s.noteModule root).logger = (t.noteModule root).logger := by
  unfold Scope.noteModule
  split
  · dsimp only
    rw [h]
  · exact h

theorem Scope.bind_congr {s t : Scope} (h : s.logger = t.logger) (b : Binding) :
    (s.bind b).logger = (t.bind b).logger := by
  unfold Scope.bind
  dsimp only
  rw [h]

theorem visitImport_borrows (s : Scope) (n : Node) :
    s.logger.Borrows (visitImport source s n).logger := by
  unfold visitImport
  obtain ⟨dotted, newName⟩ := importedName source n
  dsimp only
  have hnoted := (s.declare (newName.getD (rootModule dotted))).noteModule_borrows (rootModule dotted)
  split
  · split
    · exact hnoted.trans (Scope.bind_borrows _ _)
    · exact hnoted
  · exact hnoted

theorem visitImportFrom_borrows (root : String) (s : Scope) (n : Node) :
    s.logger.Borrows (visitImportFrom source root s n).logger := by
  unfold visitImportFrom
  obtain ⟨imported, newName⟩ := importedName source n
  dsimp only
  -- the local name of a factory comes first, the name of a logger second
  have hname : ∀ (t : Scope) (name : String) (p : Bool), s.logger.Borrows t.logger →
      s.logger.Borrows (if p = true then
        { t with logger := { t.logger with hasImport := true }.addName name } else t).logger := by
    intro t name p ht
    split
    · exact ht.trans ((borrows_hasImport _).trans (borrows_addName _ _))
    · exact ht
  refine hname _ _ _ ?_
  split
  · split
    · exact Scope.bind_borrows (s.declare _) _
    · exact .refl _
  · exact .refl _

theorem createsLogger_eq (logger : LoggerFacts) (value : Node) : createsLogger source logger value =
    (value.kind == .call && (value.child? .callee).any
      (callsFactory source .python loggerFactories ["bind", "getChild", "new"] logger)) := by
  unfold createsLogger
  by_cases hkind : value.kind = .call
  · simp only [hkind, bne_self_eq_false, Bool.false_eq_true, if_false, beq_self_eq_true, Bool.true_and]
    cases value.child? .callee with
    | none => rfl
    | some callee =>
      rw [Option.any_some]
      dsimp only [callsFactory]
      rw [Bool.eq_iff_iff]
      cases callee.child? .object <;> cases callee.child? .property <;> simp [or_assoc]
  · simp [hkind]

theorem createsLogger_mono {a b : LoggerFacts} {value : Node} (h : a.Grows b)
    (hcreates : createsLogger source a value = true) : createsLogger source b value = true := by
  rw [createsLogger_eq, Bool.and_eq_true, Option.any_eq_true] at hcreates ⊢
  obtain ⟨hkind, callee, hcallee, hcreates⟩ := hcreates
  exact ⟨hkind, callee, hcallee, callsFactory_mono h hcreates⟩

theorem visitAssignment_grows (s : Scope) (n : Node) :
    s.logger.Grows (visitAssignment source s n).logger := by
  unfold visitAssignment
  split
  · exact .refl _
  · rename_i left _
    have hdeclared := foldl_declare_logger (boundNames source (source.length + 1) left) s
    dsimp only
    split
    · rw [hdeclared]
      exact .refl _
    · split
      · rw [hdeclared]
        exact grows_addInstance _ _
      · rw [hdeclared]
        exact .refl _

/-- **A statement only adds to what is known.** -/
theorem visit_grows (s : Scope) (n : Node) : s.logger.Grows (visit source s n).logger := by
  unfold visit
  dsimp only
  generalize (if n.kind == .decorated then (n.child? .definition).getD n else n) = statement
  split
  · exact (foldl_borrows visitImport_borrows _ s).grows
  · exact ((s.noteModule_borrows _).trans (foldl_borrows (visitImportFrom_borrows _) _ _)).grows
  · split <;> exact .refl _
  · split <;> exact .refl _
  · split
    · split
      · exact visitAssignment_grows s _
      · exact .refl _
    · exact .refl _
  · exact .refl _

/-- A comment adds nothing. -/
theorem visit_comment {s : Scope} {n : Node} (h : n.kind = .comment) :
    (visit source s n).logger = s.logger := by
  have hself : (if n.kind == .decorated then (n.child? .definition).getD n else n) = n :=
    if_neg (by rw [h]; decide)
  unfold visit
  dsimp only
  rw [hself, h]

end Python

end Facts

/-! ## A whole file -/

namespace ParsedFile

/-- What a walk over some statements of a file knows of loggers. -/
def loggersOf (f : ParsedFile) (statements : List Node) : LoggerFacts :=
  match f.grammar.family with
  | .javascript => (statements.foldl (Facts.JavaScript.visit f.source) {}).logger
  | .python => (statements.foldl (Facts.Python.visit f.source) {}).logger

theorem facts_logger (f : ParsedFile) : f.facts.logger = f.loggersOf f.tree.namedChildren := by
  unfold facts loggersOf
  cases f.grammar <;> rfl

theorem loggersOf_nil (f : ParsedFile) : f.loggersOf [] = {} := by
  unfold loggersOf
  cases f.grammar.family <;> rfl

/-- More statements only add to what is known. -/
theorem loggersOf_grows (f : ParsedFile) (front back : List Node) :
    (f.loggersOf front).Grows (f.loggersOf (front ++ back)) := by
  unfold loggersOf
  cases f.grammar.family with
  | javascript =>
    dsimp only
    rw [List.foldl_append]
    exact Facts.JavaScript.foldl_grows Facts.JavaScript.visit_grows back _
  | python =>
    dsimp only
    rw [List.foldl_append]
    exact Facts.foldl_related (R := fun s t : Facts.Python.Scope => s.logger.Grows t.logger)
      (fun s => .refl s.logger) LoggerFacts.Grows.trans Facts.Python.visit_grows back _

/-- **A logger is reported if and only if there is one to prefer.** -/
theorem counted_facts (f : ParsedFile) : f.facts.logger.Counted := by
  have hgrows := f.loggersOf_grows [] f.tree.namedChildren
  rw [List.nil_append, ← facts_logger, loggersOf_nil] at hgrows
  exact hgrows.counted .empty

end ParsedFile

end LogHygiene
