import LogHygiene.Proofs.Facts.CallSites
import LogHygiene.Proofs.Facts.Grounding
import LogHygiene.Proofs.Logger.Recognition

/-!
# A logger that is set up is read as one

Two statements set a logger up: one binds a backend to a name, the other creates the logger from what was
bound. The template for the second takes any binding there is, whoever wrote the first. If the rules then read
something else than that logger, each further run adds another one.

> **the two statements are read as the logger that they set up, unless a pattern takes a factory out of what
> `require` gives and renames it** (`ParsedFile.setsUp_iff`).

`Establishes` lists the statements by what they do in their language, where the exception has no ground:
`import { createLogger as make } from 'winston'` and `const { createLogger: make } = require('winston')` do
the same. But only the first is looked up by the name that the factory has in the package (`visit_of_imports`).
The second is looked up by the name that it gets in the file (`visit_of_requires`), which the package does not
know.
-/

set_option autoImplicit false

namespace LogHygiene

open Syntax

/-- The names under which a package offers a factory of loggers. -/
def Backend.factories : Backend → List String
  | pino => ["pino", "default"]
  | winston => ["createLogger"]
  | logging => ["getLogger"]
  | structlog => ["get_logger", "getLogger"]

/-- What is taken from a package, under its name there or as a whole, makes loggers. -/
inductive Backend.Offers (backend : Backend) : Option String → BindingKind → Prop
  | whole : backend.Offers none .module
  | factory {exported : String} (h : exported ∈ backend.factories) : backend.Offers (some exported) .factory

theorem Backend.ofModule?_module {backend : Backend} {family : Family} (h : backend.family = family) :
    ofModule? family backend.module = some backend := by
  subst h
  cases backend <;> decide

/-- A node is a string that says a text. -/
def Syntax.Node.Says (source : Bytes) (text : String) (n : Node) : Prop :=
  n.kind = .string ∧ (n.text source = "'" ++ text ++ "'" ∨ n.text source = "\"" ++ text ++ "\"")

namespace LoggerFacts

/-- A package that provides loggers was taken in, and with it a binding, unless there is one. -/
def takeIn (l : LoggerFacts) (made : Option Binding) : LoggerFacts :=
  { l with hasImport := true, binding := l.binding.or made }

/-- Note the local name of a factory where names that read like loggers are noted. -/
def noteFactory (l : LoggerFacts) (family : Family) (b : Binding) : LoggerFacts :=
  if family = .python ∧ b.kind = .factory ∧ looksLikeLogger b.name = true then l.addName b.name else l

/-- All that is known is that `name` was created from `b`. -/
structure SetsUp (l : LoggerFacts) (family : Family) (b : Binding) (name : String) : Prop where
  binding : l.binding = some b
  instantiated : l.instantiated = [name]
  preferred : l.preferred? = some name
  names : l.names = if family = .python ∧ b.kind = .factory ∧ looksLikeLogger b.name = true then
    [b.name, name] else [name]

/-- A logger that is created from the one thing that was bound is all there is. -/
theorem setsUp_addInstance (family : Family) {b : Binding} {name : String} (hname : name ≠ b.name) :
    (((takeIn {} (some b)).noteFactory family b).addInstance name).SetsUp family b name := by
  unfold noteFactory
  split
  · rename_i hnoted
    have hnew : [b.name].contains name = false := by simp [hname]
    refine ⟨rfl, rfl, rfl, ?_⟩
    rw [if_pos hnoted]
    show insertNew [b.name] name = [b.name, name]
    rw [insertNew, hnew]
    rfl
  · rename_i hnot
    refine ⟨rfl, rfl, rfl, ?_⟩
    rw [if_neg hnot]
    rfl

end LoggerFacts

/-- A binding that is known gives a factory that is recognised, whatever the name. -/
theorem Binding.recognized_of_known {family : Family} {b : Binding} {l : LoggerFacts}
    (hword : ∀ c ∈ b.name.toList, Text.isBlank c = false) (h : l.binding = some b) :
    b.recognized family l = true := by
  have hplain : ∀ s : String, (∀ c ∈ s.toList, Text.isBlank c = false) → Text.withoutBlanks s = s := by
    intro s hs
    rw [Text.withoutBlanks, List.filter_eq_self.mpr fun c hc => by rw [hs c hc]; rfl, String.ofList_toList]
  have hfactory : Text.withoutBlanks (b.factory family) = b.factory family := by
    refine hplain _ ?_
    rcases b.factory_cases family with ⟨hname, -⟩ | ⟨method, hmethod, hdotted, -⟩
    · rw [hname]
      exact hword
    · have hmethods : ∀ method ∈ ["createLogger", "get_logger", "getLogger"],
          ("." ++ method).toList.all (fun c => !Text.isBlank c) = true := by decide
      rw [hdotted, String.append_assoc, String.toList_append]
      intro c hc
      rcases List.mem_append.mp hc with hc | hc
      · exact hword c hc
      · simpa using List.all_eq_true.mp (hmethods method hmethod) c hc
  rw [recognized, h, hfactory, Option.any_some, beq_self_eq_true, Bool.or_true]

namespace Facts

variable {source : Bytes} {backend : Backend} {exported : Option String} {name : String} {n : Node}

/-! ## JavaScript and TypeScript -/

namespace JavaScript

/-- A part of an import clause binds one name, to what a module exports or to the whole of it. -/
inductive Part (source : Bytes) : Option String → String → Node → Prop
  | plain {word : Node} (hkind : word.kind = .identifier) : Part source none (word.text source) word
  | namespaced {part word : Node} (hkind : part.kind = .namespaceImport) (hword : part.namedChildren = [word]) :
      Part source none (word.text source) part
  | specified {part specifier word : Node} (hkind : part.kind = .namedImports)
      (hspecifier : part.namedChildren = [specifier]) (hspecified : specifier.kind = .importSpecifier)
      (hword : specifier.child? .name = some word) :
      Part source (some (word.text source)) (((specifier.child? .alias).getD word).text source) part

/-- An import statement binds one name. -/
structure Imports (source : Bytes) (module : String) (exported : Option String) (name : String) (n : Node) :
    Prop where
  kind : n.kind = .importStatement
  module : ∃ word, n.child? .source = some word ∧ word.Says source module
  part : ∃ part, (n.namedChildren.filter (·.kind == .importClause)).flatMap Node.namedChildren = [part] ∧
    Part source exported name part

/-- A target binds one name, to a member of what it gets or to the whole of it. -/
inductive Target (source : Bytes) : Option String → String → Node → Prop
  | plain {word : Node} (hkind : word.kind = .identifier) : Target source none (word.text source) word
  | kept {target word : Node} (hkind : target.kind = .objectPattern) (hpart : target.namedChildren = [word])
      (hword : word.kind = .shorthandPattern) :
      Target source (some (word.text source)) (word.text source) target
  | renamed {target pair key word : Node} (hkind : target.kind = .objectPattern)
      (hpart : target.namedChildren = [pair]) (hpair : pair.kind = .pairPattern)
      (hkey : pair.namedChildren.head? = some key) (hvalue : pair.child? .value = some word)
      (hword : word.kind = .identifier) :
      Target source (some (key.text source)) (word.text source) target

/-- A call asks for a module. -/
structure Asks (source : Bytes) (module : String) (n : Node) : Prop where
  kind : n.kind = .call
  callee : ∃ word, n.child? .callee = some word ∧ word.kind = .identifier ∧ word.text source = "require"
  argument : ∃ list word, n.child? .arguments = some list ∧ list.namedChildren.head? = some word ∧
    word.Says source module

/-- A declaration binds one name of a module that it asks for. -/
structure Requires (source : Bytes) (module : String) (exported : Option String) (name : String) (n : Node) :
    Prop where
  kind : n.kind = .lexicalDeclaration ∨ n.kind = .variableDeclaration
  declarator : ∃ d target value, n.namedChildren.filter (·.kind == .declarator) = [d] ∧
    d.child? .name = some target ∧ Target source exported name target ∧
    d.child? .value = some value ∧ Asks source module (unwrapped source value)

theorem stringValue?_of_says (h : n.Says source backend.module) :
    stringValue? source n = some backend.module := by
  obtain ⟨hkind, htext⟩ := h
  rw [stringValue?, hkind, if_pos (by rfl)]
  rcases htext with htext | htext <;> rw [htext] <;> cases backend <;> decide

theorem requireSource?_of_asks (h : Asks source backend.module n) :
    requireSource? source n = some backend.module := by
  obtain ⟨word, hcallee, hword, htext⟩ := h.callee
  obtain ⟨list, argument, hlist, hargument, hsays⟩ := h.argument
  rw [requireSource?_eq, if_pos h.kind, hcallee, Option.bind_some, if_pos ⟨hword, htext⟩, hlist,
    Option.bind_some, hargument, Option.bind_some, stringValue?_of_says hsays]

/-- A text that asks for a module is long enough for the names of any target. -/
theorem Asks.seven_le_length {module : String} (h : Asks source module n) : 7 ≤ source.length := by
  obtain ⟨word, -, -, htext⟩ := h.callee
  have hslice : source.slice word.start word.stop = Bytes.ofText "require" :=
    Bytes.slice_of_textBetween htext (by decide)
  have hwidth : (Bytes.ofText "require").length = 7 := by decide
  have hlength := congrArg List.length hslice
  rw [hwidth, Bytes.slice, List.length_take, List.length_drop] at hlength
  omega

/-- The one name that a target binds. -/
theorem declaredNames_of_target (h : Target source exported name n) (hlength : 2 ≤ source.length) :
    declaredNames source n = [name] := by
  obtain ⟨i, hi⟩ : ∃ i, source.length + 1 = i + 1 + 1 + 1 := ⟨source.length - 2, by omega⟩
  rw [declaredNames_eq, hi]
  cases h with
  | plain hkind =>
    rw [hkind]
    exact boundNames_of_word (.inl hkind)
  | kept hkind hpart hword =>
    rw [hkind, boundNames_of_other (by simp [hkind]) (by simp [hkind]), hpart, List.flatMap_singleton]
    exact boundNames_of_word (.inr hword)
  | renamed hkind hpart hpair _ hvalue hword =>
    rw [hkind, boundNames_of_other (by simp [hkind]) (by simp [hkind]), hpart, List.flatMap_singleton,
      boundNames_of_pair hpair, hvalue]
    exact boundNames_of_word (.inl hword)

/-- A target is a plain name exactly if it takes the whole. -/
theorem exported_of_target (h : Target source exported name n) :
    (if n.kind == .identifier then none else some name) = exported.map fun _ => name := by
  cases h with
  | plain hkind => rw [hkind]; rfl
  | kept hkind => rw [hkind]; rfl
  | renamed hkind => rw [hkind]; rfl

/-- A name taken out of a backend's package leaves a binding, if it stands for something in the package. -/
theorem Scope.bind_backend (hfamily : backend.family = .javascript) (s : Scope) (name : String)
    (exported : Option String) :
    ((s.noteModule backend.module).bind backend.module name exported).logger =
      s.logger.takeIn ((bindingKind? backend exported).map fun kind => ⟨backend, name, kind⟩) := by
  have hmodule := Backend.ofModule?_module hfamily
  rw [Scope.noteModule, if_pos (isLoggerModule_of_backend hmodule), Scope.bind, hmodule]
  rfl

/-- The rules know what the packages offer. -/
theorem bindingKind?_eq_some_iff (hfamily : backend.family = .javascript) {kind : BindingKind} :
    bindingKind? backend exported = some kind ↔ backend.Offers exported kind := by
  cases exported with
  | none =>
    constructor
    · intro h
      obtain rfl := Option.some.inj h
      exact .whole
    · rintro ⟨⟩
      rfl
  | some x =>
    have hlisted : bindingKind? backend (some x) = if x ∈ backend.factories then some .factory else none := by
      cases backend with
      | pino => simp [bindingKind?, Backend.factories]
      | winston => simp [bindingKind?, Backend.factories]
      | logging | structlog => exact absurd hfamily (by decide)
    rw [hlisted]
    constructor
    · intro h
      obtain ⟨hx, hkind⟩ := Option.ite_none_right_eq_some.mp h
      obtain rfl := Option.some.inj hkind
      exact .factory hx
    · rintro (_ | hx)
      exact if_pos hx

/-- **An import statement is looked up by the name in the package.** -/
theorem visit_of_imports (hfamily : backend.family = .javascript)
    (h : Imports source backend.module exported name n) (s : Scope) :
    (visit source s n).logger =
      s.logger.takeIn ((bindingKind? backend exported).map fun kind => ⟨backend, name, kind⟩) := by
  obtain ⟨word, hword, hsays⟩ := h.module
  obtain ⟨part, hparts, hpart⟩ := h.part
  have hvisit : visit source s n = visitImport source s n := by
    simp [visit, h.kind]
  have hbound : ∀ t : Scope, visitImportPart source backend.module t part =
      t.bind backend.module name exported := by
    intro t
    cases hpart with
    | plain hkind => rw [visitImportPart, hkind]
    | namespaced hkind hword => rw [visitImportPart, hkind, hword]
    | specified hkind hspecifier hspecified hword =>
      simp [visitImportPart, hkind, hspecifier, visitSpecifier, hspecified, hword]
  rw [hvisit]
  unfold visitImport
  simp only [hword, Option.bind_some, stringValue?_of_says hsays, hparts, List.foldl_cons, List.foldl_nil, hbound]
  exact Scope.bind_backend hfamily _ name exported

/-- **A declaration is looked up by the name in the file.** -/
theorem visit_of_requires (hfamily : backend.family = .javascript)
    (h : Requires source backend.module exported name n) (s : Scope) :
    (visit source s n).logger =
      s.logger.takeIn ((bindingKind? backend (exported.map fun _ => name)).map fun kind =>
        ⟨backend, name, kind⟩) := by
  obtain ⟨d, target, value, hd, htarget, hbinds, hvalue, hasks⟩ := h.declarator
  have hnames := declaredNames_of_target hbinds (Nat.le_trans (by decide) hasks.seven_le_length)
  have hvisit : visit source s n = visitDeclarator source s d := by
    rcases h.kind with hkind | hkind <;> simp [visit, hkind, hd]
  rw [hvisit]
  unfold visitDeclarator
  simp only [htarget, hnames, hvalue, Option.map_some, requireSource?_of_asks hasks, List.foldl_cons,
    List.foldl_nil, exported_of_target hbinds]
  exact Scope.bind_backend hfamily { s.declare name with hasRequire := true } name _

/-- What is imported and makes loggers is bound. -/
theorem visit_of_imports_offered {kind : BindingKind} (hfamily : backend.family = .javascript)
    (hoffers : backend.Offers exported kind) (h : Imports source backend.module exported name n) (s : Scope) :
    (visit source s n).logger = s.logger.takeIn (some ⟨backend, name, kind⟩) := by
  rw [visit_of_imports hfamily h, (bindingKind?_eq_some_iff hfamily).mpr hoffers]
  rfl

/-- What is required and makes loggers is bound, but a factory only under a name that the package offers. -/
theorem visit_of_requires_offered {kind : BindingKind} (hfamily : backend.family = .javascript)
    (hoffers : backend.Offers exported kind) (h : Requires source backend.module exported name n) (s : Scope) :
    (visit source s n).logger = s.logger.takeIn
      (if kind = .factory → name ∈ backend.factories then some ⟨backend, name, kind⟩ else none) := by
  rw [visit_of_requires hfamily h]
  cases hoffers with
  | whole =>
    have hkind : bindingKind? backend none = some .module := (bindingKind?_eq_some_iff hfamily).mpr .whole
    rw [Option.map_none, hkind, if_pos (by rintro ⟨⟩)]
    rfl
  | factory =>
    rw [Option.map_some]
    split
    · rename_i hoffered
      rw [(bindingKind?_eq_some_iff hfamily).mpr (.factory (hoffered rfl))]
      rfl
    · rename_i hrenamed
      have hnone : bindingKind? backend (some name) = none := by
        refine Option.eq_none_iff_forall_ne_some.mpr fun kind hkind => hrenamed fun _ => ?_
        cases (bindingKind?_eq_some_iff hfamily).mp hkind with
        | factory hoffered => exact hoffered
      rw [hnone]
      rfl

/-- The import that is put in binds the package under its own name. -/
theorem imports_importNode {start : Nat} (h : source.Shows start (importStatement .javascript .es backend)) :
    Imports source backend.module none backend.module (source.importNode .javascript .es backend start) := by
  let m := Bytes.widthOf backend.module
  let word := source.node .identifier .none (start + 7) (start + 7 + m) []
  let quoted := source.node .string .source (start + 13 + m) (start + 15 + m + m) []
  have hsplit : importStatement .javascript .es backend =
      "import " ++ backend.module ++ (" from '" ++ backend.module ++ "';") := by cases backend <;> decide
  have hquoted : importStatement .javascript .es backend =
      "import " ++ backend.module ++ " from " ++ ("'" ++ backend.module ++ "'") ++ ";" := by
    cases backend <;> decide
  have hword : word.text source = backend.module :=
    Bytes.text_node (h.piece hsplit rfl) rfl
  have htext : quoted.text source = "'" ++ backend.module ++ "'" := by
    refine Bytes.text_node (h.piece hquoted ?_) ?_
    · rw [Bytes.widthOf_append, Bytes.widthOf_append]
      show start + 13 + m = start + (7 + m + 6)
      omega
    · rw [Bytes.widthOf_append, Bytes.widthOf_append]
      show start + 15 + m + m = start + 13 + m + (1 + m + 1)
      omega
  have hpart : Part source none backend.module word := hword ▸ .plain rfl
  exact ⟨rfl, ⟨quoted, rfl, rfl, .inl htext⟩, ⟨word, rfl, hpart⟩⟩

/-- The declaration that is put in binds the package under its own name. -/
theorem requires_importNode {start : Nat}
    (h : source.Shows start (importStatement .javascript .commonJs backend)) :
    Requires source backend.module none backend.module
      (source.importNode .javascript .commonJs backend start) := by
  let m := Bytes.widthOf backend.module
  let word := source.node .identifier .name (start + 6) (start + 6 + m) []
  let callee := source.node .identifier .callee (start + 9 + m) (start + 16 + m) []
  let quoted := source.node .string .none (start + 17 + m) (start + 19 + m + m) []
  let list := source.node .clause .arguments (start + 16 + m) (start + 20 + m + m) [quoted]
  let value := source.node .call .value (start + 9 + m) (start + 20 + m + m) [callee, list]
  have hsplit : importStatement .javascript .commonJs backend =
      "const " ++ backend.module ++ (" = require('" ++ backend.module ++ "');") := by cases backend <;> decide
  have hquoted : importStatement .javascript .commonJs backend =
      "const " ++ backend.module ++ " = require(" ++ ("'" ++ backend.module ++ "'") ++ ");" := by
    cases backend <;> decide
  have hword : word.text source = backend.module :=
    Bytes.text_node (h.piece hsplit rfl) rfl
  have hcallee : callee.text source = "require" := by
    refine Bytes.text_node (Bytes.require_shows h) ?_
    show start + 16 + m = start + 9 + m + 7
    omega
  have htext : quoted.text source = "'" ++ backend.module ++ "'" := by
    refine Bytes.text_node (h.piece hquoted ?_) ?_
    · rw [Bytes.widthOf_append, Bytes.widthOf_append]
      show start + 17 + m = start + (6 + m + 11)
      omega
    · rw [Bytes.widthOf_append, Bytes.widthOf_append]
      show start + 19 + m + m = start + 17 + m + (1 + m + 1)
      omega
  have htarget : Target source none backend.module word := hword ▸ .plain rfl
  have hunwrapped : unwrapped source value = value := unwrapped_of_call rfl
  have hasks : Asks source backend.module (unwrapped source value) := by
    rw [hunwrapped]
    exact ⟨rfl, ⟨callee, rfl, rfl, hcallee⟩, ⟨list, quoted, rfl, rfl, rfl, .inl htext⟩⟩
  exact ⟨.inl rfl, ⟨_, word, value, rfl, rfl, htarget, rfl, hasks⟩⟩

end JavaScript

/-! ## Python -/

namespace Python

/-- A part of an import binds a name to something with a name of its own. -/
inductive Part (source : Bytes) : String → String → Node → Prop
  | plain {word : Node} (hkind : word.kind ≠ .aliasedImport) :
      Part source (word.text source) (word.text source) word
  | renamed {part key word : Node} (hkind : part.kind = .aliasedImport) (hkey : part.child? .name = some key)
      (hword : part.child? .alias = some word) : Part source (key.text source) (word.text source) part

/-- An import statement binds one name, to something that a package exports or to the whole of it. To import
what is inside a package under no name of its own binds the package. -/
inductive Imports (source : Bytes) (package : String) : Option String → String → Node → Prop
  | whole {n part : Node} {name : String} (hkind : n.kind = .importStatement)
      (hpart : n.childrenIn .name = [part]) (hbinds : Part source package name part) :
      Imports source package none name n
  | inner {n part : Node} {rest : String} (hkind : n.kind = .importStatement)
      (hpart : n.childrenIn .name = [part]) (hplain : part.kind ≠ .aliasedImport)
      (htext : part.text source = package ++ "." ++ rest) : Imports source package none package n
  | exported {n origin part : Node} {imported name : String} (hkind : n.kind = .importFrom)
      (horigin : n.child? .moduleName = some origin)
      (hwithin : origin.text source = package ∨ ∃ rest, origin.text source = package ++ "." ++ rest)
      (hpart : n.childrenIn .name = [part]) (hbinds : Part source imported name part) :
      Imports source package (some imported) name n

theorem rootModule_module (backend : Backend) : rootModule backend.module = backend.module := by
  cases backend <;> decide

theorem rootModule_inner (backend : Backend) (rest : String) :
    rootModule (backend.module ++ "." ++ rest) = backend.module := by
  have hplain : backend.module.toList.all (· != '.') = true := by cases backend <;> decide
  have hdot : (backend.module ++ "." ++ rest).toList = backend.module.toList ++ '.' :: rest.toList := by
    simp [String.toList_append]
  have hstop : ('.' :: rest.toList).takeWhile (· != '.') = [] := List.takeWhile_cons_of_neg (by decide)
  rw [rootModule, hdot, List.takeWhile_append_of_pos (List.all_eq_true.mp hplain), hstop, List.append_nil,
    String.ofList_toList]

/-- What a part is read as: the name of its own, and the other that it gets if it gets one. -/
theorem importedName_of_part {imported : String} (h : Part source imported name n) :
    ∃ newName, importedName source n = (imported, newName) ∧ newName.getD imported = name := by
  cases h with
  | plain hkind => exact ⟨none, by simp [importedName, hkind], rfl⟩
  | renamed hkind hkey hword => exact ⟨some _, by rw [importedName, hkind, hkey, hword]; rfl, rfl⟩

theorem Scope.bind_backend (hfamily : backend.family = .python) (s : Scope) (b : Binding) :
    ((s.noteModule backend.module).bind b).logger = s.logger.takeIn (some b) := by
  rw [Scope.noteModule, if_pos (loggerModules_of_backend (Backend.ofModule?_module hfamily))]
  rfl

theorem visit_importStatement {part : Node} (hkind : n.kind = .importStatement)
    (hpart : n.childrenIn .name = [part]) (s : Scope) : visit source s n = visitImport source s part := by
  simp [visit, hkind, hpart]

/-- What an import statement binds is noted, whatever it is called there. -/
theorem visitImport_backend {dotted : String} {newName : Option String} (hfamily : backend.family = .python)
    (himported : importedName source n = (dotted, newName)) (hroot : rootModule dotted = backend.module)
    (hwhole : newName = none ∨ dotted = backend.module) (s : Scope) :
    (visitImport source s n).logger =
      s.logger.takeIn (some ⟨backend, newName.getD backend.module, .module⟩) := by
  have hbinds : (newName.isNone || dotted == backend.module) = true := by
    rcases hwhole with rfl | rfl
    · rfl
    · rw [beq_self_eq_true, Bool.or_true]
  unfold visitImport
  simp only [himported, hroot, Backend.ofModule?_module hfamily, hbinds, if_true]
  exact Scope.bind_backend hfamily (s.declare _) _

/-- A factory that is taken out of its package is noted, and so is its local name if that reads like a
logger. -/
theorem visitImportFrom_backend {imported : String} {newName : Option String}
    (hfamily : backend.family = .python) (himported : importedName source n = (imported, newName))
    (hoffered : imported ∈ backend.factories) (s : Scope) :
    let b : Binding := ⟨backend, newName.getD imported, .factory⟩
    (visitImportFrom source backend.module (s.noteModule backend.module) n).logger =
      (s.logger.takeIn (some b)).noteFactory .python b := by
  intro b
  have hfactory : (imported == "getLogger" || imported == "get_logger") = true := by
    cases backend with
    | logging => simp_all [Backend.factories]
    | structlog => simp_all [Backend.factories, or_comm]
    | pino | winston => exact absurd hfamily (by decide)
  have hother : (backend.module == "loguru") = false := by cases backend <;> decide
  have hbound : (Scope.bind ((s.noteModule backend.module).declare b.name) b).logger = s.logger.takeIn (some b) :=
    Scope.bind_backend hfamily s b
  unfold visitImportFrom
  simp only [himported, Backend.ofModule?_module hfamily, hfactory, if_true, hother, Bool.false_and,
    Bool.false_or]
  by_cases hreads : looksLikeLogger b.name = true
  · rw [if_pos hreads, LoggerFacts.noteFactory, if_pos ⟨rfl, rfl, hreads⟩]
    show LoggerFacts.addName
      { (Scope.bind ((s.noteModule backend.module).declare b.name) b).logger with hasImport := true } b.name = _
    rw [hbound]
    rfl
  · rw [if_neg hreads, LoggerFacts.noteFactory, if_neg fun h => hreads h.2.2]
    exact hbound

/-- **An import statement leaves its binding, and the name of a factory if that reads like a logger.** -/
theorem visit_of_imports {kind : BindingKind} (hfamily : backend.family = .python)
    (h : Imports source backend.module exported name n) (hoffers : backend.Offers exported kind) (s : Scope) :
    (visit source s n).logger =
      (s.logger.takeIn (some ⟨backend, name, kind⟩)).noteFactory .python ⟨backend, name, kind⟩ := by
  have hmodule : ∀ (l : LoggerFacts) (name : String),
      l.noteFactory .python ⟨backend, name, .module⟩ = l := fun l name => if_neg fun h => nomatch h.2.1
  cases h with
  | whole hkind hpart hbinds =>
    obtain ⟨newName, himported, rfl⟩ := importedName_of_part hbinds
    cases hoffers
    rw [visit_importStatement hkind hpart, hmodule]
    exact visitImport_backend hfamily himported (rootModule_module backend) (.inr rfl) s
  | @inner n part rest hkind hpart hplain htext =>
    cases hoffers
    have himported : importedName source part = (backend.module ++ "." ++ rest, none) := by
      simp [importedName, hplain, htext]
    rw [visit_importStatement hkind hpart, hmodule]
    exact visitImport_backend hfamily himported (rootModule_inner backend rest) (.inl rfl) s
  | @exported n origin part imported _ hkind horigin hwithin hpart hbinds =>
    obtain ⟨newName, himported, rfl⟩ := importedName_of_part hbinds
    have hroot : rootModule (origin.text source) = backend.module := by
      rcases hwithin with htext | ⟨rest, htext⟩
      · rw [htext, rootModule_module]
      · rw [htext, rootModule_inner]
    have hvisit : visit source s n =
        visitImportFrom source backend.module (s.noteModule backend.module) part := by
      simp [visit, hkind, hpart, horigin, hroot]
    cases hoffers with
    | factory hoffered =>
      rw [hvisit]
      exact visitImportFrom_backend hfamily himported hoffered s

/-- The import that is put in binds the package under its own name. -/
theorem imports_importNode {start : Nat} {style : ModuleStyle}
    (h : source.Shows start (importStatement .python style backend)) :
    Imports source backend.module none backend.module (source.importNode .python style backend start) := by
  let word := source.node .expression .name (start + 7) (start + 7 + Bytes.widthOf backend.module) []
  have hword : word.text source = backend.module := Bytes.text_node (Bytes.Shows.right h) rfl
  have hpart : Part source backend.module backend.module word := by
    have hplain : Part source (word.text source) (word.text source) word :=
      .plain (show Kind.expression ≠ .aliasedImport by decide)
    rwa [hword] at hplain
  exact .whole rfl rfl hpart

end Python

end Facts

/-! ## A whole file -/

/-- A statement binds a backend to a name, in one of the styles of its family: the statement that is put in, or
one that somebody wrote. -/
inductive Establishes (source : Bytes) (b : Binding) : Family → ModuleStyle → Node → Prop
  | printed {family : Family} {style : ModuleStyle} {start : Nat} (hfresh : b = .fresh b.backend)
      (h : source.Shows start (importStatement family style b.backend)) :
      Establishes source b family style (source.importNode family style b.backend start)
  | imports {exported : Option String} {n : Node} (hoffers : b.backend.Offers exported b.kind)
      (h : Facts.JavaScript.Imports source b.backend.module exported b.name n) :
      Establishes source b .javascript .es n
  | requires {exported : Option String} {n : Node} (hoffers : b.backend.Offers exported b.kind)
      (h : Facts.JavaScript.Requires source b.backend.module exported b.name n) :
      Establishes source b .javascript .commonJs n
  | package {exported : Option String} {n : Node} (hoffers : b.backend.Offers exported b.kind)
      (h : Facts.Python.Imports source b.backend.module exported b.name n) :
      Establishes source b .python .es n

/-- A logger that is created among the top statements of a file of a family is noted exactly if its factory is
recognised there. -/
theorem ParsedFile.loggersOf_instance {f : ParsedFile} {b : Binding} {name : String} {start : Nat}
    (h : f.source.Shows start (instanceStatement f.grammar.family b name)) (front : List Node) :
    f.loggersOf (front ++ [f.source.instanceNode f.grammar.family b name start]) =
      if b.recognized f.grammar.family (f.loggersOf front) then (f.loggersOf front).addInstance name
      else f.loggersOf front := by
  unfold loggersOf
  generalize f.grammar.family = family at h ⊢
  cases family with
  | javascript =>
    dsimp only
    rw [List.foldl_append]
    exact Facts.JavaScript.visit_instanceNode h _
  | python =>
    dsimp only
    rw [List.foldl_append]
    exact Facts.Python.visit_instanceNode h _

/-- **What a statement that binds a backend leaves known**: the binding, unless it is a required factory that
was renamed. -/
theorem ParsedFile.loggersOf_establishing {f : ParsedFile} {b : Binding} {style : ModuleStyle} {s : Node}
    (hfamily : b.backend.family = f.grammar.family) (hs : Establishes f.source b f.grammar.family style s) :
    f.loggersOf [s] =
      if style = .commonJs → b.kind = .factory → b.name ∈ b.backend.factories then
        (LoggerFacts.takeIn {} (some b)).noteFactory f.grammar.family b
      else LoggerFacts.takeIn {} none := by
  unfold loggersOf
  generalize f.grammar.family = family at hfamily hs ⊢
  obtain ⟨backend, name, kind⟩ := b
  have hjavascript : ∀ (l : LoggerFacts) (b : Binding), l.noteFactory .javascript b = l :=
    fun l b => if_neg fun h => nomatch h.1
  cases hs with
  | imports hoffers h =>
    rw [if_pos (by rintro ⟨⟩), hjavascript]
    exact Facts.JavaScript.visit_of_imports_offered hfamily hoffers h {}
  | requires hoffers h =>
    have hvisit := Facts.JavaScript.visit_of_requires_offered hfamily hoffers h {}
    rw [hjavascript]
    by_cases hoffered : kind = .factory → name ∈ backend.factories
    · rw [if_pos hoffered] at hvisit
      rw [if_pos fun _ => hoffered]
      exact hvisit
    · rw [if_neg hoffered] at hvisit
      rw [if_neg fun h => hoffered (h rfl)]
      exact hvisit
  | package hoffers h =>
    rw [if_pos (by rintro ⟨⟩)]
    exact Facts.Python.visit_of_imports hfamily h hoffers {}
  | @printed _ style start hfresh h =>
    obtain ⟨rfl, rfl⟩ : name = backend.module ∧ kind = .module := by simpa [Binding.fresh] using hfresh
    rw [if_pos (by rintro - ⟨⟩)]
    -- which node it is does not matter any more once it is known to bind the package
    generalize hnode : f.source.importNode family style backend start = n
    cases family with
    | javascript =>
      rw [hjavascript]
      cases style with
      | es =>
        have hbinds := Facts.JavaScript.imports_importNode h
        rw [hnode] at hbinds
        exact Facts.JavaScript.visit_of_imports_offered hfamily .whole hbinds {}
      | commonJs =>
        have hbinds := Facts.JavaScript.requires_importNode h
        rw [hnode] at hbinds
        have hvisit := Facts.JavaScript.visit_of_requires_offered hfamily .whole hbinds {}
        rw [if_pos (by rintro ⟨⟩)] at hvisit
        exact hvisit
    | python =>
      have hbinds := Facts.Python.imports_importNode h
      rw [hnode] at hbinds
      exact Facts.Python.visit_of_imports hfamily hbinds .whole {}

/-- **A logger that is set up is read as one**, from whatever binding and under whatever name, unless the
binding is a factory that a declaration requires under a name that the package does not offer. -/
theorem ParsedFile.setsUp_iff {f : ParsedFile} {b : Binding} {style : ModuleStyle} {s : Node} {name : String}
    {start : Nat} (hfamily : b.backend.family = f.grammar.family)
    (hword : ∀ c ∈ b.name.toList, Text.isBlank c = false) (hname : name ≠ b.name)
    (hs : Establishes f.source b f.grammar.family style s)
    (hshows : f.source.Shows start (instanceStatement f.grammar.family b name))
    (hrow : f.tree.namedChildren = [s, f.source.instanceNode f.grammar.family b name start]) :
    f.facts.logger.SetsUp f.grammar.family b name ↔
      (style = .commonJs → b.kind = .factory → b.name ∈ b.backend.factories) := by
  have hfirst := loggersOf_establishing hfamily hs
  have hlogger : f.facts.logger =
      if b.recognized f.grammar.family (f.loggersOf [s]) then (f.loggersOf [s]).addInstance name
      else f.loggersOf [s] := by
    rw [facts_logger, hrow]
    exact loggersOf_instance hshows [s]
  constructor
  · intro hup
    by_contra hrenamed
    rw [if_neg hrenamed] at hfirst
    have hnone : f.facts.logger.binding = none := by
      rw [hlogger, hfirst]
      split <;> rfl
    rw [hup.binding] at hnone
    exact absurd hnone (by simp)
  · intro hkept
    rw [if_pos hkept] at hfirst
    have hknown : (f.loggersOf [s]).binding = some b := by
      rw [hfirst, LoggerFacts.noteFactory]
      split <;> rfl
    rw [hlogger, if_pos (b.recognized_of_known hword hknown), hfirst]
    exact LoggerFacts.setsUp_addInstance f.grammar.family hname

/-- A factory that is imported under another name, and a logger that is created from it. -/
def aliasedFactory : ParsedFile :=
  let source := Bytes.ofText "import \x7b createLogger as make \x7d from 'winston';\nconst audit = make();\n"
  ⟨"a.js", source, .javascript, Grammar.javascript.tree source⟩

/-- The same, with a declaration. -/
def renamedFactory : ParsedFile :=
  let source := Bytes.ofText "const \x7b createLogger: make \x7d = require('winston');\nconst audit = make();\n"
  ⟨"a.js", source, .javascript, Grammar.javascript.tree source⟩

theorem aliasedFactory_establishes :
    let b : Binding := ⟨.winston, "make", .factory⟩
    ∃ s, Establishes aliasedFactory.source b .javascript .es s ∧ aliasedFactory.tree.namedChildren =
      [s, aliasedFactory.source.instanceNode .javascript b "audit" 48] := by
  intro b
  let source := aliasedFactory.source
  let word := source.node .identifier .name 9 21 []
  let specifier := source.node .importSpecifier .none 9 29 [word, source.node .identifier .alias 25 29 []]
  let part := source.node .namedImports .none 7 31 [specifier]
  let quoted := source.node .string .source 37 46 []
  let statement := source.node .importStatement .none 0 47 [source.node .importClause .none 7 31 [part], quoted]
  have hpart : Facts.JavaScript.Part source (some "createLogger") "make" part := by
    have hbinds : Facts.JavaScript.Part source (some (word.text source))
        (((specifier.child? .alias).getD word).text source) part :=
      .specified rfl (show part.namedChildren = [specifier] from rfl) rfl rfl
    have hexported : word.text source = "createLogger" := by decide +kernel
    have hname : ((specifier.child? .alias).getD word).text source = "make" := by decide +kernel
    rwa [hexported, hname] at hbinds
  exact ⟨statement, .imports (.factory (by decide))
    ⟨rfl, ⟨quoted, rfl, rfl, .inl (by decide +kernel)⟩, ⟨part, rfl, hpart⟩⟩, by decide +kernel⟩

theorem renamedFactory_establishes :
    let b : Binding := ⟨.winston, "make", .factory⟩
    ∃ s, Establishes renamedFactory.source b .javascript .commonJs s ∧ renamedFactory.tree.namedChildren =
      [s, renamedFactory.source.instanceNode .javascript b "audit" 51] := by
  intro b
  let source := renamedFactory.source
  let key := source.node .propertyName .none 8 20 []
  let word := source.node .identifier .value 22 26 []
  let target := source.node .objectPattern .name 6 28 [source.node .pairPattern .none 8 26 [key, word]]
  let callee := source.node .identifier .callee 31 38 []
  let quoted := source.node .string .none 39 48 []
  let list := source.node .clause .arguments 38 49 [quoted]
  let value := source.node .call .value 31 49 [callee, list]
  let declarator := source.node .declarator .none 6 49 [target, value]
  have htarget : Facts.JavaScript.Target source (some "createLogger") "make" target := by
    have hbinds : Facts.JavaScript.Target source (some (key.text source)) (word.text source) target :=
      .renamed rfl rfl rfl rfl rfl rfl
    have hexported : key.text source = "createLogger" := by decide +kernel
    have hname : word.text source = "make" := by decide +kernel
    rwa [hexported, hname] at hbinds
  have hasks : Facts.JavaScript.Asks source "winston" (Facts.JavaScript.unwrapped source value) := by
    rw [Facts.JavaScript.unwrapped_of_call (show value.kind = .call from rfl)]
    exact ⟨rfl, ⟨callee, rfl, rfl, by decide +kernel⟩,
      ⟨list, quoted, rfl, rfl, rfl, .inl (by decide +kernel)⟩⟩
  exact ⟨source.node .lexicalDeclaration .none 0 50 [declarator], .requires (.factory (by decide))
    ⟨.inl rfl, ⟨declarator, target, value, rfl, rfl, htarget, rfl, hasks⟩⟩, by decide +kernel⟩

/-- The import is read as the logger that it sets up, the declaration is not. -/
theorem ParsedFile.setsUp_iff_renamedFactory :
    let b : Binding := ⟨.winston, "make", .factory⟩
    (∀ c ∈ b.name.toList, Text.isBlank c = false) ∧ "audit" ≠ b.name ∧
      aliasedFactory.source.Shows 48 (instanceStatement .javascript b "audit") ∧
      renamedFactory.source.Shows 51 (instanceStatement .javascript b "audit") ∧
      aliasedFactory.facts.logger.SetsUp .javascript b "audit" ∧
      ¬ renamedFactory.facts.logger.SetsUp .javascript b "audit" := by
  intro b
  obtain ⟨statement, himports, hfirst⟩ := aliasedFactory_establishes
  obtain ⟨declaration, hrequires, hsecond⟩ := renamedFactory_establishes
  have hword : ∀ c ∈ b.name.toList, Text.isBlank c = false := by
    have hall : b.name.toList.all (fun c => !Text.isBlank c) = true := by decide +kernel
    exact fun c hc => by simpa using List.all_eq_true.mp hall c hc
  have hname : "audit" ≠ b.name := by decide
  have hshows : aliasedFactory.source.Shows 48 (instanceStatement .javascript b "audit") :=
    .of_slice (show aliasedFactory.source.slice 48 69 = _ by decide +kernel) (by decide)
  have hshown : renamedFactory.source.Shows 51 (instanceStatement .javascript b "audit") :=
    .of_slice (show renamedFactory.source.slice 51 72 = _ by decide +kernel) (by decide)
  have hread := setsUp_iff (f := aliasedFactory) rfl hword hname himports hshows hfirst
  have hmissed := setsUp_iff (f := renamedFactory) rfl hword hname hrequires hshown hsecond
  exact ⟨hword, hname, hshows, hshown, hread.mpr (by rintro ⟨⟩),
    fun h => absurd (hmissed.mp h rfl rfl) (by decide)⟩

end LogHygiene
