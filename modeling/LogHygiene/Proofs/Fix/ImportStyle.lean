import LogHygiene.Proofs.Facts.Insertions
import LogHygiene.Proofs.Fix.Binders
import LogHygiene.Proofs.Fix.Origins

/-!
# Which import a fix puts in

A file of the plain dialect takes modules in by `import` or by `require`, and a line that is put into it has to do the
same. Two walks over its statements have an opinion on that. One looks for the place of the new line and steps over
everything that is an import by `require` (`IsRequireImport`). The other one looks for names, and it is the one that is
asked for the style: what it notes is a declaration that gives a name to a module (`bindsModule`).

> **a file without `import` that the first walk takes for one with `require` gets a `require` exactly if the second walk
> notes something in it** (`Project.plan_import_style`). Where it notes nothing, the first walk stepped over a call of
> `require` that binds nothing, or over names for members of modules only.
-/

set_option autoImplicit false

namespace LogHygiene

open Syntax

namespace Facts.JavaScript

variable {source : Bytes}

/-! ## What the walk notes -/

/-- The statement that is looked at in the place of a node. -/
def unexported (n : Node) : Node :=
  if n.kind == .exportStatement then (n.child? .declaration).getD n else n

def declarators (n : Node) : List Node := n.namedChildren.filter (·.kind == .declarator)

/-- Whether a declarator has a name for what `require` gives. -/
def namesModule (source : Bytes) (d : Node) : Bool :=
  (d.child? .name).isSome && (d.child? .value).any fun v => (requireSource? source (unwrapped source v)).isSome

def isDeclaration (n : Node) : Bool := n.kind == .lexicalDeclaration || n.kind == .variableDeclaration

/-- Whether a statement binds what `require` gives. -/
def bindsModule (source : Bytes) (n : Node) : Bool := isDeclaration n && (declarators n).any (namesModule source)

/-- Whether a statement starts with the exports of the file. -/
def startsWithExports (source : Bytes) (n : Node) : Bool :=
  n.kind == .expressionStatement &&
    ("module.exports".toList.isPrefixOf (n.text source).toList || "exports.".toList.isPrefixOf (n.text source).toList)

/-- What tells how a file takes in modules. -/
structure Signs where
  imports : Bool := false
  requires : Bool := false
  exports : Bool := false

namespace Signs

def or (a b : Signs) : Signs := ⟨a.imports || b.imports, a.requires || b.requires, a.exports || b.exports⟩

@[simp] theorem or_none (a : Signs) : a.or {} = a := by
  simp [or]

end Signs

/-- The signs that were noted. -/
def Scope.signs (s : Scope) : Signs := ⟨s.hasImport, s.hasRequire, s.exportsCommonJs⟩

/-- The signs that a statement gives. -/
def signsOf (source : Bytes) (n : Node) : Signs :=
  ⟨n.kind == .importStatement, bindsModule source n, startsWithExports source n⟩

/-! ### Notes that are no signs -/

@[simp] theorem Scope.signs_declare (s : Scope) (name : String) : (s.declare name).signs = s.signs := rfl

@[simp] theorem Scope.signs_noteModule (s : Scope) (module : String) : (s.noteModule module).signs = s.signs := by
  unfold Scope.noteModule
  split <;> rfl

@[simp] theorem Scope.signs_bind (s : Scope) (module name : String) (imported : Option String) :
    (s.bind module name imported).signs = s.signs := by
  unfold Scope.bind
  dsimp only
  split
  · rfl
  · split <;> rfl

theorem signs_visitSpecifier (module : String) (s : Scope) (n : Node) :
    (visitSpecifier source module s n).signs = s.signs := by
  unfold visitSpecifier
  split
  · rfl
  · split
    · rfl
    · exact s.signs_bind _ _ _

theorem signs_visitImportPart (module : String) (s : Scope) (n : Node) :
    (visitImportPart source module s n).signs = s.signs := by
  unfold visitImportPart
  split
  · exact s.signs_bind _ _ _
  · split
    · exact s.signs_bind _ _ _
    · rfl
  · exact foldl_same Scope.signs (fun s specifier _ => signs_visitSpecifier module s specifier) s
  · rfl

/-! ### Signs -/

theorem signs_visitImport (s : Scope) (n : Node) :
    (visitImport source s n).signs = s.signs.or { imports := true } := by
  have himport : ({ s with hasImport := true } : Scope).signs = s.signs.or { imports := true } := by
    simp [Scope.signs, Signs.or]
  unfold visitImport
  dsimp only
  split
  · exact himport
  · exact (foldl_same Scope.signs (fun s part _ => signs_visitImportPart _ s part) _).trans
      ((Scope.signs_noteModule _ _).trans himport)

theorem signs_visitDeclarator (s : Scope) (d : Node) :
    (visitDeclarator source s d).signs = s.signs.or { requires := namesModule source d } := by
  unfold visitDeclarator namesModule
  cases d.child? .name with
  | none => exact s.signs.or_none.symm
  | some name =>
    have hdeclared : ((declaredNames source name).foldl Scope.declare s).signs = s.signs :=
      foldl_same Scope.signs (fun s x _ => s.signs_declare x) s
    dsimp only
    generalize (declaredNames source name).foldl Scope.declare s = t at hdeclared ⊢
    rw [← hdeclared]
    cases d.child? .value with
    | none => exact t.signs.or_none.symm
    | some value =>
      simp only [Option.map_some, Option.isSome_some, Bool.true_and, Option.any_some]
      cases requireSource? source (unwrapped source value) with
      | none =>
        refine Eq.trans ?_ t.signs.or_none.symm
        dsimp only
        split <;> rfl
      | some module =>
        refine (foldl_same Scope.signs (fun s x _ => s.signs_bind _ _ _) _).trans
          ((Scope.signs_noteModule _ _).trans ?_)
        simp [Scope.signs, Signs.or]

/-- What a walk has noted at its end: what any of its steps noted. -/
theorem foldl_signs {step : Scope → Node → Scope} {given : Node → Signs}
    (h : ∀ s n, (step s n).signs = s.signs.or (given n)) (nodes : List Node) (s : Scope) :
    (nodes.foldl step s).signs = s.signs.or ⟨nodes.any fun n => (given n).imports,
      nodes.any fun n => (given n).requires, nodes.any fun n => (given n).exports⟩ := by
  induction nodes generalizing s with
  | nil => exact s.signs.or_none.symm
  | cons n rest ih =>
    rw [List.foldl_cons, ih, h]
    simp only [Signs.or, List.any_cons, Bool.or_assoc]

theorem signs_declaration (s : Scope) (n : Node) :
    ((declarators n).foldl (visitDeclarator source) s).signs =
      s.signs.or { requires := (declarators n).any (namesModule source) } := by
  have hnone : ((declarators n).any fun _ => false) = false := List.any_eq_false.mpr fun _ _ => Bool.false_ne_true
  rw [foldl_signs signs_visitDeclarator, hnone]

theorem signs_visit (s : Scope) (n : Node) :
    (visit source s n).signs = s.signs.or (signsOf source (unexported n)) := by
  unfold visit unexported
  dsimp only
  generalize (if n.kind == .exportStatement then (n.child? .declaration).getD n else n) = statement
  unfold signsOf bindsModule isDeclaration startsWithExports
  split
  · rename_i hkind
    rw [hkind]
    exact signs_visitImport s statement
  · rename_i hkind
    rw [hkind]
    exact signs_declaration s statement
  · rename_i hkind
    rw [hkind]
    exact signs_declaration s statement
  · rename_i hkind
    rw [hkind]
    split <;> exact s.signs.or_none.symm
  · rename_i hkind
    rw [hkind]
    split <;> exact s.signs.or_none.symm
  · rename_i hkind
    rw [hkind]
    split
    · rename_i hexports
      rw [hexports]
      simp [Scope.signs, Signs.or]
    · rename_i hexports
      rw [Bool.eq_false_iff.mpr hexports]
      exact s.signs.or_none.symm
  · rename_i himport hlexical hvariable _ _ hexpression
    rw [beq_eq_false_iff_ne.mpr himport, beq_eq_false_iff_ne.mpr hlexical, beq_eq_false_iff_ne.mpr hvariable,
      beq_eq_false_iff_ne.mpr hexpression]
    exact s.signs.or_none.symm

/-- **What is noted of a file**: what any of its statements tells. -/
theorem signs_scope (tree : Node) : (scope source tree).signs =
    ⟨tree.namedChildren.any fun n => (signsOf source (unexported n)).imports,
      tree.namedChildren.any fun n => (signsOf source (unexported n)).requires,
      tree.namedChildren.any fun n => (signsOf source (unexported n)).exports⟩ := by
  rw [scope, foldl_signs signs_visit]
  rfl

/-- Whether a file tells, other than by `import`, how it takes in modules. -/
def AsksByRequire (path : String) (source : Bytes) (tree : Node) : Prop :=
  Path.extension? path = some "cjs" ∨ ∃ n ∈ tree.namedChildren,
    bindsModule source (unexported n) = true ∨ startsWithExports source (unexported n) = true

/-- No statement of a file is an `import`. -/
def ImportFree (tree : Node) : Prop := ∀ n ∈ tree.namedChildren, (unexported n).kind ≠ .importStatement

theorem style_eq_commonJs_iff (path : String) {tree : Node} (hfree : ImportFree tree) :
    style path .javascript (scope source tree) = .commonJs ↔ AsksByRequire path source tree := by
  have hsigns := @signs_scope source tree
  rw [Scope.signs, Signs.mk.injEq] at hsigns
  obtain ⟨himport, hrequire, hexports⟩ := hsigns
  have hnone : (scope source tree).hasImport = false :=
    himport.trans (List.any_eq_false.mpr fun n hn => by simpa [signsOf] using hfree n hn)
  have hchosen : ∀ c : Bool, (if c = true then ModuleStyle.commonJs else .es) = .commonJs ↔ c = true := by decide
  rw [style, hnone, hrequire, hexports, hchosen]
  simp [AsksByRequire, signsOf, exists_or, and_or_left]

theorem unexported_of_kind {n : Node} (h : n.kind ≠ .exportStatement) : unexported n = n := by
  rw [unexported, beq_eq_false_iff_ne.mpr h]
  rfl

theorem ImportFree.children {tree : Node} (hfree : ImportFree tree) :
    ∀ n ∈ tree.children, n.kind ≠ .importStatement := by
  intro n hn hkind
  refine hfree n (List.mem_filter.mpr ⟨hn, by rw [hkind]; rfl⟩) ?_
  rw [unexported_of_kind (by simp [hkind]), hkind]

/-! ## What the walk over the head steps over -/

/-- Whether a statement is stepped over as an import by `require`. -/
def IsRequireImport (source : Bytes) (n : Node) : Prop :=
  n.kind = .expressionStatement ∧ isBareRequire source n = true ∨
    isDeclaration n = true ∧ isRequireDeclaration source n = true

/-- In a file without `import` the walk over the head remembers imports by `require`. -/
theorem head_imports (source : Bytes) : ∀ (todo : List Node) (h : Head), (∀ n ∈ todo, n.kind ≠ .importStatement) →
    ∀ n following, (head source h todo).imports = some (n, following) →
      h.imports = some (n, following) ∨ n ∈ todo ∧ IsRequireImport source n
  | [], _, _, _, _, hlast => .inl hlast
  | m :: rest, h, hfree, n, following, hlast => by
    have hrest := fun h => head_imports source rest h (fun k hk => hfree k (List.mem_cons_of_mem _ hk)) n following
    -- the walk goes on without `m`, or remembers it, or stops
    have hlater : ∀ {h' : Head}, (head source h' rest).imports = some (n, following) → h'.imports = h.imports →
        h.imports = some (n, following) ∨ n ∈ m :: rest ∧ IsRequireImport source n := fun hlast hsame =>
      (hrest _ hlast).imp (fun heq => hsame.symm.trans heq) fun ⟨hn, himport⟩ => ⟨List.mem_cons_of_mem _ hn, himport⟩
    have hhere : IsRequireImport source m → (head source { h with imports := some (m, rest) } rest).imports =
        some (n, following) → h.imports = some (n, following) ∨ n ∈ m :: rest ∧ IsRequireImport source n := by
      intro himport hlast
      rcases hrest _ hlast with heq | ⟨hn, hlater⟩
      · obtain ⟨rfl, rfl⟩ := Prod.mk.inj (Option.some.inj heq)
        exact .inr ⟨List.mem_cons_self, himport⟩
      · exact .inr ⟨List.mem_cons_of_mem _ hn, hlater⟩
    unfold head at hlast
    split at hlast
    · exact hlater hlast rfl
    · exact hlater hlast rfl
    · rename_i hkind
      exact absurd hkind (hfree m List.mem_cons_self)
    · rename_i hkind
      split at hlast
      · exact hlater hlast rfl
      · split at hlast
        · rename_i hbare
          exact hhere (.inl ⟨hkind, hbare⟩) hlast
        · exact .inl hlast
    · rename_i hkind
      split at hlast
      · rename_i hall
        exact hhere (.inr ⟨by rw [isDeclaration, hkind]; rfl, hall⟩) hlast
      · exact .inl hlast
    · rename_i hkind
      split at hlast
      · rename_i hall
        exact hhere (.inr ⟨by rw [isDeclaration, hkind]; rfl, hall⟩) hlast
      · exact .inl hlast
    · exact .inl hlast

theorem AsksByRequire.of_bindsModule (path : String) {tree n : Node} (hn : n ∈ tree.children)
    (h : bindsModule source n = true) : AsksByRequire path source tree := by
  have hkind : n.kind = .lexicalDeclaration ∨ n.kind = .variableDeclaration := by
    simpa [isDeclaration] using (Bool.and_eq_true_iff.mp h).1
  refine .inr ⟨n, List.mem_filter.mpr ⟨hn, ?_⟩, .inl ?_⟩
  · rcases hkind with hkind | hkind <;> rw [hkind] <;> rfl
  · rwa [unexported_of_kind (by rcases hkind with hkind | hkind <;> simp [hkind])]

/-- Whether a declarator gives a name to a member of a module, rather than to the module. -/
def NamesMember (source : Bytes) (d : Node) : Prop :=
  (d.child? .name).isSome = true → ∃ v, d.child? .value = some v ∧ (unwrapped source v).kind = .member

/-- What is stepped over and not noted binds nothing, or only members. -/
theorem IsRequireImport.cases {n : Node} (h : IsRequireImport source n) :
    bindsModule source n = true ∨ n.kind = .expressionStatement ∨ ∀ d ∈ declarators n, NamesMember source d := by
  obtain ⟨hkind, -⟩ | ⟨hdeclaration, hall⟩ := h
  · exact .inr (.inl hkind)
  cases hbinds : (declarators n).any (namesModule source) with
  | true => exact .inl (Bool.and_eq_true_iff.mpr ⟨hdeclaration, hbinds⟩)
  | false =>
    -- every value is what `require` gives or a member of it, and with a name the former would be noted
    refine .inr (.inr fun d hd hname => ?_)
    have hrequired := List.all_eq_true.mp (Bool.and_eq_true_iff.mp hall).2 d hd
    obtain ⟨v, hv, hvalue⟩ := (Option.any_eq_true ..).mp hrequired
    rcases Bool.or_eq_true_iff.mp hvalue with hcall | hmember
    · have hnames : namesModule source d = true := by
        rw [namesModule, hname, hv]
        exact hcall
      exact absurd hnames (List.any_eq_false.mp hbinds d hd)
    · exact ⟨v, hv, beq_iff_eq.mp (Bool.and_eq_true_iff.mp hmember).1⟩

end Facts.JavaScript

/-- The import that is put in is for the configured backend, in the style of the file. -/
theorem Rework.importAdded_new {w : Rework} {line : Nat} {change : Change}
    (hchange : change ∈ LoggerSetup.changesFrom line w.setup.lines ++
      w.calls.map (w.setup.callChange w.family w.insertion)) (hkind : change.kind = .importAdded) :
    change.new = importStatement w.family w.file.facts.style w.settings.backend := by
  obtain ⟨-, -, at_, rfl⟩ | ⟨-, at_, rfl⟩ | ⟨call, -, rfl⟩ := change_cases hchange
  · rfl
  · exact absurd hkind (show ChangeKind.loggerAdded ≠ .importAdded by decide)
  · exact absurd hkind (by simp [LoggerSetup.callChange])

namespace Project

open Facts.JavaScript

/-- **Which import is put into a file without `import`.** It is a `require` exactly if the file asks for that, and a file
whose head has an import by `require` may not: when that binds nothing, or only members. -/
theorem plan_import_style (c : Conditions) (p : Project) (path : String) (world : World)
    (hgrammar : Grammar.ofPath? path = some .javascript) :
    (∀ source f, ParsedFile.read? path source = some f → ImportFree f.tree →
      (f.facts.style = .commonJs ↔ AsksByRequire path f.source f.tree) ∧
      ∀ n following, (head f.source {} f.tree.children).imports = some (n, following) →
        IsRequireImport f.source n ∧ (AsksByRequire path f.source f.tree ∨ n.kind = .expressionStatement ∨
          ∀ d ∈ declarators n, NamesMember f.source d)) ∧
    let r := ((p.plan path).run (World.answerUnder c) world).1.report
    (r.changes ≠ [] → ∃ f, ParsedFile.read? path r.original = some f ∧
      ∀ change ∈ r.changes, change.kind = .importAdded →
        change.new = importStatement .javascript f.facts.style (p.config.settings .javascript).backend) := by
  have hjavascript {source f} (hread : ParsedFile.read? path source = some f) :
      f.path = path ∧ f.grammar = .javascript := by
    obtain ⟨hpath, -, hg, -⟩ := ParsedFile.read?_eq_some hread
    exact ⟨hpath, Option.some.inj (hg.symm.trans hgrammar)⟩
  refine ⟨fun source f hread hfree => ?_, fun hchanges => ?_⟩
  · obtain ⟨hpath, hg⟩ := hjavascript hread
    refine ⟨?_, fun n following hlast => ?_⟩
    · rw [← hpath, ParsedFile.facts, hg]
      exact style_eq_commonJs_iff f.path hfree
    · obtain hnone | ⟨hn, himport⟩ := head_imports f.source f.tree.children {} hfree.children n following hlast
      · exact absurd hnone (by simp)
      · exact ⟨himport, himport.cases.imp_left fun hbinds => AsksByRequire.of_bindsModule path hn hbinds⟩
  · obtain ⟨source, hplan, -⟩ := plan_changed hchanges
    rw [hplan] at hchanges ⊢
    obtain ⟨f, after, h⟩ := planSource_changed hchanges
    refine ⟨f, by rw [planSource_original hchanges]; exact h.read, fun change hchange hkind => ?_⟩
    have hnew := Rework.importAdded_new (w := ⟨f, p.config.settings f.grammar.family, p.shown path⟩)
      ((planSource_changes hchanges h.read).mem_iff.mp hchange) hkind
    rw [Rework.family, (hjavascript h.read).2] at hnew
    exact hnew

/-- A file that only uses `require`, once for nothing and once for a member. -/
def unnamedModules : ParsedFile :=
  let source := Bytes.ofText "require('a');\nconst b = require('b').b;\nconsole.log(b);\n"
  ⟨"a.js", source, .javascript, Grammar.javascript.tree source⟩

/-- The head of the file is imports by `require`, and an `import` is put behind it. -/
theorem plan_import_style_unnamedModules :
    let p : Project := ⟨"", Config.default⟩
    let world : World := { disk := { nodes := [(["a.js"], .file unnamedModules.source 0o644 default)] } }
    let r := ((p.plan "a.js").run (World.answerUnder {}) world).1.report
    (Grammar.ofPath? "a.js" = some .javascript ∧ r.changes ≠ [] ∧ ImportFree unnamedModules.tree) ∧
      (∃ n following, (head unnamedModules.source {} unnamedModules.tree.children).imports = some (n, following) ∧
        IsRequireImport unnamedModules.source n) ∧
      ∃ change ∈ r.changes, change.kind = .importAdded ∧ change.new = "import pino from 'pino';" := by
  intro p world r
  have hgrammar : Grammar.ofPath? "a.js" = some .javascript := by decide +kernel
  have hread : ParsedFile.read? "a.js" unnamedModules.source = some unnamedModules :=
    ParsedFile.read?_of_grammar hgrammar _
  obtain ⟨hplan, hchanges, horiginal, -⟩ : r = _ ∧ r.changes ≠ [] ∧ r.original = unnamedModules.source ∧ _ :=
    plan_of_smooth hgrammar (by decide +kernel) (by decide +kernel) hread (by decide +kernel)
  obtain ⟨change, hchange, hkind⟩ : ∃ change ∈ r.changes, change.kind = .importAdded := by
    have hperm := planSource_changes (hplan ▸ hchanges) hread
    simp only [hplan, hperm.mem_iff]
    exact (Rework.importAdded_iff _).mpr ⟨by decide +kernel, by decide +kernel⟩
  obtain ⟨hstyled, hplanned⟩ := plan_import_style {} p "a.js" world hgrammar
  obtain ⟨f, hf, hnew⟩ := hplanned hchanges
  obtain rfl := Option.some.inj (hread.symm.trans (horiginal ▸ hf))
  have hfree : ImportFree unnamedModules.tree := by
    unfold ImportFree
    decide +kernel
  obtain ⟨hstyle, hhead⟩ := hstyled _ _ hread hfree
  have hasks : ¬ AsksByRequire "a.js" unnamedModules.source unnamedModules.tree := by
    unfold AsksByRequire
    decide +kernel
  have hes : unnamedModules.facts.style = .es := by
    cases h : unnamedModules.facts.style with
    | es => rfl
    | commonJs => exact absurd (hstyle.mp h) hasks
  obtain ⟨⟨n, following⟩, hlast⟩ := Option.isSome_iff_exists.mp
    (show (head unnamedModules.source {} unnamedModules.tree.children).imports.isSome = true by decide +kernel)
  refine ⟨⟨hgrammar, hchanges, hfree⟩, ⟨n, following, hlast, (hhead n following hlast).1⟩, change, hchange, hkind, ?_⟩
  rw [hnew change hchange hkind, hes]
  decide +kernel

end Project

end LogHygiene
