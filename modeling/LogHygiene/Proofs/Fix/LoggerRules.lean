import LogHygiene.Proofs.Fix.Legible

/-!
# Statements that are carried tell the logger rules what they told them

Rule by rule, for both families: what a rule makes of a carried node and the fixed text is what it made of
the node and the file. The rules about values come first, then those about imports and declarations, and
`visit_carry` at the end of each half is the statement about whole statements.

A walk is in a state, and two walks need not agree about all of it: names that are declared by a pattern may
differ. They agree about loggers (`s'.logger = s.logger`), and what is known on the way never says more than
what is known at the end (`Grows`), which is where `Legible.factories` is about.
-/

set_option autoImplicit false

namespace LogHygiene.Rework

open Syntax

variable {w : Rework} {n k : Node} {c : CallSite}

/-! ## JavaScript and TypeScript: values -/

theorem member_of_site (hjs : w.family = .javascript) (hsite : w.site? n = some c) :
    ∃ callee, n.child? .callee = some callee ∧ callee.kind = .member := by
  have hrule : w.file.callSite? = Facts.JavaScript.callSite? w.file.source := by
    rw [ParsedFile.callSite?, show w.file.grammar.family = .javascript from hjs]
  have hsome : (Facts.JavaScript.callSite? w.file.source n).isSome = true := by
    rw [← hrule, (site?_eq_some.mp hsite).1]
    rfl
  obtain ⟨-, callee, -, -, hcallee, hmember, -⟩ := Facts.JavaScript.isSome_callSite?.mp hsome
  exact ⟨callee, hcallee, hmember⟩

namespace Followed

theorem stringValue?_carry (hn : w.Followed n) (h : w.Accepted) (hl : w.Legible)
    (hjs : w.family = .javascript) :
    Facts.JavaScript.stringValue? w.fixed (w.carry n) = Facts.JavaScript.stringValue? w.file.source n := by
  unfold Facts.JavaScript.stringValue?
  rw [carry_kind]
  by_cases hkind : n.kind = .string
  · have huntouched : w.Untouched n := { hn with unflagged := hl.strings hjs n hn.mem hkind }
    rw [huntouched.text h]
  · rw [if_neg (by simpa using hkind), if_neg (by simpa using hkind)]

theorem requireSource?_carry (hn : w.Followed n) (h : w.Accepted) (hl : w.Legible)
    (hjs : w.family = .javascript) :
    Facts.JavaScript.requireSource? w.fixed (w.carry n) =
      Facts.JavaScript.requireSource? w.file.source n := by
  rw [Facts.JavaScript.requireSource?_eq, Facts.JavaScript.requireSource?_eq, carry_kind]
  by_cases hkind : n.kind = .call
  swap
  · rw [if_neg hkind, if_neg hkind]
  rw [if_pos hkind, if_pos hkind]
  cases hsite : w.site? n with
  | some c =>
    -- neither what was called nor what is called now is a plain name
    obtain ⟨callee, hcallee, hmember⟩ := member_of_site hjs hsite
    have hnew : (w.newCallee c).kind = .member := rfl
    rw [child?_callee_of_site hsite, hcallee, Option.bind_some, Option.bind_some, if_neg (by simp [hnew]),
      if_neg (by simp [hmember])]
  | none =>
    rw [child?_of_no_site hsite, child?_of_no_site hsite]
    cases hcallee : n.child? .callee with
    | none => rw [Option.map_none, Option.bind_none, Option.bind_none]
    | some callee =>
      rw [Option.map_some, Option.bind_some, Option.bind_some, carry_kind]
      by_cases hidentifier : callee.kind = .identifier
      swap
      · rw [if_neg (fun hboth => hidentifier hboth.1), if_neg (fun hboth => hidentifier hboth.1)]
      have htext := (hn.child h hsite hcallee).text_word h (by rw [hidentifier]; rfl)
      rw [htext]
      refine if_congr Iff.rfl ?_ rfl
      cases hlist : n.child? .arguments with
      | none => rw [Option.map_none, Option.bind_none, Option.bind_none]
      | some list =>
        have hplain : w.site? list = none :=
          site?_eq_none_of_kind (hl.arguments n hn.mem hkind list hlist)
        rw [Option.map_some, Option.bind_some, Option.bind_some, namedChildren_of_no_site hplain,
          List.head?_map]
        cases hfirst : list.namedChildren.head? with
        | none => rw [Option.map_none, Option.bind_none, Option.bind_none]
        | some first =>
          have hmem := Node.mem_children_of_named (List.mem_of_mem_head? hfirst)
          rw [Option.map_some, Option.bind_some, Option.bind_some]
          exact ((hn.child h hsite hlist).below h hplain hmem).stringValue?_carry h hl hjs

end Followed

/-- Wrappers are carried with what they wrap. -/
theorem unwrap_carry (i : Nat) (n : Node) :
    Facts.JavaScript.unwrap i (w.carry n) = w.carry (Facts.JavaScript.unwrap i n) := by
  induction i generalizing n with
  | zero => rfl
  | succ i ih =>
    rw [Facts.JavaScript.unwrap, Facts.JavaScript.unwrap, carry_kind]
    split
    · rename_i hwrapper
      have hsite : w.site? n = none := by
        refine site?_eq_none_of_kind fun hcall => ?_
        rw [hcall] at hwrapper
        exact absurd hwrapper (by decide)
      rw [namedChildren_of_no_site hsite]
      cases n.namedChildren with
      | nil => rfl
      | cons inner rest => exact ih inner
    · rfl

namespace Followed

theorem unwrap (hn : w.Followed n) (h : w.Accepted) (i : Nat) :
    w.Followed (Facts.JavaScript.unwrap i n) := by
  induction i generalizing n with
  | zero => exact hn
  | succ i ih =>
    rw [Facts.JavaScript.unwrap]
    split
    · rename_i hwrapper
      have hsite : w.site? n = none := by
        refine site?_eq_none_of_kind fun hcall => ?_
        rw [hcall] at hwrapper
        exact absurd hwrapper (by decide)
      split
      · rename_i inner rest hnamed
        exact ih (hn.below h hsite (Node.mem_children_of_named (hnamed ▸ List.mem_cons_self)))
      · exact hn
    · exact hn

theorem unwrapped_carry (hn : w.Followed n) (hl : w.Legible) :
    Facts.JavaScript.unwrapped w.fixed (w.carry n) =
      w.carry (Facts.JavaScript.unwrapped w.file.source n) := by
  have hheight := Node.height_le hn.mem
  unfold Facts.JavaScript.unwrapped
  rw [unwrap_carry, Facts.JavaScript.unwrap_fuel (Nat.le_trans hheight hl.shallow.2)
    (Nat.le_trans hheight hl.shallow.1)]

/-- A rewritten call creates no logger, and created none. -/
theorem createsLogger_javascript_of_site {l : LoggerFacts} (hn : w.Followed n) (h : w.Accepted) (hl : w.Legible)
    (hjs : w.family = .javascript) (hgrows : l.Grows w.file.facts.logger) (hsite : w.site? n = some c) :
    Facts.JavaScript.createsLogger w.fixed l (w.carry n) = false ∧
      Facts.JavaScript.createsLogger w.file.source l n = false := by
  obtain ⟨hflag, hc⟩ := site?_eq_some.mp hsite
  constructor
  · have hrequire : Facts.JavaScript.requireSource? w.fixed (w.newCallee c) = none := by
      rw [Facts.JavaScript.requireSource?_eq]
      rfl
    have hcalls : Facts.callsFactory w.fixed w.family Facts.JavaScript.loggerFactories ["child"] l
        (w.newCallee c) = false := by
      refine h.callsFactory_newCallee hl hgrows hc ?_ ?_
      · intro x hx level
        rw [hjs]
        revert x
        cases level <;> decide
      · intro level
        rw [hjs]
        cases level <;> decide
    have hother : (n.kind == .construction) = false := by
      rw [(ParsedFile.callSite?_eq_some hflag).1]
      rfl
    rw [hjs] at hcalls
    rw [Facts.JavaScript.createsLogger_eq, carry_kind, child?_callee_of_site hsite, hother, Option.any_some,
      Bool.false_and, Bool.or_false]
    simp only [hrequire, hcalls, Bool.and_false]
  · rw [Bool.eq_false_iff]
    intro hcreates
    have hlater := Facts.JavaScript.createsLogger_mono hgrows hcreates
    have hnot := hl.factories n hn.mem (by rw [hflag]; rfl)
    rw [ParsedFile.createsLogger, show w.file.grammar.family = .javascript from hjs] at hnot
    exact absurd (hlater.symm.trans hnot) (by simp)

/-- **What is carried creates a logger if it did.** -/
theorem createsLogger_javascript {l : LoggerFacts} (hn : w.Followed n) (h : w.Accepted) (hl : w.Legible)
    (hjs : w.family = .javascript) (hgrows : l.Grows w.file.facts.logger) :
    Facts.JavaScript.createsLogger w.fixed l (w.carry n) =
      Facts.JavaScript.createsLogger w.file.source l n := by
  have hfactories : ∀ x ∈ Facts.JavaScript.loggerFactories, ¬ Bracketed x := by decide
  cases hsite : w.site? n with
  | some c =>
    obtain ⟨hafter, hbefore⟩ := hn.createsLogger_javascript_of_site h hl hjs hgrows hsite
    rw [hafter, hbefore]
  | none =>
    rw [Facts.JavaScript.createsLogger_eq, Facts.JavaScript.createsLogger_eq, carry_kind,
      child?_of_no_site hsite, child?_of_no_site hsite]
    refine congrArg₂ _ (congrArg _ ?_) (congrArg _ ?_)
    · cases hcallee : n.child? .callee with
      | none => rw [Option.map_none, Option.any_none, Option.any_none]
      | some callee =>
        have hfollowed := hn.child h hsite hcallee
        rw [Option.map_some, Option.any_some, Option.any_some, hfollowed.requireSource?_carry h hl hjs,
          hfollowed.callsFactory_carry h hl hgrows hfactories (by decide)]
    · cases hmaker : n.child? .constructor with
      | none => rw [Option.map_none, Option.any_none, Option.any_none]
      | some maker =>
        have hfollowed := hn.child h hsite hmaker
        have hname : ((w.carry maker).text w.fixed == "Logger") = (maker.text w.file.source == "Logger") := by
          rw [Bool.eq_iff_iff, beq_iff_eq, beq_iff_eq]
          exact hfollowed.text_eq_iff h (by decide)
        have hmember : ".Logger".toList.isSuffixOf ((w.carry maker).text w.fixed).toList =
            ".Logger".toList.isSuffixOf (maker.text w.file.source).toList := by
          rw [Bool.eq_iff_iff, List.isSuffixOf_iff_suffix, List.isSuffixOf_iff_suffix]
          exact hfollowed.suffix_iff h (by decide)
        rw [Option.map_some, Option.any_some, Option.any_some, hname, hmember]

end Followed

/-! ## JavaScript and TypeScript: imports -/

namespace Untouched

open Facts.JavaScript

variable {s t : Scope}

theorem visitSpecifier_carry (hn : w.Untouched n) (h : w.Accepted) (module : String)
    (hst : s.logger = t.logger) : (visitSpecifier w.file.source module s n).logger =
      (visitSpecifier w.fixed module t (w.carry n)).logger := by
  have hsite := hn.site?_eq_none
  unfold visitSpecifier
  rw [carry_kind, child?_of_no_site hsite, child?_of_no_site hsite]
  split
  · exact hst
  · cases hname : n.child? .name with
    | none => exact hst
    | some imported =>
      have hlocal : ((n.child? .alias).map w.carry).getD (w.carry imported) =
          w.carry ((n.child? .alias).getD imported) := Option.getD_map ..
      have hmem : (n.child? .alias).getD imported ∈ n.children := by
        cases halias : n.child? .alias with
        | none => exact (Node.child?_eq_some hname).1
        | some k => exact (Node.child?_eq_some halias).1
      simp only [Option.map_some, hlocal, (hn.below h hmem).text h, (hn.child h hname).text h]
      exact Scope.bind_congr hst _ _ _

/-- A walk over parts that no edit touches. -/
theorem foldl_carry {step after : Scope → Node → Scope} {ks : List Node}
    (hks : ∀ k ∈ ks, w.Untouched k)
    (hstep : ∀ {k : Node}, w.Untouched k → ∀ {s t : Scope}, s.logger = t.logger →
      (step s k).logger = (after t (w.carry k)).logger)
    (hst : s.logger = t.logger) :
    (ks.foldl step s).logger = ((ks.map w.carry).foldl after t).logger :=
  Facts.foldl_alike (R := fun s t : Scope => s.logger = t.logger) (P := fun _ => True) (fun _ _ h => h) ks s t
    (fun k hk _ _ _ hst => hstep (hks k hk) hst) trivial hst

theorem named (hn : w.Untouched n) (h : w.Accepted) : ∀ k ∈ n.namedChildren, w.Untouched k :=
  fun _ hk => hn.below h (Node.mem_children_of_named hk)

theorem visitImportPart_carry (hn : w.Untouched n) (h : w.Accepted) (module : String)
    (hst : s.logger = t.logger) : (visitImportPart w.file.source module s n).logger =
      (visitImportPart w.fixed module t (w.carry n)).logger := by
  unfold visitImportPart
  rw [carry_kind, namedChildren_of_no_site hn.site?_eq_none, hn.text h]
  split
  · exact Scope.bind_congr hst _ _ _
  · cases hnamed : n.namedChildren with
    | nil => exact hst
    | cons name rest =>
      have htext := (hn.named h name (hnamed ▸ List.mem_cons_self)).text h
      rw [List.map_cons]
      dsimp only
      rw [htext]
      exact Scope.bind_congr hst _ _ _
  · exact foldl_carry (hn.named h) (fun hk _ _ hst => hk.visitSpecifier_carry h module hst) hst
  · exact hst

theorem visitImport_carry (hn : w.Untouched n) (h : w.Accepted) (hst : s.logger = t.logger) :
    (visitImport w.file.source s n).logger = (visitImport w.fixed t (w.carry n)).logger := by
  have hsite := hn.site?_eq_none
  have hmodule : ((w.carry n).child? .source).bind (stringValue? w.fixed) =
      (n.child? .source).bind (stringValue? w.file.source) := by
    rw [child?_of_no_site hsite]
    cases hsource : n.child? .source with
    | none => rw [Option.map_none, Option.bind_none, Option.bind_none]
    | some k =>
      rw [Option.map_some, Option.bind_some, Option.bind_some, stringValue?, stringValue?, carry_kind,
        (hn.child h hsource).text h]
  have hclauses : ((w.carry n).namedChildren.filter (·.kind == .importClause)).flatMap Node.namedChildren =
      ((n.namedChildren.filter (·.kind == .importClause)).flatMap Node.namedChildren).map w.carry := by
    rw [namedChildren_of_no_site hsite, List.filter_map, List.flatMap_map, List.map_flatMap]
    have hkinds : (fun k : Node => k.kind == Kind.importClause) ∘ w.carry = fun k => k.kind == Kind.importClause := by
      funext k
      exact congrArg (· == Kind.importClause) (carry_kind k)
    rw [hkinds]
    refine List.flatMap_congr fun k hk => ?_
    exact namedChildren_of_no_site (hn.named h k (List.mem_of_mem_filter hk)).site?_eq_none
  unfold visitImport
  dsimp only
  rw [hmodule, hclauses]
  split
  · exact hst
  · rename_i module _
    refine foldl_carry (fun k hk => ?_) (fun hk _ _ hst => hk.visitImportPart_carry h module hst) ?_
    · obtain ⟨clause, hclause, hk⟩ := List.mem_flatMap.mp hk
      exact (hn.named h clause (List.mem_of_mem_filter hclause)).named h k hk
    · have himported : ({ s with hasImport := true } : Scope).logger =
          ({ t with hasImport := true } : Scope).logger := hst
      exact Scope.noteModule_congr himported module

/-! ## JavaScript and TypeScript: declarations -/

theorem boundNames_carry (hn : w.Untouched n) (h : w.Accepted) (i : Nat) :
    boundNames w.fixed i (w.carry n) = boundNames w.file.source i n := by
  induction i generalizing n with
  | zero => rfl
  | succ i ih =>
    have hsite := hn.site?_eq_none
    by_cases hword : n.kind = .identifier ∨ n.kind = .shorthandPattern
    · rw [boundNames_of_word hword, boundNames_of_word (by rw [carry_kind]; exact hword), hn.text h]
    · by_cases hpair : n.kind = .pairPattern
      · rw [boundNames_of_pair hpair, boundNames_of_pair (by rw [carry_kind]; exact hpair),
          child?_of_no_site hsite]
        cases hvalue : n.child? .value with
        | none => rfl
        | some k => exact ih (hn.child h hvalue)
      · rw [boundNames_of_other hword hpair, boundNames_of_other (by rw [carry_kind]; exact hword)
          (by rw [carry_kind]; exact hpair), namedChildren_of_no_site hsite, List.flatMap_map]
        exact List.flatMap_congr fun k hk => ih (hn.named h k hk)

theorem declaredNames_carry (hn : w.Untouched n) (h : w.Accepted) (hl : w.Legible) :
    declaredNames w.fixed (w.carry n) = declaredNames w.file.source n := by
  have hheight := Node.height_le hn.mem
  rw [declaredNames_eq, declaredNames_eq, carry_kind, hn.boundNames_carry h,
    boundNames_fuel (Nat.le_trans hheight hl.shallow.2) (Nat.le_trans hheight hl.shallow.1)]

end Untouched

namespace Followed

open Facts.JavaScript

variable {s t : Scope}

theorem visitDeclarator_carry (hn : w.Followed n) (h : w.Accepted) (hl : w.Legible)
    (hjs : w.family = .javascript) (hkind : n.kind = .declarator)
    (hgrows : (visitDeclarator w.file.source s n).logger.Grows w.file.facts.logger)
    (hst : s.logger = t.logger) : (visitDeclarator w.file.source s n).logger =
      (visitDeclarator w.fixed t (w.carry n)).logger := by
  have hbefore := (visitDeclarator_grows s n).trans hgrows
  have hsite : w.site? n = none := site?_eq_none_of_kind (by rw [hkind]; decide)
  unfold visitDeclarator
  rw [child?_of_no_site hsite, child?_of_no_site hsite]
  cases hname : n.child? .name with
  | none => exact hst
  | some name =>
    have hpattern : w.Untouched name :=
      { hn.child h hsite hname with unflagged := hl.patterns n hn.mem hkind name hname }
    have hs := foldl_declare_logger (declaredNames w.file.source name) s
    have ht := foldl_declare_logger (declaredNames w.file.source name) t
    have hnames := hpattern.declaredNames_carry h hl
    simp only [Option.map_some, hnames, hpattern.text h, carry_kind]
    cases hvalue : n.child? .value with
    | none => exact hs.trans (hst.trans ht.symm)
    | some value =>
      have hfollowed := hn.child h hsite hvalue
      have hinner : w.Followed (unwrapped w.file.source value) := hfollowed.unwrap h _
      simp only [Option.map_some, hfollowed.unwrapped_carry hl, hinner.requireSource?_carry h hl hjs]
      cases hrequire : requireSource? w.file.source (unwrapped w.file.source value) with
      | some module =>
        -- the same names, taken out of the same module
        have hdeclared : ({ (declaredNames w.file.source name).foldl Scope.declare s with
            hasRequire := true } : Scope).logger =
            ({ (declaredNames w.file.source name).foldl Scope.declare t with hasRequire := true } : Scope).logger :=
          hs.trans (hst.trans ht.symm)
        exact Scope.foldl_bind_congr (Scope.noteModule_congr hdeclared module) module _ _
      | none =>
        simp only [hs, ht, ← hst, hinner.createsLogger_javascript h hl hjs hbefore]
        split
        · rfl
        · exact hs.trans (hst.trans ht.symm)

/-- **A statement that is carried adds what it added before.** -/
theorem visit_javascript (hn : w.Followed n) (h : w.Accepted) (hl : w.Legible) (hjs : w.family = .javascript)
    (hgrows : (visit w.file.source s n).logger.Grows w.file.facts.logger) (hst : s.logger = t.logger) :
    (visit w.file.source s n).logger = (visit w.fixed t (w.carry n)).logger := by
  have hbehind : (if (w.carry n).kind == .exportStatement then
        ((w.carry n).child? .declaration).getD (w.carry n) else w.carry n) =
      w.carry (if n.kind == .exportStatement then (n.child? .declaration).getD n else n) ∧
      w.Followed (if n.kind == .exportStatement then (n.child? .declaration).getD n else n) := by
    rw [carry_kind]
    split
    · rename_i hexport
      have hsite : w.site? n = none := site?_eq_none_of_kind (by rw [eq_of_beq hexport]; decide)
      rw [child?_of_no_site hsite]
      cases hdeclaration : n.child? .declaration with
      | none => exact ⟨rfl, hn⟩
      | some k => exact ⟨rfl, hn.child h hsite hdeclaration⟩
    · exact ⟨rfl, hn⟩
  obtain ⟨hcarry, hfollowed⟩ := hbehind
  unfold visit at hgrows ⊢
  dsimp only at hgrows ⊢
  rw [hcarry]
  generalize (if n.kind == .exportStatement then (n.child? .declaration).getD n else n) = statement
    at hfollowed hgrows ⊢
  have hdeclarators : statement.kind ≠ .call →
      (w.carry statement).namedChildren.filter (·.kind == .declarator) =
        (statement.namedChildren.filter (·.kind == .declarator)).map w.carry := by
    intro hkind
    rw [namedChildren_of_no_site (site?_eq_none_of_kind hkind), List.filter_map]
    congr 2
    funext k
    exact congrArg (· == Kind.declarator) (carry_kind k)
  have hdeclared : statement.kind ≠ .call →
      ((statement.namedChildren.filter (·.kind == .declarator)).foldl (visitDeclarator w.file.source)
        s).logger.Grows w.file.facts.logger →
      ((statement.namedChildren.filter (·.kind == .declarator)).foldl (visitDeclarator w.file.source)
        s).logger = (((w.carry statement).namedChildren.filter (·.kind == .declarator)).foldl
          (visitDeclarator w.fixed) t).logger := by
    intro hkind hgrows
    rw [hdeclarators hkind]
    refine Facts.foldl_alike (R := fun s t : Scope => s.logger = t.logger)
      (P := fun s : Scope => s.logger.Grows w.file.facts.logger)
      (fun s k h => (visitDeclarator_grows s k).trans h) _ s t (fun k hk s t hgrows hst => ?_) hgrows hst
    obtain ⟨hk, hdeclarator⟩ := List.mem_filter.mp hk
    exact (hfollowed.below h (site?_eq_none_of_kind hkind)
      (Node.mem_children_of_named hk)).visitDeclarator_carry h hl hjs (eq_of_beq hdeclarator) hgrows hst
  rw [carry_kind]
  cases hkind : statement.kind with
  | importStatement =>
    have huntouched : w.Untouched statement :=
      { hfollowed with unflagged := hl.imports statement hfollowed.mem (.inl hkind) }
    exact huntouched.visitImport_carry h hst
  | lexicalDeclaration =>
    rw [hkind] at hgrows
    exact hdeclared (by rw [hkind]; decide) hgrows
  | variableDeclaration =>
    rw [hkind] at hgrows
    exact hdeclared (by rw [hkind]; decide) hgrows
  | functionDeclaration =>
    dsimp only
    split <;> split <;> exact hst
  | classDeclaration =>
    dsimp only
    split <;> split <;> exact hst
  | expressionStatement =>
    dsimp only
    split <;> split <;> exact hst
  | _ => exact hst

end Followed

/-! ## Python -/

namespace Untouched

open Facts.Python

variable {s t : Scope}

theorem importedName_carry (hn : w.Untouched n) (h : w.Accepted) :
    importedName w.fixed (w.carry n) = importedName w.file.source n := by
  have hchild : ∀ r, ((w.carry n).child? r).map (·.text w.fixed) =
      (n.child? r).map (·.text w.file.source) := by
    intro r
    rw [child?_of_no_site hn.site?_eq_none, Option.map_map]
    cases hk : n.child? r with
    | none => rfl
    | some k => exact congrArg some ((hn.child h hk).text h)
  unfold importedName
  rw [carry_kind, hchild, hchild, hn.text h]

/-- A walk over names that no edit touches. -/
theorem foldl_names {step after : Scope → Node → Scope} (hn : w.Untouched n) (h : w.Accepted)
    (hstep : ∀ {k : Node}, w.Untouched k → ∀ {s t : Scope}, s.logger = t.logger →
      (step s k).logger = (after t (w.carry k)).logger)
    (hst : s.logger = t.logger) : ((n.childrenIn .name).foldl step s).logger =
      (((w.carry n).childrenIn .name).foldl after t).logger := by
  rw [childrenIn_of_no_site hn.site?_eq_none]
  exact Facts.foldl_alike (R := fun s t : Scope => s.logger = t.logger) (P := fun _ => True)
    (fun _ _ h => h) _ s t (fun k hk _ _ _ hst => hstep (hn.below h (List.mem_of_mem_filter hk)) hst)
    trivial hst

theorem visitImport_python (hn : w.Untouched n) (h : w.Accepted) (hst : s.logger = t.logger) :
    (visitImport w.file.source s n).logger = (visitImport w.fixed t (w.carry n)).logger := by
  unfold visitImport
  rw [hn.importedName_carry h]
  obtain ⟨dotted, newName⟩ := importedName w.file.source n
  dsimp only
  have hdeclared : (s.declare (newName.getD (rootModule dotted))).logger =
      (t.declare (newName.getD (rootModule dotted))).logger := hst
  have hnoted := Scope.noteModule_congr hdeclared (rootModule dotted)
  split
  · split
    · exact Scope.bind_congr hnoted _
    · exact hnoted
  · exact hnoted

theorem visitImportFrom_python (hn : w.Untouched n) (h : w.Accepted) (root : String)
    (hst : s.logger = t.logger) : (visitImportFrom w.file.source root s n).logger =
      (visitImportFrom w.fixed root t (w.carry n)).logger := by
  unfold visitImportFrom
  rw [hn.importedName_carry h]
  obtain ⟨imported, newName⟩ := importedName w.file.source n
  dsimp only
  have hname : ∀ (s t : Scope) (name : String) (p : Bool), s.logger = t.logger →
      (if p = true then { s with logger := { s.logger with hasImport := true }.addName name }
        else s).logger =
      (if p = true then { t with logger := { t.logger with hasImport := true }.addName name }
        else t).logger := by
    intro s t name p hst
    split
    · dsimp only
      rw [hst]
    · exact hst
  refine hname _ _ _ _ ?_
  have hdeclared : (s.declare (newName.getD imported)).logger =
      (t.declare (newName.getD imported)).logger := hst
  split
  · split
    · exact Scope.bind_congr hdeclared _
    · exact hdeclared
  · exact hdeclared

end Untouched

namespace Followed

open Facts.Python

variable {s t : Scope}

/-- A rewritten call creates no logger, and created none. -/
theorem createsLogger_python_of_site {l : LoggerFacts} (hn : w.Followed n) (h : w.Accepted) (hl : w.Legible)
    (hpy : w.family = .python) (hgrows : l.Grows w.file.facts.logger) (hsite : w.site? n = some c) :
    createsLogger w.fixed l (w.carry n) = false ∧ createsLogger w.file.source l n = false := by
  obtain ⟨hflag, hc⟩ := site?_eq_some.mp hsite
  constructor
  · have hcalls : Facts.callsFactory w.fixed w.family loggerFactories ["bind", "getChild", "new"] l
        (w.newCallee c) = false := by
      refine h.callsFactory_newCallee hl hgrows hc ?_ ?_
      · intro x hx level
        rw [hpy]
        revert x
        cases level <;> decide
      · intro level
        rw [hpy]
        cases level <;> decide
    rw [hpy] at hcalls
    rw [createsLogger_eq, child?_callee_of_site hsite, Option.any_some, hcalls, Bool.and_false]
  · rw [Bool.eq_false_iff]
    intro hcreates
    have hlater := createsLogger_mono hgrows hcreates
    have hnot := hl.factories n hn.mem (by rw [hflag]; rfl)
    rw [ParsedFile.createsLogger, show w.file.grammar.family = .python from hpy] at hnot
    exact absurd (hlater.symm.trans hnot) (by simp)

/-- **What is carried creates a logger if it did.** -/
theorem createsLogger_python {l : LoggerFacts} (hn : w.Followed n) (h : w.Accepted) (hl : w.Legible)
    (hpy : w.family = .python) (hgrows : l.Grows w.file.facts.logger) :
    createsLogger w.fixed l (w.carry n) = createsLogger w.file.source l n := by
  have hfactories : ∀ x ∈ loggerFactories, ¬ Bracketed x := by decide
  cases hsite : w.site? n with
  | some c =>
    obtain ⟨hafter, hbefore⟩ := hn.createsLogger_python_of_site h hl hpy hgrows hsite
    rw [hafter, hbefore]
  | none =>
    rw [createsLogger_eq, createsLogger_eq, carry_kind, child?_of_no_site hsite]
    cases hcallee : n.child? .callee with
    | none => rw [Option.map_none, Option.any_none, Option.any_none]
    | some callee =>
      rw [Option.map_some, Option.any_some, Option.any_some,
        (hn.child h hsite hcallee).callsFactory_carry h hl hgrows hfactories (by decide)]

theorem visitAssignment_carry (hn : w.Followed n) (h : w.Accepted) (hl : w.Legible)
    (hpy : w.family = .python) (hkind : n.kind = .assignment)
    (hgrows : s.logger.Grows w.file.facts.logger) (hst : s.logger = t.logger) :
    (visitAssignment w.file.source s n).logger = (visitAssignment w.fixed t (w.carry n)).logger := by
  have hsite : w.site? n = none := site?_eq_none_of_kind (by rw [hkind]; decide)
  unfold visitAssignment
  rw [child?_of_no_site hsite, child?_of_no_site hsite]
  cases hleft : n.child? .left with
  | none => exact hst
  | some left =>
    have hs := foldl_declare_logger (boundNames w.file.source (w.file.source.length + 1) left) s
    have ht := foldl_declare_logger (boundNames w.fixed (w.fixed.length + 1) (w.carry left)) t
    have hcreates : ((n.child? .right).map w.carry).any (createsLogger w.fixed s.logger) =
        (n.child? .right).any (createsLogger w.file.source s.logger) := by
      cases hright : n.child? .right with
      | none => rw [Option.map_none, Option.any_none, Option.any_none]
      | some right =>
        rw [Option.map_some, Option.any_some, Option.any_some,
          (hn.child h hsite hright).createsLogger_python h hl hpy hgrows]
    simp only [Option.map_some, carry_kind, hs, ht, ← hst, hcreates]
    split
    · exact hs.trans (hst.trans ht.symm)
    · rename_i hidentifier
      split
      · have hword : left.kind = .identifier := by simpa using hidentifier
        rw [(hn.child h hsite hleft).text_word h (by rw [hword]; rfl)]
      · exact hs.trans (hst.trans ht.symm)

/-- **A statement that is carried adds what it added before.** -/
theorem visit_python (hn : w.Followed n) (h : w.Accepted) (hl : w.Legible) (hpy : w.family = .python)
    (hgrows : (visit w.file.source s n).logger.Grows w.file.facts.logger) (hst : s.logger = t.logger) :
    (visit w.file.source s n).logger = (visit w.fixed t (w.carry n)).logger := by
  have hbefore := (visit_grows s n).trans hgrows
  have hbehind : (if (w.carry n).kind == .decorated then
        ((w.carry n).child? .definition).getD (w.carry n) else w.carry n) =
      w.carry (if n.kind == .decorated then (n.child? .definition).getD n else n) ∧
      w.Followed (if n.kind == .decorated then (n.child? .definition).getD n else n) := by
    rw [carry_kind]
    split
    · rename_i hdecorated
      have hsite : w.site? n = none := site?_eq_none_of_kind (by rw [eq_of_beq hdecorated]; decide)
      rw [child?_of_no_site hsite]
      cases hdefinition : n.child? .definition with
      | none => exact ⟨rfl, hn⟩
      | some k => exact ⟨rfl, hn.child h hsite hdefinition⟩
    · exact ⟨rfl, hn⟩
  obtain ⟨hcarry, hfollowed⟩ := hbehind
  unfold visit
  dsimp only
  rw [hcarry]
  generalize (if n.kind == .decorated then (n.child? .definition).getD n else n) = statement
    at hfollowed ⊢
  rw [carry_kind]
  cases hkind : statement.kind with
  | importStatement =>
    have huntouched : w.Untouched statement :=
      { hfollowed with unflagged := hl.imports statement hfollowed.mem (.inl hkind) }
    exact huntouched.foldl_names h (fun hk _ _ hst => hk.visitImport_python h hst) hst
  | importFrom =>
    have huntouched : w.Untouched statement :=
      { hfollowed with unflagged := hl.imports statement hfollowed.mem (.inr hkind) }
    have hmodule : ((w.carry statement).child? .moduleName).map (·.text w.fixed) =
        (statement.child? .moduleName).map (·.text w.file.source) := by
      rw [child?_of_no_site huntouched.site?_eq_none, Option.map_map]
      cases hk : statement.child? .moduleName with
      | none => rfl
      | some k => exact congrArg some ((huntouched.child h hk).text h)
    dsimp only
    rw [hmodule]
    exact huntouched.foldl_names h (fun hk _ _ hst => hk.visitImportFrom_python h _ hst)
      (Scope.noteModule_congr hst _)
  | functionDeclaration =>
    dsimp only
    split <;> split <;> exact hst
  | classDeclaration =>
    dsimp only
    split <;> split <;> exact hst
  | expressionStatement =>
    have hsite : w.site? statement = none := site?_eq_none_of_kind (by rw [hkind]; decide)
    dsimp only
    rw [namedChildren_of_no_site hsite]
    cases hnamed : statement.namedChildren with
    | nil => exact hst
    | cons first rest =>
      rw [List.map_cons]
      dsimp only
      rw [carry_kind]
      split
      · rename_i hassignment
        exact (hfollowed.below h hsite (Node.mem_children_of_named
          (hnamed ▸ List.mem_cons_self))).visitAssignment_carry h hl hpy (eq_of_beq hassignment) hbefore hst
      · exact hst
  | _ => exact hst

end Followed

end LogHygiene.Rework
