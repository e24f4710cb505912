import LogHygiene.Proofs.Facts.Completeness
import LogHygiene.Proofs.Fix.ImportStyle
import LogHygiene.Proofs.Fix.Legible
import LogHygiene.Proofs.Syntax.Comments

/-!
# What comments do to the facts of a file

The rules that look for loggers ask for parts of a node by the role that they play, and comments play none. So most
comments make no difference. Some do: a rule that takes the first part of a node takes a comment that stands there, and
a rule that reads the text of a node reads the comments in it. `Undisturbed` lists the places.

> **comments that stand in none of these places change nothing about loggers, names and style**
> (`ParsedFile.facts_strewn`).

In one of these places a comment is read as a name, or hides a logger.
-/

set_option autoImplicit false

namespace LogHygiene

open Syntax

/-! ## Texts that start alike -/

namespace Bytes

/-- A text starts with a word if its bytes do. -/
theorem isPrefixOf_textBetween {bytes : Bytes} {i j : Nat} (h : (bytes.slice i j).text?.isSome = true) (word : String) :
    word.toList.isPrefixOf (bytes.textBetween i j).toList = true ↔ ofText word <+: bytes.slice i j := by
  obtain ⟨text, htext⟩ := Option.isSome_iff_exists.mp h
  rw [textBetween, htext, Option.getD_some, text?_eq_some.mp htext, ofText_prefix_iff, List.isPrefixOf_iff_prefix]

theorem slice_prefix (bytes : Bytes) {i j k : Nat} (hij : i ≤ j) (hjk : j ≤ k) : bytes.slice i j <+: bytes.slice i k :=
  ⟨bytes.slice j k, Edit.slice_append_slice hij hjk⟩

end Bytes

namespace Facts.JavaScript

variable {s s' : Bytes} {n n' : Node}

/-! ## Places where comments are in the way -/

/-- Kinds of nodes whose text is taken as it is. -/
def isWhole : Kind → Bool
  | .identifier | .shorthandPattern | .string => true
  | _ => false

/-- The kinds of nodes that have a name, or another name behind it. -/
def named : List Kind := [.functionDeclaration, .classDeclaration, .importSpecifier]

/-- Names and strings in a node are without comments. -/
structure Tidy (n : Node) : Prop where
  words : ∀ m ∈ n.preorder, isWhole m.kind = true → m.Bare
  names : ∀ m ∈ n.preorder, m.kind ∈ named → ∀ r ∈ [Role.name, .alias], ∀ name ∈ m.child? r, name.Bare
  spaces : ∀ m ∈ n.preorder, m.kind = .namespaceImport → ∀ name ∈ m.namedChildren.head?, name.Bare

instance (n : Node) : Decidable (Tidy n) :=
  decidable_of_iff ((∀ m ∈ n.preorder, isWhole m.kind = true → m.Bare) ∧
      (∀ m ∈ n.preorder, m.kind ∈ named → ∀ r ∈ [Role.name, .alias], ∀ name ∈ m.child? r, name.Bare) ∧
      ∀ m ∈ n.preorder, m.kind = .namespaceImport → ∀ name ∈ m.namedChildren.head?, name.Bare)
    ⟨fun ⟨h₁, h₂, h₃⟩ => ⟨h₁, h₂, h₃⟩, fun ⟨h₁, h₂, h₃⟩ => ⟨h₁, h₂, h₃⟩⟩

/-- What `require` is given does not start with a comment. -/
def Opens (source : Bytes) (n : Node) : Prop :=
  ∀ callee ∈ n.child? .callee, callee.text source = "require" →
    ∀ list ∈ n.child? .arguments, ∀ first ∈ list.namedChildren.head?, first.kind ≠ .comment

instance (source : Bytes) (n : Node) : Decidable (Opens source n) :=
  inferInstanceAs (Decidable (∀ callee ∈ n.child? .callee, callee.text source = "require" →
    ∀ list ∈ n.child? .arguments, ∀ first ∈ list.namedChildren.head?, first.kind ≠ .comment))

/-- What is called to create a logger: its text is taken as it is, unless it is a call of `require`. -/
def PlainCallee (source : Bytes) (callee : Node) : Prop :=
  callee.Bare ∨ Opens source callee ∧ (requireSource? source callee).isSome = true

instance (source : Bytes) (callee : Node) : Decidable (PlainCallee source callee) :=
  inferInstanceAs (Decidable (callee.Bare ∨ Opens source callee ∧ (requireSource? source callee).isSome = true))

/-- A value in which no comment is in the way of finding out whether it creates a logger. -/
structure PlainCore (source : Bytes) (value : Node) : Prop where
  call : value.kind = .call → Opens source value ∧ ∀ callee ∈ value.child? .callee, PlainCallee source callee
  construction : value.kind = .construction → ∀ c ∈ value.child? .constructor, c.Bare

instance (source : Bytes) (value : Node) : Decidable (PlainCore source value) :=
  decidable_of_iff ((value.kind = .call → Opens source value ∧ ∀ callee ∈ value.child? .callee, PlainCallee source callee) ∧
      (value.kind = .construction → ∀ c ∈ value.child? .constructor, c.Bare))
    ⟨fun ⟨h₁, h₂⟩ => ⟨h₁, h₂⟩, fun ⟨h₁, h₂⟩ => ⟨h₁, h₂⟩⟩

/-- The kinds of nodes that wrap a value. -/
def wrappers : List Kind := [.awaited, .parenthesized, .typeCast, .typeCheck, .nonNull]

/-- A value in which no comment is in the way, inside wrappers that do not start with one. -/
inductive PlainValue (source : Bytes) : Node → Prop
  | core {n : Node} : n.kind ∉ wrappers → PlainCore source n → PlainValue source n
  | wrapped {n : Node} : n.kind ∈ wrappers → (∀ inner ∈ n.namedChildren.head?, inner.kind ≠ .comment) →
      (∀ inner ∈ n.namedChildren.head?, PlainValue source inner) → PlainValue source n

/-- No comment stands in the words that an export starts with, nor in blanks between them. -/
def PlainExport (source : Bytes) (n : Node) : Prop :=
  ∀ c ∈ n.preorder, c.kind = .comment → ∀ i ∈ List.range (c.start + 1),
    (source.slice i c.start).all isBlankByte = true → ∀ word ∈ ["module.exports", "exports."],
      source.slice n.start i <+: Bytes.ofText word → source.slice n.start i = Bytes.ofText word

instance (source : Bytes) (n : Node) : Decidable (PlainExport source n) :=
  inferInstanceAs (Decidable (∀ c ∈ n.preorder, c.kind = .comment → ∀ i ∈ List.range (c.start + 1),
    (source.slice i c.start).all isBlankByte = true → ∀ word ∈ ["module.exports", "exports."],
      source.slice n.start i <+: Bytes.ofText word → source.slice n.start i = Bytes.ofText word))

/-- A statement in which no comment is in the way. -/
structure Undisturbed (source : Bytes) (n : Node) : Prop extends Tidy n where
  values : ∀ d ∈ declarators n, ∀ value ∈ d.child? .value, PlainValue source value
  exports : n.kind = .expressionStatement → PlainExport source n

/-! ## Texts and strings -/

theorem Tidy.sub (h : Tidy n) {m : Node} (hm : m ∈ n.preorder) : Tidy m where
  words k hk := h.words k (Node.mem_preorder_trans hm hk)
  names k hk := h.names k (Node.mem_preorder_trans hm hk)
  spaces k hk := h.spaces k (Node.mem_preorder_trans hm hk)

theorem Tidy.child (h : Tidy n) {m : Node} (hm : m ∈ n.children) : Tidy m :=
  h.sub (Node.mem_preorder_of_child hm m.mem_preorder_self)

theorem Tidy.bare (h : Tidy n) (hn : isWhole n.kind = true) : n.Bare := h.words n n.mem_preorder_self hn

theorem bare_sub (h : n.Bare) {m : Node} (hm : m ∈ n.preorder) : m.Bare :=
  fun k hk => h k (Node.mem_preorder_trans hm hk)

theorem bare_child? (h : n.Bare) {m : Node} {r : Role} (hm : n.child? r = some m) : m.Bare :=
  bare_sub h (Node.mem_preorder_of_child (Node.child?_eq_some hm).1 m.mem_preorder_self)

theorem opens_of_bare (h : n.Bare) (source : Bytes) : Opens source n := by
  intro callee _ _ list hlist first hfirst
  have hmem := Node.mem_children_of_named (List.mem_of_mem_head? hfirst)
  exact bare_child? h hlist first (Node.mem_preorder_of_child hmem first.mem_preorder_self)

theorem stringValue?_strewn (h : Strewn s s' n n') (hw : Tidy n') : stringValue? s n = stringValue? s' n' := by
  rw [stringValue?, stringValue?, h.kind]
  split
  · rename_i hkind
    rw [h.text (hw.bare (by rw [beq_iff_eq.mp hkind]; rfl))]
  · rfl

/-- What `require` is asked for is found, if no comment comes first among its arguments. -/
theorem requireSource?_strewn (h : Strewn s s' n n') (hw : Tidy n') (hopens : n'.kind = .call → Opens s' n') :
    requireSource? s n = requireSource? s' n' := by
  rw [requireSource?_eq, requireSource?_eq, h.kind]
  by_cases hcall : n'.kind = .call
  · rw [if_pos hcall, if_pos hcall]
    refine (h.child? (by decide)).bind_eq fun callee callee' _ hcallee' hcallee => ?_
    have hrequire : callee.kind = .identifier ∧ callee.text s = "require" ↔
        callee'.kind = .identifier ∧ callee'.text s' = "require" := by
      rw [hcallee.kind]
      refine and_congr_right fun hidentifier => ?_
      rw [hcallee.text ((hw.child (Node.child?_eq_some hcallee').1).bare (by rw [hidentifier]; rfl))]
    by_cases hasked : callee'.kind = .identifier ∧ callee'.text s' = "require"
    · rw [if_pos (hrequire.mpr hasked), if_pos hasked]
      refine (h.child? (by decide)).bind_eq fun list list' _ hlist' hlist => ?_
      have hfirst := hlist.namedChildren.head? (hopens hcall callee' hcallee' hasked.2 list' hlist')
      refine hfirst.bind_eq fun first first' _ hfirst' hfirst => ?_
      have hmem := Node.mem_children_of_named (List.mem_of_mem_head? hfirst')
      exact stringValue?_strewn hfirst ((hw.child (Node.child?_eq_some hlist').1).child hmem)
    · rw [if_neg (mt hrequire.mp hasked), if_neg hasked]
  · rw [if_neg hcall, if_neg hcall]

/-! ## Values -/

theorem unwrap_of_core {i : Nat} (h : n.kind ∉ wrappers) : unwrap (i + 1) n = n := by
  rw [unwrap, if_neg]
  simpa [wrappers] using h

theorem unwrap_of_wrapper {i : Nat} (h : n.kind ∈ wrappers) :
    unwrap (i + 1) n = (n.namedChildren.head?.map (unwrap i)).getD n := by
  rw [unwrap, if_pos (by simpa [wrappers] using h)]
  cases n.namedChildren <;> rfl

/-- A value is the same inside its wrappers. -/
theorem unwrap_strewn (h : Strewn s s' n n') (hp : PlainValue s' n') {i j : Nat} (hi : n.height ≤ i)
    (hj : n'.height ≤ j) :
    Strewn s s' (unwrap i n) (unwrap j n') ∧ PlainCore s' (unwrap j n') := by
  induction hp generalizing n i j with
  | @core n' hkind hcore =>
    obtain ⟨i, rfl⟩ := Nat.exists_eq_add_one_of_ne_zero (show i ≠ 0 by have := n.height_pos; omega)
    obtain ⟨j, rfl⟩ := Nat.exists_eq_add_one_of_ne_zero (show j ≠ 0 by have := n'.height_pos; omega)
    rw [unwrap_of_core hkind, unwrap_of_core (by rw [h.kind]; exact hkind)]
    exact ⟨h, hcore⟩
  | @wrapped n' hkind hfirst _ ih =>
    obtain ⟨i, rfl⟩ := Nat.exists_eq_add_one_of_ne_zero (show i ≠ 0 by have := n.height_pos; omega)
    obtain ⟨j, rfl⟩ := Nat.exists_eq_add_one_of_ne_zero (show j ≠ 0 by have := n'.height_pos; omega)
    rw [unwrap_of_wrapper hkind, unwrap_of_wrapper (by rw [h.kind]; exact hkind)]
    rcases h.namedChildren.head? hfirst with ⟨hx, hy⟩ | ⟨inner, inner', hx, hy, hinner⟩
    · rw [hx, hy]
      refine ⟨h, fun hcall => ?_, fun hconstruction => ?_⟩
      · exact absurd hkind (by simp only [Option.map_none, Option.getD_none] at hcall; rw [hcall]; decide)
      · exact absurd hkind (by simp only [Option.map_none, Option.getD_none] at hconstruction; rw [hconstruction]; decide)
    · have hlow := Node.height_child (Node.mem_children_of_named (List.mem_of_mem_head? hx))
      have hlow' := Node.height_child (Node.mem_children_of_named (List.mem_of_mem_head? hy))
      rw [hx, hy]
      exact ih inner' hy hinner (by omega) (by omega)

theorem callsFactory_strewn (h : Strewn s s' n n') (hbare : n'.Bare) (family : Family) (factories methods : List String)
    (logger : LoggerFacts) :
    callsFactory s family factories methods logger n = callsFactory s' family factories methods logger n' := by
  rw [callsFactory, callsFactory, h.kind, h.text hbare]
  congr 2
  refine (h.child? (by decide)).any_eq fun object object' _ hobject' hobject => ?_
  refine (h.child? (by decide)).any_eq fun property property' _ hproperty' hproperty => ?_
  rw [hobject.text (bare_child? hbare hobject'), hproperty.text (bare_child? hbare hproperty')]

/-- A value creates a logger as before, if no comment is in the way. -/
theorem createsLogger_strewn (h : Strewn s s' n n') (hw : Tidy n') (hp : PlainCore s' n') (logger : LoggerFacts) :
    createsLogger s logger n = createsLogger s' logger n' := by
  rw [createsLogger_eq, createsLogger_eq, h.kind]
  refine congrArg₂ or ?_ ?_
  · by_cases hkind : n'.kind = .call
    · refine congrArg (and _) ((h.child? (by decide)).any_eq fun callee callee' _ hcallee' hcallee => ?_)
      have hwords := hw.child (Node.child?_eq_some hcallee').1
      rcases (hp.call hkind).2 callee' hcallee' with hbare | ⟨hopens, hrequire⟩
      · rw [requireSource?_strewn hcallee hwords fun _ => opens_of_bare hbare s',
          callsFactory_strewn hcallee hbare .javascript loggerFactories ["child"] logger]
      · obtain ⟨module, hmodule⟩ := Option.isSome_iff_exists.mp hrequire
        rw [requireSource?_strewn hcallee hwords fun _ => hopens, hmodule]
    · rw [beq_false_of_ne hkind, Bool.false_and, Bool.false_and]
  · by_cases hkind : n'.kind = .construction
    · refine congrArg (and _) ((h.child? (by decide)).any_eq fun c c' _ hc' hc => ?_)
      rw [hc.text (hp.construction hkind c' hc')]
    · rw [beq_false_of_ne hkind, Bool.false_and, Bool.false_and]

/-! ## Names -/

theorem boundNames_comment {c : Node} (h : c.IsComment) (source : Bytes) (i : Nat) : boundNames source i c = [] := by
  cases i with
  | zero => rfl
  | succ i =>
    rw [boundNames_of_other (by rw [h.kind]; decide) (by rw [h.kind]; decide), Node.namedChildren, h.children]
    rfl

/-- A pattern binds the same names. -/
theorem boundNames_strewn (h : Strewn s s' n n') (hw : Tidy n') {i j : Nat} (hi : n.height ≤ i)
    (hj : n'.height ≤ j) : boundNames s i n = boundNames s' j n' := by
  induction n using Node.induct generalizing n' i j with
  | step n ih =>
    obtain ⟨i, rfl⟩ := Nat.exists_eq_add_one_of_ne_zero (show i ≠ 0 by have := n.height_pos; omega)
    obtain ⟨j, rfl⟩ := Nat.exists_eq_add_one_of_ne_zero (show j ≠ 0 by have := n'.height_pos; omega)
    have hchild : ∀ c c', c ∈ n.children → c' ∈ n'.children → Strewn s s' c c' →
        boundNames s i c = boundNames s' j c' := by
      intro c c' hc hc' hstrewn
      have hlow := Node.height_child hc
      have hlow' := Node.height_child hc'
      exact ih c hc hstrewn (hw.child hc') (by omega) (by omega)
    by_cases hword : n'.kind = .identifier ∨ n'.kind = .shorthandPattern
    · have hwhole : isWhole n'.kind = true := by
        rcases hword with hkind | hkind
        · rw [hkind]; rfl
        · rw [hkind]; rfl
      rw [boundNames_of_word hword, boundNames_of_word (by rw [h.kind]; exact hword), h.text (hw.bare hwhole)]
    · by_cases hpair : n'.kind = .pairPattern
      · rw [boundNames_of_pair hpair, boundNames_of_pair (by rw [h.kind]; exact hpair)]
        rcases h.child? (r := .value) (by decide) with ⟨hx, hy⟩ | ⟨c, c', hx, hy, hc⟩
        · rw [hx, hy]
          rfl
        · rw [hx, hy]
          exact hchild c c' (Node.child?_eq_some hx).1 (Node.child?_eq_some hy).1 hc
      · rw [boundNames_of_other hword hpair, boundNames_of_other (by rw [h.kind]; exact hword) (by rw [h.kind]; exact hpair)]
        refine (h.namedChildren.imp_of_mem (Q := fun c c' => c ∈ n.namedChildren ∧ Strewn s s' c c')
          fun c c' hc _ hcc' => ⟨hc, hcc'⟩).flatMap_eq ?_ fun c hc => boundNames_comment hc s' j
        rintro c c' hc' ⟨hc, hcc'⟩
        exact hchild c c' (Node.mem_children_of_named hc) (Node.mem_children_of_named hc') hcc'

/-- How deep values and patterns may be. Every bracket and every wrapper takes up a byte. -/
def Shallow (source : Bytes) (n : Node) : Prop := ∀ d ∈ declarators n, ∀ part ∈ d.children, part.height ≤ source.length + 1

instance (source : Bytes) (n : Node) : Decidable (Shallow source n) :=
  inferInstanceAs (Decidable (∀ d ∈ declarators n, ∀ part ∈ d.children, part.height ≤ source.length + 1))

theorem declaredNames_strewn (h : Strewn s s' n n') (hw : Tidy n') (hi : n.height ≤ s.length + 1)
    (hj : n'.height ≤ s'.length + 1) : declaredNames s n = declaredNames s' n' := by
  rw [declaredNames_eq, declaredNames_eq, h.kind, boundNames_strewn h hw hi hj]

/-! ## Statements -/

theorem visitDeclarator_strewn (h : Strewn s s' n n') (hw : Tidy n')
    (hvalue : ∀ value ∈ n'.child? .value, PlainValue s' value) (hi : ∀ part ∈ n.children, part.height ≤ s.length + 1)
    (hj : ∀ part ∈ n'.children, part.height ≤ s'.length + 1) (t : Scope) :
    visitDeclarator s t n = visitDeclarator s' t n' := by
  unfold visitDeclarator
  rcases h.child? (r := .name) (by decide) with ⟨hx, hy⟩ | ⟨name, name', hx, hy, hname⟩
  · rw [hx, hy]
  · have hmem := (Node.child?_eq_some hx).1
    have hmem' := (Node.child?_eq_some hy).1
    have hnames := declaredNames_strewn hname (hw.child hmem') (hi name hmem) (hj name' hmem')
    rw [hx, hy]
    dsimp only
    rw [hnames]
    rcases h.child? (r := .value) (by decide) with ⟨hv, hv'⟩ | ⟨value, value', hv, hv', hstrewn⟩
    · rw [hv, hv', Option.map_none, Option.map_none]
    · obtain ⟨hsame, hcore⟩ := unwrap_strewn hstrewn (hvalue value' hv') (hi value (Node.child?_eq_some hv).1)
        (hj value' (Node.child?_eq_some hv').1)
      have htidy := (hw.child (Node.child?_eq_some hv').1).sub (@unwrap_mem value' (s'.length + 1))
      rw [hv, hv', Option.map_some, Option.map_some]
      dsimp only [unwrapped]
      rw [requireSource?_strewn hsame htidy fun hcall => (hcore.call hcall).1, hname.kind,
        createsLogger_strewn hsame htidy hcore]
      by_cases hplain : name'.kind = .identifier
      · rw [hname.text ((hw.child hmem').bare (by rw [hplain]; rfl))]
      · simp only [beq_false_of_ne hplain, Bool.false_and, Bool.false_eq_true, if_false]

theorem visitSpecifier_strewn (h : Strewn s s' n n') (hw : Tidy n') (module : String) (t : Scope) :
    visitSpecifier s module t n = visitSpecifier s' module t n' := by
  unfold visitSpecifier
  rw [h.kind]
  split
  · rfl
  · rename_i hkind
    have hbare := hw.names n' n'.mem_preorder_self (by simp [named] at hkind ⊢; simp [hkind])
    rcases h.child? (r := .name) (by decide) with ⟨hx, hy⟩ | ⟨imported, imported', hx, hy, himported⟩
    · rw [hx, hy]
    · rw [hx, hy]
      dsimp only
      rw [himported.text (hbare .name (by simp) imported' hy)]
      rcases h.child? (r := .alias) (by decide) with ⟨hx, hy⟩ | ⟨other, other', hx, hy, hother⟩
      · rw [hx, hy, Option.getD_none, Option.getD_none, himported.text (hbare .name (by simp) imported' ‹_›)]
      · rw [hx, hy, Option.getD_some, Option.getD_some, hother.text (hbare .alias (by simp) other' hy)]

theorem visitImportPart_strewn (h : Strewn s s' n n') (hw : Tidy n') (module : String) (t : Scope) :
    visitImportPart s module t n = visitImportPart s' module t n' := by
  unfold visitImportPart
  rw [h.kind]
  split
  · rename_i hkind
    rw [h.text (hw.bare (by rw [hkind]; rfl))]
  · rename_i hkind
    have hbare := hw.spaces n' n'.mem_preorder_self hkind
    have hfirst := h.namedChildren.head? fun name hname => hbare name hname name name.mem_preorder_self
    rcases hfirst with ⟨hx, hy⟩ | ⟨name, name', hx, hy, hname⟩
    · rw [List.head?_eq_none_iff.mp hx, List.head?_eq_none_iff.mp hy]
    · obtain ⟨rest, hx⟩ := List.head?_eq_some_iff.mp hx
      obtain ⟨rest', hz⟩ := List.head?_eq_some_iff.mp hy
      rw [hx, hz]
      exact congrArg (t.bind module · none) (hname.text (hbare name' hy))
  · refine h.namedChildren.foldl_eq (fun t m m' _ hm' hmm' => ?_) (fun t c hc => ?_) t
    · exact visitSpecifier_strewn hmm' (hw.child (Node.mem_children_of_named hm')) module t
    · rw [visitSpecifier, if_pos (by rw [hc.kind]; rfl)]
  · rfl

theorem visitImport_strewn (h : Strewn s s' n n') (hw : Tidy n') (t : Scope) :
    visitImport s t n = visitImport s' t n' := by
  have hsource : (n.child? .source).bind (stringValue? s) = (n'.child? .source).bind (stringValue? s') :=
    (h.child? (by decide)).bind_eq fun c c' _ hc' hcc' => stringValue?_strewn hcc' (hw.child (Node.child?_eq_some hc').1)
  have hclauses := h.namedChildren.filter (p := (·.kind == .importClause)) fun _ _ hm => by rw [hm.kind]
  have hparts := hclauses.flatMap (fun _ _ hm => hm.namedChildren) fun c hc => by
    rw [Node.namedChildren, hc.children]
    rfl
  unfold visitImport
  dsimp only
  rw [hsource]
  split
  · rfl
  · refine hparts.foldl_eq (fun t m m' _ hm' hmm' => ?_) (fun t c hc => ?_) _
    · obtain ⟨clause, hclause, hm'⟩ := List.mem_flatMap.mp hm'
      have hmem := Node.mem_children_of_named (List.mem_filter.mp hclause).1
      exact visitImportPart_strewn hmm' ((hw.child hmem).child (Node.mem_children_of_named hm')) _ t
    · rw [visitImportPart, hc.kind]

/-- A statement starts with the exports of a file as before, if no comment stands in the words for them. -/
theorem isPrefixOf_text_strewn (h : Strewn s s' n n') (hplain : PlainExport s' n')
    (hn : (s.slice n.start n.stop).text?.isSome = true) (hn' : (s'.slice n'.start n'.stop).text?.isSome = true)
    {word : String} (hword : word ∈ ["module.exports", "exports."]) :
    word.toList.isPrefixOf (n.text s).toList = word.toList.isPrefixOf (n'.text s').toList := by
  rw [Bool.eq_iff_iff, Node.text, Node.text, Bytes.isPrefixOf_textBetween hn, Bytes.isPrefixOf_textBetween hn']
  obtain ⟨-, -, hsame | ⟨c, hc, hkind, i, i', hi, hstop, hi', hic, hcstop, hblank, hsame⟩⟩ := h.front
  · rw [hsame]
  · have hshort := hplain c hc hkind i' (List.mem_range.mpr (by omega)) (List.all_eq_true.mpr hblank) word hword
    -- a word that the text starts with is through before the comment
    have hthrough : ∀ bytes, s'.slice n'.start i' <+: bytes →
        (Bytes.ofText word <+: bytes ↔ Bytes.ofText word <+: s'.slice n'.start i') := by
      intro bytes hfront
      refine ⟨fun hprefix => ?_, fun hprefix => hprefix.trans hfront⟩
      rcases List.prefix_or_prefix_of_prefix hprefix hfront with hthrough | hcut
      · exact hthrough
      · rw [hshort hcut]
    have hfront' : s'.slice n'.start i' <+: s'.slice n'.start n'.stop := s'.slice_prefix hi' (Nat.le_trans hic hcstop)
    exact (hthrough _ (hsame ▸ s.slice_prefix hi hstop)).trans (hthrough _ hfront').symm

theorem unexported_strewn (h : Strewn s s' n n') : Strewn s s' (unexported n) (unexported n') := by
  rw [unexported, unexported, h.kind]
  split
  · rcases h.child? (r := .declaration) (by decide) with ⟨hx, hy⟩ | ⟨c, c', hx, hy, hc⟩
    · rw [hx, hy]
      exact h
    · rw [hx, hy]
      exact hc
  · exact h

/-- The text of a node is text. -/
def Legible (source : Bytes) (n : Node) : Prop := (source.slice n.start n.stop).text?.isSome = true

/-- **A statement adds what it added before**, if no comment is in the way. -/
theorem visit_strewn (h : Strewn s s' n n') (hu : Undisturbed s' (unexported n')) (hi : Shallow s (unexported n))
    (hj : Shallow s' (unexported n')) (hn : Legible s (unexported n)) (hn' : Legible s' (unexported n')) (t : Scope) :
    visit s t n = visit s' t n' := by
  have hstrewn := unexported_strewn h
  have hself : ∀ m : Node, (if m.kind == .exportStatement then (m.child? .declaration).getD m else m) = unexported m :=
    fun _ => rfl
  unfold visit
  dsimp only
  rw [hself, hself]
  generalize unexported n = m at *
  generalize unexported n' = m' at *
  have hdeclaration : (declarators m).foldl (visitDeclarator s) t = (declarators m').foldl (visitDeclarator s') t := by
    have hrow := hstrewn.namedChildren.filter (p := (·.kind == .declarator)) fun _ _ hm => by rw [hm.kind]
    refine hrow.foldl_eq (fun t d d' hd hd' hdd' => ?_) (fun t c hc => ?_) t
    · exact visitDeclarator_strewn hdd' (hu.child (Node.mem_children_of_named (List.mem_filter.mp hd').1))
        (hu.values d' hd') (hi d hd) (hj d' hd') t
    · rw [visitDeclarator, Node.child?, hc.children]
      rfl
  have hname : m'.kind ∈ named →
      Matched (fun name name' => name.text s = name'.text s') (m.child? .name) (m'.child? .name) := by
    intro hkind
    refine (hstrewn.child? (by decide)).imp fun name name' _ hname' hnn' => hnn'.text ?_
    exact hu.names m' m'.mem_preorder_self hkind .name List.mem_cons_self name' hname'
  rw [hstrewn.kind]
  split
  · exact visitImport_strewn hstrewn hu.toTidy t
  · exact hdeclaration
  · exact hdeclaration
  · rename_i hkind
    rcases hname (by rw [hkind]; decide) with ⟨hx, hy⟩ | ⟨name, name', hx, hy, htext⟩
    · rw [hx, hy]
    · rw [hx, hy]
      exact congrArg t.declare htext
  · rename_i hkind
    rcases hname (by rw [hkind]; decide) with ⟨hx, hy⟩ | ⟨name, name', hx, hy, htext⟩
    · rw [hx, hy]
    · rw [hx, hy]
      exact congrArg t.declare htext
  · rename_i hkind
    have hword := fun word hword => @isPrefixOf_text_strewn s s' m m' hstrewn (hu.exports hkind) hn hn' word hword
    rw [hword "module.exports" (by simp), hword "exports." (by simp)]
  · rfl

end Facts.JavaScript

namespace ParsedFile

open Facts.JavaScript

variable {f g : ParsedFile}

theorem unexported_mem_preorder {tree n : Node} (hn : n ∈ tree.namedChildren) : unexported n ∈ tree.preorder := by
  have hmem := Node.mem_preorder_of_child (Node.mem_children_of_named hn) n.mem_preorder_self
  unfold unexported
  split
  · cases hchild : n.child? .declaration with
    | none => exact hmem
    | some c =>
      exact Node.mem_preorder_trans hmem (Node.mem_preorder_of_child (Node.child?_eq_some hchild).1 c.mem_preorder_self)
  · exact hmem

theorem WellFormed.legible (h : f.WellFormed) {n : Node} (hn : n ∈ f.tree.preorder) : Legible f.source n :=
  Bytes.text?_isSome_slice h.text (h.boundaries n hn).1 (h.boundaries n hn).2 (h.forward hn)

theorem facts_of_javascript (h : f.grammar.family = .javascript) :
    f.facts = Facts.JavaScript.facts f.path f.grammar f.source f.tree := by
  rw [facts]
  split
  · rename_i hpython
    rw [hpython] at h
    exact absurd h (by decide)
  · rfl

/-- A file, and the same file with comments in it. -/
structure Commented (f g : ParsedFile) : Prop where
  path : g.path = f.path
  grammar : g.grammar = f.grammar
  strewn : Strewn f.source g.source f.tree g.tree

/-- **Comments change nothing about loggers, names and style**, if they stand in none of the places where they are in the
way. -/
theorem facts_strewn (hfamily : f.grammar.family = .javascript) (h : Commented f g) (hf : f.WellFormed)
    (hg : g.WellFormed)
    (hundisturbed : ∀ n ∈ g.tree.namedChildren, Undisturbed g.source (unexported n))
    (hshallow : ∀ n ∈ f.tree.namedChildren, Shallow f.source (unexported n))
    (hshallow' : ∀ n ∈ g.tree.namedChildren, Shallow g.source (unexported n)) :
    g.facts.logger = f.facts.logger ∧ g.facts.declared = f.facts.declared ∧ g.facts.style = f.facts.style := by
  have hscope : scope f.source f.tree = scope g.source g.tree := by
    refine h.strewn.namedChildren.foldl_eq (fun t n n' hn hn' hnn' => ?_) (fun t c hc => ?_) ({} : Scope)
    · exact visit_strewn hnn' (hundisturbed n' hn') (hshallow n hn) (hshallow' n' hn')
        (hf.legible (unexported_mem_preorder hn)) (hg.legible (unexported_mem_preorder hn')) t
    · have hself : unexported c = c := unexported_of_kind (by rw [hc.kind]; decide)
      rw [unexported] at hself
      unfold visit
      dsimp only
      rw [hself, hc.kind]
  rw [facts_of_javascript hfamily, facts_of_javascript (h.grammar ▸ hfamily)]
  simp only [Facts.JavaScript.facts, h.path, h.grammar, ← hscope, and_self]

/-- A comment in every statement, and none in the way. -/
theorem facts_strewn_everywhere :
    let f := ofText "a.js" .javascript "import pino from 'pino';\nconst log = (pino());\nmodule.exports = log;\n"
    let g := ofText "a.js" .javascript
      "import pino /* a */ from 'pino';\nconst log /* b */ = (pino(/* c */) /* d */);\nmodule.exports = /* e */ log;\n"
    (f.grammar.family = .javascript ∧ Commented f g ∧ f.WellFormed ∧ g.WellFormed ∧
      (∀ n ∈ g.tree.namedChildren, Undisturbed g.source (unexported n)) ∧
      (∀ n ∈ f.tree.namedChildren, Shallow f.source (unexported n)) ∧
      ∀ n ∈ g.tree.namedChildren, Shallow g.source (unexported n)) ∧
    f.facts.logger.instantiated = ["log"] ∧
    g.facts.logger = f.facts.logger ∧ g.facts.declared = f.facts.declared ∧ g.facts.style = f.facts.style := by
  intro f g
  have hevaluated : isStrewn f.source g.source f.tree g.tree = true ∧ f.WellFormed ∧ g.WellFormed ∧
      (∀ n ∈ g.tree.namedChildren, Tidy (unexported n) ∧
        (∀ d ∈ declarators (unexported n), ∀ value ∈ d.child? .value,
          value.kind ∈ wrappers ∧ ∀ inner ∈ value.namedChildren.head?,
            inner.kind ≠ .comment ∧ inner.kind ∉ wrappers ∧ PlainCore g.source inner) ∧
        ((unexported n).kind = .expressionStatement → PlainExport g.source (unexported n))) ∧
      (∀ n ∈ f.tree.namedChildren, Shallow f.source (unexported n)) ∧
      (∀ n ∈ g.tree.namedChildren, Shallow g.source (unexported n)) ∧ f.facts.logger.instantiated = ["log"] := by
    decide +kernel
  obtain ⟨hstrewn, hf, hg, hplaces, hshallow, hshallow', hlogger⟩ := hevaluated
  have hcommented : Commented f g := ⟨rfl, rfl, strewn_of_isStrewn _ _ hstrewn⟩
  have hundisturbed : ∀ n ∈ g.tree.namedChildren, Undisturbed g.source (unexported n) := by
    intro n hn
    obtain ⟨htidy, hvalues, hexports⟩ := hplaces n hn
    refine ⟨htidy, fun d hd value hvalue => ?_, hexports⟩
    obtain ⟨hkind, hinner⟩ := hvalues d hd value hvalue
    exact .wrapped hkind (fun inner h => (hinner inner h).1) fun inner h => .core (hinner inner h).2.1 (hinner inner h).2.2
  exact ⟨⟨rfl, hcommented, hf, hg, hundisturbed, hshallow, hshallow'⟩, hlogger,
    facts_strewn rfl hcommented hf hg hundisturbed hshallow hshallow'⟩

/-- A comment in front of the name of a namespace import is taken for the name. -/
example : (ofText "a.js" .javascript "import * as /* c */ pino from 'pino';\n").facts.declared = ["/* c */"] := by
  decide +kernel

/-- A comment in front of what `require` is given hides a logger. -/
example : (ofText "a.js" .javascript "const log = require(/* c */ 'pino')();\n").facts.logger.instantiated = [] := by
  decide +kernel

end ParsedFile

end LogHygiene
