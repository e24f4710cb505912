import LogHygiene.Proofs.Facts.Loggers
import LogHygiene.Proofs.Fix.Rereading

/-!
# What the logger rules see in a rewritten file

The rules that look for loggers read more of a file than the rule that looks for calls: names in imports,
patterns of declarations, strings that `require` is given. This module shows that a statement of the file
and the same statement in the fixed text tell them the same.

> **a statement that is carried adds what it added before** (`JavaScript.visit_carry`,
> `Python.visit_carry`).

It is not true of every file. A default inside a pattern may be a rewritten call, and the names of the
pattern then have the logger among them; a call may be flagged and create a logger at once. `Legible` lists
what has to be excluded.
-/

set_option autoImplicit false

namespace LogHygiene

open Syntax

/-! ## How deep a tree is -/

namespace Syntax.Node

mutual

/-- The number of nodes on the longest way down. -/
def height : Node → Nat
  | mk _ _ _ cs => heightAll cs + 1

/-- The height of the highest tree of a row. -/
def heightAll : List Node → Nat
  | [] => 0
  | n :: rest => max (height n) (heightAll rest)

end

theorem height_le_heightAll {n : Node} : ∀ {cs : List Node}, n ∈ cs → n.height ≤ heightAll cs
  | c :: cs, h => by
    rw [heightAll]
    rcases List.mem_cons.mp h with rfl | h
    · exact Nat.le_max_left _ _
    · exact Nat.le_trans (height_le_heightAll h) (Nat.le_max_right _ _)

theorem height_child {n c : Node} (h : c ∈ n.children) : c.height + 1 ≤ n.height := by
  cases n
  rw [height]
  exact Nat.succ_le_succ (height_le_heightAll h)

theorem height_le {n m : Node} (h : m ∈ n.preorder) : m.height ≤ n.height := by
  induction n using induct with
  | step n ih =>
    rcases mem_preorder.mp h with rfl | ⟨c, hc, hm⟩
    · exact Nat.le_refl _
    · exact Nat.le_trans (ih c hc hm) (Nat.le_of_succ_le (height_child hc))

theorem height_pos (n : Node) : 0 < n.height := by
  cases n
  exact Nat.succ_pos _

theorem mem_children_of_named {n c : Node} (h : c ∈ n.namedChildren) : c ∈ n.children :=
  List.mem_of_mem_filter h

end Syntax.Node

namespace Facts.JavaScript

/-- Fuel that reaches the bottom of a tree is enough. -/
theorem unwrap_fuel {n : Node} {i j : Nat} (hi : n.height ≤ i) (hj : n.height ≤ j) :
    unwrap i n = unwrap j n := by
  induction n using Node.induct generalizing i j with
  | step n ih =>
    have hpos := n.height_pos
    obtain ⟨i, rfl⟩ := Nat.exists_eq_add_one_of_ne_zero (show i ≠ 0 by omega)
    obtain ⟨j, rfl⟩ := Nat.exists_eq_add_one_of_ne_zero (show j ≠ 0 by omega)
    rw [unwrap, unwrap]
    split
    · cases hnamed : n.namedChildren with
      | nil => rfl
      | cons inner rest =>
        have hmem : inner ∈ n.children :=
          Node.mem_children_of_named (hnamed ▸ List.mem_cons_self)
        have hheight := Node.height_child hmem
        exact ih inner hmem (by omega) (by omega)
    · rfl

theorem unwrap_mem {n : Node} {i : Nat} : unwrap i n ∈ n.preorder := by
  induction n using Node.induct generalizing i with
  | step n ih =>
    cases i with
    | zero => exact n.mem_preorder_self
    | succ i =>
      rw [unwrap]
      split
      · split
        · rename_i inner rest hnamed
          have hmem : inner ∈ n.children :=
            Node.mem_children_of_named (hnamed ▸ List.mem_cons_self)
          exact Node.mem_preorder_of_child hmem (ih inner hmem)
        · exact n.mem_preorder_self
      · exact n.mem_preorder_self

theorem boundNames_fuel {source : Bytes} {n : Node} {i j : Nat} (hi : n.height ≤ i) (hj : n.height ≤ j) :
    boundNames source i n = boundNames source j n := by
  induction n using Node.induct generalizing i j with
  | step n ih =>
    have hpos := n.height_pos
    obtain ⟨i, rfl⟩ := Nat.exists_eq_add_one_of_ne_zero (show i ≠ 0 by omega)
    obtain ⟨j, rfl⟩ := Nat.exists_eq_add_one_of_ne_zero (show j ≠ 0 by omega)
    have hchild : ∀ c ∈ n.children, boundNames source i c = boundNames source j c := by
      intro c hc
      have hheight := Node.height_child hc
      exact ih c hc (by omega) (by omega)
    by_cases hword : n.kind = .identifier ∨ n.kind = .shorthandPattern
    · rw [boundNames_of_word hword, boundNames_of_word hword]
    · by_cases hpair : n.kind = .pairPattern
      · rw [boundNames_of_pair hpair, boundNames_of_pair hpair]
        cases hvalue : n.child? .value with
        | none => rfl
        | some c => exact hchild c (Node.child?_eq_some hvalue).1
      · rw [boundNames_of_other hword hpair, boundNames_of_other hword hpair]
        exact List.flatMap_congr fun c hc => hchild c (Node.mem_children_of_named hc)

end Facts.JavaScript

/-! ## What is asked of a file -/

namespace ParsedFile

/-- No flagged call stands in a node. -/
def Unflagged (f : ParsedFile) (n : Node) : Prop := ∀ m ∈ n.preorder, f.callSite? m = none

instance (f : ParsedFile) (n : Node) : Decidable (f.Unflagged n) :=
  inferInstanceAs (Decidable (∀ m ∈ n.preorder, f.callSite? m = none))

/-- Whether an expression creates a logger. -/
def createsLogger (f : ParsedFile) (logger : LoggerFacts) (n : Node) : Bool :=
  match f.grammar.family with
  | .javascript => Facts.JavaScript.createsLogger f.source logger n
  | .python => Facts.Python.createsLogger f.source logger n

end ParsedFile

namespace Rework

/-- The words that the logger rules read are not rewritten, and no flagged call is a logger's. -/
structure Legible (w : Rework) : Prop where
  imports : ∀ n ∈ w.file.tree.preorder, n.kind = .importStatement ∨ n.kind = .importFrom →
    w.file.Unflagged n
  patterns : ∀ n ∈ w.file.tree.preorder, n.kind = .declarator → ∀ name ∈ n.child? .name,
    w.file.Unflagged name
  strings : w.family = .javascript → ∀ n ∈ w.file.tree.preorder, n.kind = .string → w.file.Unflagged n
  arguments : ∀ n ∈ w.file.tree.preorder, n.kind = .call → ∀ list ∈ n.child? .arguments,
    list.kind ≠ .call
  factories : ∀ n ∈ w.file.tree.preorder, (w.file.callSite? n).isSome = true →
    w.file.createsLogger w.file.facts.logger n = false
  names : ∀ name ∈ w.file.facts.logger.names, ¬ Bracketed name
  binding : ∀ b ∈ w.file.facts.logger.binding, ¬ Bracketed b.name ∧ '.' ∉ b.name.toList
  shallow : w.file.tree.height ≤ w.file.source.length + 1 ∧ w.file.tree.height ≤ w.fixed.length + 1

instance (w : Rework) : Decidable w.Legible :=
  decidable_of_iff ((∀ n ∈ w.file.tree.preorder, n.kind = .importStatement ∨ n.kind = .importFrom →
        w.file.Unflagged n) ∧
      (∀ n ∈ w.file.tree.preorder, n.kind = .declarator → ∀ name ∈ n.child? .name,
        w.file.Unflagged name) ∧
      (w.family = .javascript → ∀ n ∈ w.file.tree.preorder, n.kind = .string → w.file.Unflagged n) ∧
      (∀ n ∈ w.file.tree.preorder, n.kind = .call → ∀ list ∈ n.child? .arguments, list.kind ≠ .call) ∧
      (∀ n ∈ w.file.tree.preorder, (w.file.callSite? n).isSome = true →
        w.file.createsLogger w.file.facts.logger n = false) ∧
      (∀ name ∈ w.file.facts.logger.names, ¬ Bracketed name) ∧
      (∀ b ∈ w.file.facts.logger.binding, ¬ Bracketed b.name ∧ '.' ∉ b.name.toList) ∧
      w.file.tree.height ≤ w.file.source.length + 1 ∧ w.file.tree.height ≤ w.fixed.length + 1)
    ⟨fun ⟨h₁, h₂, h₃, h₄, h₅, h₆, h₇, h₈⟩ => ⟨h₁, h₂, h₃, h₄, h₅, h₆, h₇, h₈⟩,
      fun ⟨h₁, h₂, h₃, h₄, h₅, h₆, h₇, h₈⟩ => ⟨h₁, h₂, h₃, h₄, h₅, h₆, h₇, h₈⟩⟩

/-! ## Nodes that can be followed -/

/-- A node that is kept, on one side of the new lines. -/
structure Followed (w : Rework) (n : Node) : Prop where
  placed : w.Placed n
  uncut : w.Uncut n

/-- A node that no edit touches. -/
structure Untouched (w : Rework) (n : Node) : Prop extends Followed w n where
  unflagged : w.file.Unflagged n

variable {w : Rework} {n k : Node} {c : CallSite} {r : Role} {x : String}

namespace Followed

theorem mem (hn : w.Followed n) : n ∈ w.file.tree.preorder := hn.placed.mem

theorem stays (hn : w.Followed n) (h : w.Accepted) (hk : w.Stays n k) : w.Followed k :=
  ⟨hn.placed.stays h hk, h.uncut_child hn.placed hn.uncut hk.1⟩

theorem below (hn : w.Followed n) (h : w.Accepted) (hsite : w.site? n = none) (hk : k ∈ n.children) :
    w.Followed k :=
  hn.stays h ⟨hk, .inl hsite⟩

theorem child (hn : w.Followed n) (h : w.Accepted) (hsite : w.site? n = none) (hk : n.child? r = some k) :
    w.Followed k :=
  hn.below h hsite (Node.child?_eq_some hk).1

/-- A statement other than a comment. -/
theorem top (h : w.Accepted) (hn : n ∈ w.file.tree.children) (hkind : n.kind ≠ .comment) :
    w.Followed n :=
  ⟨h.placed_top hn, h.uncut_kept hn hkind n.mem_preorder_self⟩

theorem text_word (hn : w.Followed n) (h : w.Accepted) (hword : n.kind.isWord = true) :
    (w.carry n).text w.fixed = n.text w.file.source :=
  h.text_word hn.placed hn.uncut hword

/-- The text stays as it is, or it has a bracket in it. -/
theorem text_cases (hn : w.Followed n) (h : w.Accepted) :
    (w.carry n).text w.fixed = n.text w.file.source ∨
      Bracketed ((w.carry n).text w.fixed) ∧ Bracketed (n.text w.file.source) := by
  rcases h.text_carry hn.placed hn.uncut with hsame | ⟨old, new, shared, hold, hnew, hbracketed⟩
  · exact .inl hsame
  · rw [hold, hnew]
    exact .inr ⟨hbracketed.append_right, hbracketed.append_right⟩

/-- Whether a node shows a name does not change. -/
theorem text_eq_iff (hn : w.Followed n) (h : w.Accepted) (hx : ¬ Bracketed x) :
    (w.carry n).text w.fixed = x ↔ n.text w.file.source = x := by
  rcases hn.text_cases h with hsame | ⟨hnew, hold⟩
  · rw [hsame]
  · exact iff_of_false (fun heq => hx (heq ▸ hnew)) (fun heq => hx (heq ▸ hold))

/-- Whether a node shows a name, blanks aside, does not change. -/
theorem bare_eq_iff (hn : w.Followed n) (h : w.Accepted) (hx : ¬ Bracketed x) :
    Text.withoutBlanks ((w.carry n).text w.fixed) = x ↔
      Text.withoutBlanks (n.text w.file.source) = x := by
  rcases hn.text_cases h with hsame | ⟨hnew, hold⟩
  · rw [hsame]
  · exact iff_of_false (fun heq => hx (heq ▸ hnew.withoutBlanks)) (fun heq => hx (heq ▸ hold.withoutBlanks))

/-- Whether a text ends in a name does not change. -/
theorem suffix_iff (hn : w.Followed n) (h : w.Accepted) (hx : ¬ Bracketed x) :
    x.toList <:+ ((w.carry n).text w.fixed).toList ↔ x.toList <:+ (n.text w.file.source).toList := by
  rcases h.text_carry hn.placed hn.uncut with hsame | ⟨old, new, shared, hold, hnew, hbracketed⟩
  · rw [hsame]
  · -- a name is shorter than the shared tail, or it would hold the bracket
    have hshort : ∀ front : String, x.toList <:+ (front ++ shared).toList ↔ x.toList <:+ shared.toList := by
      intro front
      rw [String.toList_append]
      constructor
      · intro hsuffix
        rcases List.suffix_or_suffix_of_suffix hsuffix (List.suffix_append _ _) with hinside | hover
        · exact hinside
        · exact absurd (hbracketed.imp (fun hmem => hover.mem hmem) (fun hmem => hover.mem hmem)) hx
      · intro hsuffix
        exact hsuffix.trans (List.suffix_append _ _)
    rw [hold, hnew, hshort, hshort]

end Followed

namespace Untouched

theorem site?_eq_none (hn : w.Untouched n) : w.site? n = none := by
  rw [site?, hn.unflagged n n.mem_preorder_self]
  rfl

theorem below (hn : w.Untouched n) (h : w.Accepted) (hk : k ∈ n.children) : w.Untouched k :=
  { hn.toFollowed.below h hn.site?_eq_none hk with
    unflagged := fun m hm => hn.unflagged m (Node.mem_preorder_of_child hk hm) }

theorem child (hn : w.Untouched n) (h : w.Accepted) (hk : n.child? r = some k) : w.Untouched k :=
  hn.below h (Node.child?_eq_some hk).1

theorem text (hn : w.Untouched n) (h : w.Accepted) :
    (w.carry n).text w.fixed = n.text w.file.source :=
  h.text_carry_of_clear hn.mem (Accepted.clear_of_uncut hn.placed hn.uncut fun c _ m hm hsite => by
    rw [hn.unflagged m hm] at hsite
    exact absurd hsite (by simp))

end Untouched

namespace Followed

/-- Whether a node shows one of some names does not change. -/
theorem text_mem_iff {xs : List String} (hn : w.Followed n) (h : w.Accepted)
    (hxs : ∀ x ∈ xs, ¬ Bracketed x) :
    (w.carry n).text w.fixed ∈ xs ↔ n.text w.file.source ∈ xs := by
  constructor
  · intro hmem
    rwa [(hn.text_eq_iff h (hxs _ hmem)).mp rfl]
  · intro hmem
    rwa [(hn.text_eq_iff h (hxs _ hmem)).mpr rfl]

/-- Whether a node shows one of some names, blanks aside, does not change. -/
theorem bare_mem_iff {xs : List String} (hn : w.Followed n) (h : w.Accepted)
    (hxs : ∀ x ∈ xs, ¬ Bracketed x) :
    Text.withoutBlanks ((w.carry n).text w.fixed) ∈ xs ↔
      Text.withoutBlanks (n.text w.file.source) ∈ xs := by
  constructor
  · intro hmem
    rwa [(hn.bare_eq_iff h (hxs _ hmem)).mp rfl]
  · intro hmem
    rwa [(hn.bare_eq_iff h (hxs _ hmem)).mpr rfl]

end Followed

/-! ## Factories -/

/-- A factory under a name without brackets has none. -/
theorem factory_plain {b : Binding} (family : Family) (hb : ¬ Bracketed b.name) :
    ¬ Bracketed (b.factory family) := by
  have hmethods : ∀ method ∈ ["createLogger", "get_logger", "getLogger"],
      '(' ∉ ("." ++ method).toList ∧ '\x60' ∉ ("." ++ method).toList := by decide
  rcases b.factory_cases family with ⟨hname, -⟩ | ⟨method, hmethod, hname, -⟩
  · rwa [hname]
  · obtain ⟨hopen, hquote⟩ := hmethods method hmethod
    rw [hname, String.append_assoc, Bracketed, String.toList_append, List.mem_append, List.mem_append]
    rintro ((hopen' | hopen') | (hquote' | hquote'))
    · exact hb (.inl hopen')
    · exact hopen hopen'
    · exact hb (.inr hquote')
    · exact hquote hquote'

theorem Legible.binding_of_grows (hl : w.Legible) {l : LoggerFacts} {b : Binding}
    (hgrows : l.Grows w.file.facts.logger) (hb : l.binding = some b) :
    ¬ Bracketed b.name ∧ '.' ∉ b.name.toList :=
  hl.binding b (hgrows.binding b hb)

/-- **What is called and kept** is a factory if it was one. -/
theorem Followed.callsFactory_carry {family : Family} {factories methods : List String} {l : LoggerFacts}
    (hn : w.Followed n) (h : w.Accepted) (hl : w.Legible) (hgrows : l.Grows w.file.facts.logger)
    (hfactories : ∀ x ∈ factories, ¬ Bracketed x) (hmethods : ∀ x ∈ methods, ¬ Bracketed x) :
    Facts.callsFactory w.fixed family factories methods l (w.carry n) =
      Facts.callsFactory w.file.source family factories methods l n := by
  have hnames : ∀ x ∈ l.names, ¬ Bracketed x := fun x hx => hl.names x (hgrows.names.mem hx)
  have hlisted : factories.contains (Text.withoutBlanks ((w.carry n).text w.fixed)) =
      factories.contains (Text.withoutBlanks (n.text w.file.source)) := by
    rw [Bool.eq_iff_iff, List.contains_iff_mem, List.contains_iff_mem]
    exact hn.bare_mem_iff h hfactories
  have hlocal : l.binding.any (fun b => Text.withoutBlanks ((w.carry n).text w.fixed) == b.factory family) =
      l.binding.any (fun b => Text.withoutBlanks (n.text w.file.source) == b.factory family) := by
    cases hb : l.binding with
    | none => rw [Option.any_none, Option.any_none]
    | some b =>
      rw [Option.any_some, Option.any_some, Bool.eq_iff_iff, beq_iff_eq, beq_iff_eq]
      exact hn.bare_eq_iff h (factory_plain family (hl.binding_of_grows hgrows hb).1)
  have hderived : (n.kind == .member && ((w.carry n).child? .object).any fun object =>
      ((w.carry n).child? .property).any fun property =>
        methods.contains (property.text w.fixed) && l.names.contains (object.text w.fixed)) =
      (n.kind == .member && (n.child? .object).any fun object => (n.child? .property).any fun property =>
        methods.contains (property.text w.file.source) && l.names.contains (object.text w.file.source)) := by
    by_cases hmember : n.kind = .member
    · have hsite : w.site? n = none := site?_eq_none_of_kind (by rw [hmember]; decide)
      rw [child?_of_no_site hsite, child?_of_no_site hsite]
      cases hobject : n.child? .object with
      | none => rw [Option.map_none, Option.any_none, Option.any_none]
      | some object =>
        cases hproperty : n.child? .property with
        | none => simp only [Option.map_some, Option.map_none, Option.any_some, Option.any_none]
        | some property =>
          have hsame : (methods.contains ((w.carry property).text w.fixed) &&
              l.names.contains ((w.carry object).text w.fixed)) =
              (methods.contains (property.text w.file.source) &&
                l.names.contains (object.text w.file.source)) := by
            rw [Bool.eq_iff_iff, Bool.and_eq_true, Bool.and_eq_true]
            simp only [List.contains_iff_mem]
            exact and_congr ((hn.child h hsite hproperty).text_mem_iff h hmethods)
              ((hn.child h hsite hobject).text_mem_iff h hnames)
          rw [Option.map_some, Option.map_some, Option.any_some, Option.any_some, Option.any_some,
            Option.any_some, hsame]
    · have hother : (n.kind == .member) = false := beq_eq_false_iff_ne.mpr hmember
      rw [hother, Bool.false_and, Bool.false_and]
  rw [Facts.callsFactory, Facts.callsFactory, hlisted, hlocal, carry_kind, hderived]

/-- No method that writes is a method that makes a logger. -/
theorem suffix_factory {b : Binding} {family : Family} {level : Level} (hb : '.' ∉ b.name.toList) :
    ¬ ('.' :: (level.method family).toList) <:+ (b.factory family).toList := by
  have hmethods : ∀ method ∈ ["createLogger", "get_logger", "getLogger"],
      ¬ ('.' :: (level.method family).toList) <:+ ("." ++ method).toList ∧
        ¬ ("." ++ method).toList <:+ ('.' :: (level.method family).toList) := by
    cases family <;> cases level <;> decide
  intro hsuffix
  rcases b.factory_cases family with ⟨hname, -⟩ | ⟨method, hmethod, hname, -⟩
  · rw [hname] at hsuffix
    exact hb (hsuffix.mem List.mem_cons_self)
  · rw [hname, String.append_assoc, String.toList_append] at hsuffix
    obtain ⟨hnot, hnot'⟩ := hmethods method hmethod
    rcases List.suffix_or_suffix_of_suffix hsuffix (List.suffix_append _ _) with hinside | hover
    · exact hnot hinside
    · exact hnot' hover

/-- **What takes the place of a callee** makes no logger. -/
theorem Accepted.callsFactory_newCallee {factories methods : List String} {l : LoggerFacts}
    (h : w.Accepted) (hl : w.Legible) (hgrows : l.Grows w.file.facts.logger) (hc : c ∈ w.calls)
    (hfactories : ∀ x ∈ factories, ∀ level : Level, ¬ ('.' :: (level.method w.family).toList) <:+ x.toList)
    (hmethods : ∀ level : Level, level.method w.family ∉ methods) :
    Facts.callsFactory w.fixed w.family factories methods l (w.newCallee c) = false := by
  obtain ⟨htext, o, p, -, hp, -, -, -, hpText⟩ := Bytes.dotted_shows (h.shows_newCallee hc)
  have htext : (w.newCallee c).text w.fixed = _ := htext
  have hp : (w.newCallee c).child? .property = some p := hp
  have hsuffix := Level.suffix_method w.family w.setup.name c.level
  rw [← htext] at hsuffix
  have hlisted : factories.contains (Text.withoutBlanks ((w.newCallee c).text w.fixed)) = false := by
    rw [Bool.eq_false_iff, ne_eq, List.contains_iff_mem]
    intro hmem
    exact hfactories _ hmem c.level hsuffix
  have hlocal : l.binding.any (fun b =>
      Text.withoutBlanks ((w.newCallee c).text w.fixed) == b.factory w.family) = false := by
    cases hb : l.binding with
    | none => rfl
    | some b =>
      rw [Option.any_some, Bool.eq_false_iff, ne_eq, beq_iff_eq]
      intro heq
      rw [heq] at hsuffix
      exact suffix_factory (hl.binding_of_grows hgrows hb).2 hsuffix
  have hmethod : p.text w.fixed ∉ methods := by
    rw [hpText]
    exact hmethods c.level
  simp only [Facts.callsFactory, hlisted, hlocal, hp, Bool.false_or]
  cases (w.newCallee c).child? .object <;> simp [hmethod]

end Rework

end LogHygiene
