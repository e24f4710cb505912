import LogHygiene.Proofs.Displacement
import LogHygiene.Proofs.Fix.Rewriting
import LogHygiene.Proofs.Fix.Standing
import LogHygiene.Proofs.Logger.Statements
import Mathlib.Data.Finset.Max

/-!
# The tree of a rewritten file

A fix is judged by reading its result again: the second look at the fixed text finds calls, comments and
loggers in a tree that no rule of the first look has seen. What that tree is, is up to the readers, and a
reader may be surprised (lines put in front of the second half of a comment are not statements). What it
is **meant** to be is said here: `Rework.children` are the statements of the fixed text, made from those of
the file without reading again.

* Every node is carried to where its bytes went, and the callee of a rewritten call is exchanged for the
  logger's method (`Rework.carry`).
* The new lines stand between the statements in front of the insertion place and those behind it, unless
  something reaches over that place.

`Rework.Reread` is the promise of a reader, that reading the fixed text gives this tree. The rest of the
module finds out what the rules see in it.

> **a node that stays shows what it showed before, or shows something else in front of the same last
> bracket** (`text_carry`).

The second half is about nodes with rewritten calls below them. Their text changes, and since every rule
compares with names, the bracket is enough to know that neither text is one.
-/

set_option autoImplicit false

namespace LogHygiene

open Syntax

/-! ## A file on the way through a rewrite -/

/-- A file that was read, and under which settings and name it is rewritten. -/
structure Rework where
  file : ParsedFile
  settings : FamilySettings
  shown : String

namespace Rework

variable (w : Rework)

def family : Family := w.file.grammar.family

/-- The calls that are rewritten. -/
def calls : List CallSite := w.settings.activeCalls w.file w.file.facts

def setup : LoggerSetup := LoggerSetup.choose w.shown w.family w.settings w.file.facts

def insertion : Insertion := w.file.facts.insertion

/-- The file has no logger, so lines are put in. -/
def isNew : Bool := w.file.facts.logger.preferred?.isNone

def edits : List Edit :=
  (Rewrite.plan w.shown w.family w.settings w.file.facts w.calls).edits

/-- The text after the edits. -/
def fixed : Bytes := Edit.splice w.file.source 0 (Edit.inOrder w.edits)

/-- Where a stretch of the file is in the fixed text. -/
def span (s : Span) : Span :=
  ⟨w.fixed.position (Edit.startAfter w.edits s.start.byte),
    w.fixed.position (Edit.stopAfter w.edits s.stop.byte)⟩

/-- What takes the place of a callee. -/
def newCallee (c : CallSite) : Node :=
  w.fixed.dotted w.family .callee (Edit.startAfter w.edits c.callee.start.byte) w.setup.name
    (c.level.method w.family)

/-- The call that a node is, if it is rewritten. -/
def site? (n : Node) : Option CallSite := (w.file.callSite? n).filter (w.calls.contains ·)

mutual

/-- A node in the fixed text. -/
def carry : Node → Node
  | .mk k r s cs => .mk k r (w.span s) (carryAll (w.site? (.mk k r s cs)) cs)

/-- A row of children in the fixed text, when their parent is the given call. -/
def carryAll (site : Option CallSite) : List Node → List Node
  | [] => []
  | n :: rest =>
    (match site with
      | some c => if n.role == .callee then w.newCallee c else carry n
      | none => carry n) :: carryAll site rest

end

mutual

/-- The nodes of a tree that are still there in the fixed text. -/
def kept : Node → List Node
  | .mk k r s cs => .mk k r s cs :: keptAll (w.site? (.mk k r s cs)) cs

/-- The nodes below a row of children that are still there, when their parent is the given call. -/
def keptAll (site : Option CallSite) : List Node → List Node
  | [] => []
  | n :: rest => (if site.isSome && n.role == .callee then [] else kept n) ++ keptAll site rest

end

/-- Whether a statement reaches over the insertion place. -/
def reachesOver (n : Node) : Bool := n.start < w.insertion.byte && w.insertion.byte < n.stop

/-- The binding that the new logger is created from. -/
def binding : Binding := w.file.facts.logger.binding.getD (.fresh w.settings.backend)

/-- The offset of the first new line in the fixed text. -/
def blockStart : Nat := w.insertion.byte + (if w.insertion.needsLeadingNewline then 1 else 0)

/-- The offset of the line that creates the logger in the fixed text. -/
def instanceStart : Nat :=
  match w.file.facts.logger.binding with
  | some _ => w.blockStart
  | none => w.blockStart +
    Bytes.widthOf (importStatement w.family w.file.facts.style w.settings.backend) + 1

/-- The statements that are put in. -/
def newNodes : List Node :=
  (match w.file.facts.logger.binding with
    | some _ => []
    | none => [w.fixed.importNode w.family w.file.facts.style w.settings.backend w.blockStart]) ++
  [w.fixed.instanceNode w.family w.binding w.setup.name w.instanceStart]

/-- New statements stand in the fixed text: there are some, and nothing reaches over their place. -/
def plants : Bool := w.isNew && !w.file.tree.children.any w.reachesOver

/-- The statements of the fixed text. -/
def children : List Node :=
  let cs := w.file.tree.children
  if w.plants then
    (cs.filter (·.stop ≤ w.insertion.byte)).map w.carry ++ w.newNodes ++
      (cs.filter fun n => !decide (n.stop ≤ w.insertion.byte)).map w.carry
  else cs.map w.carry

/-- **Reading the fixed text gives the tree that the rewrite left.** -/
structure Reread (w : Rework) (after : ParsedFile) : Prop where
  grammar : after.grammar = w.file.grammar
  source : after.source = w.fixed
  root : after.tree.kind = .file
  children : after.tree.children = w.children

instance (w : Rework) (after : ParsedFile) : Decidable (w.Reread after) :=
  decidable_of_iff (after.grammar = w.file.grammar ∧ after.source = w.fixed ∧ after.tree.kind = .file ∧
      after.tree.children = w.children)
    ⟨fun ⟨h₁, h₂, h₃, h₄⟩ => ⟨h₁, h₂, h₃, h₄⟩, fun ⟨h₁, h₂, h₃, h₄⟩ => ⟨h₁, h₂, h₃, h₄⟩⟩

/-! ### Carried nodes -/

/-- A child in the fixed text, when its parent is the given call. -/
def carryBelow (site : Option CallSite) (n : Node) : Node :=
  match site with
  | some c => if n.role == .callee then w.newCallee c else w.carry n
  | none => w.carry n

variable {w : Rework} {n m k x : Node} {c : CallSite}

theorem carryAll_eq_map (site : Option CallSite) : ∀ cs : List Node,
    w.carryAll site cs = cs.map (w.carryBelow site)
  | [] => rfl
  | n :: rest => by
    show w.carryBelow site n :: w.carryAll site rest = _
    rw [carryAll_eq_map site rest, List.map_cons]

@[simp] theorem carry_kind (n : Node) : (w.carry n).kind = n.kind := by cases n; rfl

@[simp] theorem carry_role (n : Node) : (w.carry n).role = n.role := by cases n; rfl

@[simp] theorem carry_span (n : Node) : (w.carry n).span = w.span n.span := by cases n; rfl

theorem carry_children (n : Node) :
    (w.carry n).children = n.children.map (w.carryBelow (w.site? n)) := by
  cases n
  exact carryAll_eq_map _ _

theorem carryBelow_of_ne (site : Option CallSite) (h : n.role ≠ .callee) :
    w.carryBelow site n = w.carry n := by
  cases site with
  | none => rfl
  | some c => rw [carryBelow, if_neg (by simpa using h)]

@[simp] theorem carryBelow_role (site : Option CallSite) (n : Node) :
    (w.carryBelow site n).role = n.role := by
  cases site with
  | none => exact carry_role n
  | some c =>
    rw [carryBelow]
    split
    · rename_i h
      exact (eq_of_beq h).symm
    · exact carry_role n

theorem child?_carry (n : Node) (r : Role) :
    (w.carry n).child? r = (n.child? r).map (w.carryBelow (w.site? n)) := by
  rw [Node.child?, carry_children, List.find?_map, Node.child?]
  congr 2
  funext k
  exact congrArg (· == r) (carryBelow_role _ k)

theorem isNew_of_plants (h : w.plants = true) : w.isNew = true := (Bool.and_eq_true_iff.mp h).1

theorem site?_eq_some : w.site? n = some c ↔ w.file.callSite? n = some c ∧ c ∈ w.calls := by
  rw [site?, Option.filter_eq_some_iff, List.contains_iff_mem]

theorem site?_eq_none_of_kind (h : n.kind ≠ .call) : w.site? n = none := by
  rw [site?, ParsedFile.callSite?_eq_none_of_kind h]
  rfl

/-! A node that is no rewritten call has all its children carried. -/

theorem carry_children_of_no_site (hsite : w.site? n = none) :
    (w.carry n).children = n.children.map w.carry := by
  rw [carry_children, hsite]
  rfl

theorem child?_of_no_site (hsite : w.site? n = none) (r : Role) :
    (w.carry n).child? r = (n.child? r).map w.carry := by
  rw [child?_carry, hsite]
  rfl

theorem childrenIn_of_no_site (hsite : w.site? n = none) (r : Role) :
    (w.carry n).childrenIn r = (n.childrenIn r).map w.carry := by
  rw [Node.childrenIn, carry_children_of_no_site hsite, List.filter_map, Node.childrenIn]
  congr 2
  funext k
  exact congrArg (· == r) (carry_role k)

theorem namedChildren_of_no_site (hsite : w.site? n = none) :
    (w.carry n).namedChildren = n.namedChildren.map w.carry := by
  rw [Node.namedChildren, carry_children_of_no_site hsite, List.filter_map, Node.namedChildren]
  congr 2
  funext k
  exact congrArg Kind.isNamed (carry_kind k)

/-- The callee of a rewritten call. -/
theorem child?_callee_of_site (hsite : w.site? n = some c) :
    (w.carry n).child? .callee = some (w.newCallee c) := by
  obtain ⟨-, -, callee, hcallee, -⟩ := ParsedFile.callSite?_eq_some (site?_eq_some.mp hsite).1
  rw [child?_carry, hcallee, hsite, Option.map_some, carryBelow,
    if_pos (by simpa using (Node.child?_eq_some hcallee).2)]

/-! ### Kept nodes -/

/-- A child is kept unless it is what a rewritten call calls. -/
def Stays (w : Rework) (n k : Node) : Prop := k ∈ n.children ∧ (w.site? n = none ∨ k.role ≠ .callee)

theorem mem_keptAll (site : Option CallSite) : ∀ cs : List Node, m ∈ w.keptAll site cs ↔
    ∃ k ∈ cs, (site = none ∨ k.role ≠ .callee) ∧ m ∈ w.kept k
  | [] => by simp [keptAll]
  | n :: rest => by
    simp only [keptAll, List.mem_append, mem_keptAll site rest, List.mem_cons, exists_eq_or_imp]
    refine or_congr ?_ Iff.rfl
    cases site with
    | none => simp
    | some c => by_cases hrole : n.role = .callee <;> simp [hrole]

theorem mem_kept : m ∈ w.kept n ↔ m = n ∨ ∃ k, w.Stays n k ∧ m ∈ w.kept k := by
  cases n with
  | mk k r s cs =>
    rw [kept, List.mem_cons, mem_keptAll]
    refine or_congr Iff.rfl ⟨?_, ?_⟩
    · rintro ⟨k, hk, hstays, hm⟩
      exact ⟨k, ⟨hk, hstays⟩, hm⟩
    · rintro ⟨k, ⟨hk, hstays⟩, hm⟩
      exact ⟨k, hk, hstays, hm⟩

theorem mem_kept_self (n : Node) : n ∈ w.kept n := mem_kept.mpr (.inl rfl)

theorem stays_of_child? {r : Role} (hsite : w.site? n = none) (hk : n.child? r = some k) : w.Stays n k :=
  ⟨(Node.child?_eq_some hk).1, .inl hsite⟩

theorem mem_kept_of_stays (hk : w.Stays n k) (hm : m ∈ w.kept k) : m ∈ w.kept n :=
  mem_kept.mpr (.inr ⟨k, hk, hm⟩)

/-- A child that stays is carried. -/
theorem carryBelow_of_stays (h : w.Stays n k) : w.carryBelow (w.site? n) k = w.carry k := by
  rcases h.2 with hnone | hrole
  · rw [hnone]
    rfl
  · exact carryBelow_of_ne _ hrole

/-- **The nodes of a carried tree are the kept nodes, carried, and the new callees.** -/
theorem mem_preorder_carry : x ∈ (w.carry n).preorder ↔ (∃ m ∈ w.kept n, x = w.carry m) ∨
    ∃ m ∈ w.kept n, ∃ c, w.site? m = some c ∧ (∃ k ∈ m.children, k.role = .callee) ∧
      x ∈ (w.newCallee c).preorder := by
  induction n using Node.induct with
  | step n ih =>
    rw [Node.mem_preorder, carry_children]
    simp only [List.mem_map, exists_exists_and_eq_and]
    constructor
    · rintro (rfl | ⟨k, hk, hx⟩)
      · exact .inl ⟨n, mem_kept_self n, rfl⟩
      · by_cases hstays : w.site? n = none ∨ k.role ≠ .callee
        · rw [carryBelow_of_stays ⟨hk, hstays⟩, ih k hk] at hx
          rcases hx with ⟨m, hm, rfl⟩ | ⟨m, hm, hrest⟩
          · exact .inl ⟨m, mem_kept_of_stays ⟨hk, hstays⟩ hm, rfl⟩
          · exact .inr ⟨m, mem_kept_of_stays ⟨hk, hstays⟩ hm, hrest⟩
        · obtain ⟨hsite, hrole⟩ := not_or.mp hstays
          rw [ne_eq, Decidable.not_not] at hrole
          obtain ⟨c, hc⟩ := Option.ne_none_iff_exists'.mp hsite
          rw [hc, carryBelow, if_pos (by simpa using hrole)] at hx
          exact .inr ⟨n, mem_kept_self n, c, hc, ⟨k, hk, hrole⟩, hx⟩
    · rintro (⟨m, hm, rfl⟩ | ⟨m, hm, c, hc, ⟨l, hl, hrole⟩, hx⟩)
      · rcases mem_kept.mp hm with rfl | ⟨k, hk, hm⟩
        · exact .inl rfl
        · refine .inr ⟨k, hk.1, ?_⟩
          rw [carryBelow_of_stays hk, ih k hk.1]
          exact .inl ⟨m, hm, rfl⟩
      · rcases mem_kept.mp hm with rfl | ⟨k, hk, hm⟩
        · refine .inr ⟨l, hl, ?_⟩
          rw [hc, carryBelow, if_pos (by simpa using hrole)]
          exact hx
        · refine .inr ⟨k, hk.1, ?_⟩
          rw [carryBelow_of_stays hk, ih k hk.1]
          exact .inr ⟨m, hm, c, hc, ⟨l, hl, hrole⟩, hx⟩

end Rework

/-! ## What is asked of a tree -/

/-- The byte of a backquote. -/
def backquote : UInt8 := 96

/-- A text with the bracket or the backquote of a call in it. No name has one. -/
def Bracketed (text : String) : Prop := '(' ∈ text.toList ∨ '\x60' ∈ text.toList

instance (text : String) : Decidable (Bracketed text) :=
  inferInstanceAs (Decidable ('(' ∈ text.toList ∨ '\x60' ∈ text.toList))

namespace Bracketed

variable {s t : String}

theorem append_right (h : Bracketed t) : Bracketed (s ++ t) := by
  rw [Bracketed, String.toList_append]
  exact h.imp (List.mem_append_right _) (List.mem_append_right _)

theorem withoutBlanks (h : Bracketed t) : Bracketed (Text.withoutBlanks t) := by
  rw [Bracketed, Text.withoutBlanks, String.toList_ofList]
  exact h.imp (fun h => List.mem_filter.mpr ⟨h, by decide⟩) (fun h => List.mem_filter.mpr ⟨h, by decide⟩)

end Bracketed

/-- Kinds of nodes that are single words. -/
def Syntax.Kind.isWord : Kind → Bool
  | identifier | propertyName | shorthandPattern | comment => true
  | _ => false

namespace ParsedFile

/-- What the readers promise about a file besides `WellFormed`: words have no parts, a call has one thing that it calls
and a bracket behind it, and what stands between the statements lies in one line. -/
structure Regular (f : ParsedFile) : Prop where
  root : f.tree.kind = .file
  words : ∀ n ∈ f.tree.preorder, n.kind.isWord = true → n.children = []
  oneCallee : ∀ n ∈ f.tree.preorder, n.kind = .call → (n.childrenIn .callee).length ≤ 1
  bracketed : ∀ n ∈ f.tree.preorder, n.kind = .call → ∀ callee ∈ n.child? .callee,
    openParenthesis ∈ f.source.slice callee.stop n.stop ∨ backquote ∈ f.source.slice callee.stop n.stop
  oneLine : ∀ n ∈ f.tree.children, n.kind.isNamed = false → n.span.start.row = n.span.stop.row

instance (f : ParsedFile) : Decidable f.Regular :=
  decidable_of_iff (f.tree.kind = .file ∧
      (∀ n ∈ f.tree.preorder, n.kind.isWord = true → n.children = []) ∧
      (∀ n ∈ f.tree.preorder, n.kind = .call → (n.childrenIn .callee).length ≤ 1) ∧
      (∀ n ∈ f.tree.preorder, n.kind = .call → ∀ callee ∈ n.child? .callee,
        openParenthesis ∈ f.source.slice callee.stop n.stop ∨
          backquote ∈ f.source.slice callee.stop n.stop) ∧
      ∀ n ∈ f.tree.children, n.kind.isNamed = false → n.span.start.row = n.span.stop.row)
    ⟨fun ⟨h₁, h₂, h₃, h₄, h₅⟩ => ⟨h₁, h₂, h₃, h₄, h₅⟩, fun ⟨h₁, h₂, h₃, h₄, h₅⟩ => ⟨h₁, h₂, h₃, h₄, h₅⟩⟩

/-- A flagged call reaches over its callee. -/
theorem WellFormed.callee_inside {f : ParsedFile} {n : Node} {c : CallSite} (h : f.WellFormed)
    (hn : n ∈ f.tree.preorder) (hsite : f.callSite? n = some c) :
    n.start ≤ c.callee.start.byte ∧ c.callee.stop.byte ≤ n.stop := by
  obtain ⟨-, -, callee, hcallee, hspan, -⟩ := callSite?_eq_some hsite
  rw [hspan]
  exact (h.nested n hn).inside callee (Node.child?_eq_some hcallee).1

/-- Where a call begins with what it calls, every flagged call is among the calls: no two start together. -/
theorem WellFormed.mem_calls_iff {f : ParsedFile} {c : CallSite} (h : f.WellFormed)
    (hheaded : ∀ n ∈ f.tree.preorder, n.Headed) :
    c ∈ f.facts.calls ↔ ∃ n ∈ f.tree.preorder, f.callSite? n = some c := by
  refine ⟨exists_node_of_mem_calls, fun ⟨n, hn, hsite⟩ => ?_⟩
  have hc : c ∈ f.tree.preorder.filterMap f.callSite? := List.mem_filterMap.mpr ⟨n, hn, hsite⟩
  obtain ⟨d, hd, hstart⟩ := CallSite.exists_mem_inOrder hc
  have hsites := CallSite.mem_of_mem_inOrder hd
  rw [← f.facts_calls] at hd
  suffices hsame : d = c from hsame ▸ hd
  by_contra hne
  have hsymm : Std.Symm CallSite.Apart := ⟨fun _ _ => CallSite.Apart.symm⟩
  have hapart := h.sites_apart.forall hsites hc hne
  -- both callees would start where both calls do
  have hfirst : ∀ {x : CallSite}, x ∈ f.tree.preorder.filterMap f.callSite? →
      x.callee.start.byte = x.call.start.byte ∧ x.callee.start.byte < x.callee.stop.byte := by
    intro x hx
    obtain ⟨m, hm, hsite⟩ := List.mem_filterMap.mp hx
    obtain ⟨hkind, hcall, callee, hcallee, hspan, -⟩ := callSite?_eq_some hsite
    rw [hcall, hspan]
    exact ⟨(hheaded m hm).call hkind callee hcallee, h.fits.callee_wide hm hsite hcallee⟩
  have hc := hfirst hc
  have hd := hfirst hsites
  rcases hapart with hbefore | hbefore <;> omega

end ParsedFile

namespace Rework

/-- A rewrite of a regular file that went through. -/
structure Accepted (w : Rework) : Prop where
  wellFormed : w.file.WellFormed
  positioned : w.file.Positioned
  headed : ∀ n ∈ w.file.tree.preorder, n.Headed
  regular : w.file.Regular
  early : Project.earlyCall? w.file.facts w.calls = none
  applied : Edit.applyAll w.file.source w.edits = .ok w.fixed

variable {w : Rework} {n m k t : Node} {c : CallSite} {e : Edit}

/-! ## The edits of a rewrite -/

theorem edits_eq (w : Rework) : w.edits = (if w.isNew = true then
      [.insert w.insertion.byte (Bytes.ofText (w.setup.block w.insertion))] else []) ++
    w.calls.map (w.setup.callEdit w.family) :=
  congrArg (· ++ w.calls.map (w.setup.callEdit w.family)) (LoggerSetup.edits_choose w.insertion)

theorem mem_edits : e ∈ w.edits ↔ (w.isNew = true ∧
      e = .insert w.insertion.byte (Bytes.ofText (w.setup.block w.insertion))) ∨
    ∃ c ∈ w.calls, w.setup.callEdit w.family c = e := by
  rw [edits_eq, List.mem_append, List.mem_map]
  refine or_congr ?_ Iff.rfl
  cases w.isNew <;> simp

/-- All that edits put in is text. -/
theorem text?_edits : ∀ e ∈ w.edits, e.text.text?.isSome = true := by
  intro e he
  rcases mem_edits.mp he with ⟨-, rfl⟩ | ⟨c, -, rfl⟩
  · rw [Edit.insert, Bytes.text?_ofText]
    rfl
  · rw [LoggerSetup.callEdit, Bytes.text?_ofText]
    rfl

theorem setup_of_old (hnew : w.isNew = false) : w.setup.lines = [] := by
  obtain ⟨name, hname⟩ := Option.ne_none_iff_exists'.mp (Option.isSome_iff_ne_none.mp (by simpa [isNew] using hnew))
  rw [setup, LoggerSetup.choose_of_some hname]

theorem exists_node_of_mem_calls (hc : c ∈ w.calls) :
    ∃ n ∈ w.file.tree.preorder, w.file.callSite? n = some c :=
  ParsedFile.exists_node_of_mem_calls
    ((w.settings.activeCalls_sublist w.file w.file.facts).mem hc)

namespace Accepted

theorem sound (h : w.Accepted) (hc : c ∈ w.calls) : c.Sound w.file.source :=
  h.wellFormed.callSite_sound ((w.settings.activeCalls_sublist w.file w.file.facts).mem hc)

/-- New lines go in front of every callee that is exchanged. -/
theorem insertion_le (h : w.Accepted) (hnew : w.isNew = true) (hc : c ∈ w.calls) :
    w.insertion.byte ≤ c.callee.start.byte :=
  Nat.le_trans (Rewrite.insertion_le_of_earlyCall? h.early (Option.isNone_iff_eq_none.mp hnew) hc)
    (h.sound hc).inside

end Accepted

/-! ## Where kept nodes stand to the edits -/

/-- The insertion place is not inside a node. -/
def Uncut (w : Rework) (n : Node) : Prop := w.insertion.byte ≤ n.start ∨ n.stop ≤ w.insertion.byte

/-- A node that every rewritten call is clear of, or inside. -/
structure Placed (w : Rework) (n : Node) : Prop where
  mem : n ∈ w.file.tree.preorder
  calls : ∀ c ∈ w.calls, (c.callee.stop.byte ≤ n.start ∨ n.stop ≤ c.callee.start.byte) ∨
    ∃ m ∈ n.preorder, w.file.callSite? m = some c

/-- What lies beside a call that is inside a node is clear of its callee. -/
theorem Accepted.placed_beside (h : w.Accepted) (hn : n ∈ w.file.tree.preorder) {a b : Node}
    (ha : a ∈ n.children) (hb : b ∈ n.children) (hm : m ∈ b.preorder)
    (hsite : w.file.callSite? m = some c) :
    (c.callee.stop.byte ≤ a.start ∨ a.stop ≤ c.callee.start.byte) ∨
      ∃ m ∈ a.preorder, w.file.callSite? m = some c := by
  by_cases hsame : a = b
  · exact .inr ⟨m, hsame ▸ hm, hsite⟩
  · have hnested := h.wellFormed.nested.sub hn
    have hin := h.wellFormed.callee_inside
      (Node.mem_preorder_trans (ParsedFile.WellFormed.mem_child hn hb) hm) hsite
    have hspan := (hnested.child hb).span_of_mem hm
    have hapart := hnested.children_apart ha hb hsame
    refine .inl ?_
    omega

theorem Placed.stays (h : w.Accepted) (hn : w.Placed n) (hk : w.Stays n k) : w.Placed k := by
  refine ⟨ParsedFile.WellFormed.mem_child hn.mem hk.1, fun c hc => ?_⟩
  rcases hn.calls c hc with hclear | ⟨m, hm, hsite⟩
  · have hin := (h.wellFormed.nested n hn.mem).inside k hk.1
    refine .inl ?_
    omega
  · rcases Node.mem_preorder.mp hm with rfl | ⟨j, hj, hmj⟩
    · obtain ⟨-, -, callee, hcallee, hspan, -⟩ := ParsedFile.callSite?_eq_some hsite
      obtain ⟨hmem, hrole⟩ := Node.child?_eq_some hcallee
      have hne : k ≠ callee := by
        rintro rfl
        rcases hk.2 with hnone | hother
        · rw [site?_eq_some.mpr ⟨hsite, hc⟩] at hnone
          exact absurd hnone (by simp)
        · exact hother hrole
      have hapart := (h.wellFormed.nested.sub hn.mem).children_apart hk.1 hmem hne
      rw [hspan]
      exact .inl hapart.symm
    · exact h.placed_beside hn.mem hk.1 hj hmj hsite

namespace Accepted

theorem placed_top (h : w.Accepted) (ht : t ∈ w.file.tree.children) : w.Placed t := by
  have hroot := w.file.tree.mem_preorder_self
  refine ⟨ParsedFile.WellFormed.mem_child hroot ht, fun c hc => ?_⟩
  obtain ⟨m, hm, hsite⟩ := exists_node_of_mem_calls hc
  rcases Node.mem_preorder.mp hm with rfl | ⟨j, hj, hmj⟩
  · have hkind := (ParsedFile.callSite?_eq_some hsite).1
    rw [h.regular.root] at hkind
    exact absurd hkind (by decide)
  · exact h.placed_beside hroot ht hj hmj hsite

theorem placed_kept (h : w.Accepted) (hn : w.Placed n) (hm : m ∈ w.kept n) : w.Placed m := by
  induction n using Node.induct with
  | step n ih =>
    rcases mem_kept.mp hm with rfl | ⟨k, hk, hm⟩
    · exact hn
    · exact ih k hk.1 (hn.stays h hk) hm

/-- What is kept of a statement other than a comment lies on one side of the new lines. -/
theorem uncut_kept (h : w.Accepted) (ht : t ∈ w.file.tree.children) (hkind : t.kind ≠ .comment)
    (hm : m ∈ t.preorder) : w.Uncut m := by
  have hspan := (h.wellFormed.nested.child ht).span_of_mem hm
  have hbeside : w.insertion.byte ≤ t.start ∨ t.stop ≤ w.insertion.byte := by
    cases hnamed : t.kind.isNamed with
    | true => exact h.wellFormed.insertion_beside h.positioned ht hnamed hkind
    | false => exact h.wellFormed.insertion_beside_word h.positioned ht (h.regular.oneLine t ht hnamed)
  unfold Uncut
  omega

/-- What is below an uncut node is uncut. -/
theorem uncut_child (h : w.Accepted) (hn : w.Placed n) (huncut : w.Uncut n) (hk : k ∈ n.children) :
    w.Uncut k := by
  have hin := (h.wellFormed.nested n hn.mem).inside k hk
  unfold Uncut at huncut ⊢
  omega

end Accepted

theorem mem_preorder_of_kept (hm : m ∈ w.kept n) : m ∈ n.preorder := by
  induction n using Node.induct with
  | step n ih =>
    rcases mem_kept.mp hm with rfl | ⟨k, hk, hm⟩
    · exact m.mem_preorder_self
    · exact Node.mem_preorder_of_child hk.1 (ih k hk.1 hm)

/-- A node that is not kept stands in what a rewritten call calls. -/
theorem mem_kept_or_called (hm : m ∈ n.preorder) : m ∈ w.kept n ∨ ∃ a ∈ n.preorder, ∃ c k,
    w.site? a = some c ∧ k ∈ a.children ∧ k.role = .callee ∧ m ∈ k.preorder := by
  induction n using Node.induct with
  | step n ih =>
    rcases Node.mem_preorder.mp hm with rfl | ⟨k, hk, hm⟩
    · exact .inl (mem_kept_self m)
    · by_cases hstays : w.site? n = none ∨ k.role ≠ .callee
      · rcases ih k hk hm with hkept | ⟨a, ha, hcalled⟩
        · exact .inl (mem_kept_of_stays ⟨hk, hstays⟩ hkept)
        · exact .inr ⟨a, Node.mem_preorder_of_child hk ha, hcalled⟩
      · obtain ⟨hsite, hrole⟩ := not_or.mp hstays
        obtain ⟨c, hc⟩ := Option.ne_none_iff_exists'.mp hsite
        exact .inr ⟨n, n.mem_preorder_self, c, k, hc, hk, not_not.mp hrole, hm⟩

/-- Every flagged call is kept, since none stands in what another calls. -/
theorem Accepted.site_kept (h : w.Accepted) (ht : t ∈ w.file.tree.children) (hm : m ∈ t.preorder)
    (hsite : w.file.callSite? m = some c) : m ∈ w.kept t := by
  rcases mem_kept_or_called (w := w) hm with hkept | ⟨a, ha, d, k, hd, hk, hrole, hmk⟩
  · exact hkept
  · have haTree := Node.mem_preorder_of_child ht ha
    obtain ⟨hd, -⟩ := site?_eq_some.mp hd
    obtain ⟨hkind, -, callee, hcallee, -⟩ := ParsedFile.callSite?_eq_some hd
    obtain rfl := Node.eq_of_childrenIn_le_one (h.regular.oneCallee a haTree hkind) hcallee hk hrole
    rw [h.wellFormed.callSite?_eq_none_of_callee haTree hd hcallee hmk] at hsite
    exact absurd hsite (by simp)

/-! ## What carried nodes show -/

theorem carry_start (n : Node) : (w.carry n).start = Edit.startAfter w.edits n.start := by
  rw [Node.start, carry_span]
  rfl

theorem carry_stop (n : Node) : (w.carry n).stop = Edit.stopAfter w.edits n.stop := by
  rw [Node.stop, carry_span]
  rfl

/-- No edit touches a node. -/
def Clear (w : Rework) (n : Node) : Prop := ∀ e ∈ w.edits, e.stop ≤ n.start ∨ n.stop ≤ e.start

namespace Accepted

theorem text_carry_of_clear (h : w.Accepted) (hn : n ∈ w.file.tree.preorder) (hclear : w.Clear n) :
    (w.carry n).text w.fixed = n.text w.file.source := by
  have hslice := Edit.slice_after_untouched h.applied hclear (h.wellFormed.forward hn)
    (h.wellFormed.length_le hn)
  rw [Node.text, Node.text, carry_start, carry_stop, Bytes.textBetween, hslice, Bytes.textBetween]

theorem clear_of_uncut (hn : w.Placed n)
    (huncut : w.Uncut n)
    (hnone : ∀ c ∈ w.calls, ∀ m ∈ n.preorder, w.file.callSite? m ≠ some c) : w.Clear n := by
  intro e he
  rcases mem_edits.mp he with ⟨-, rfl⟩ | ⟨c, hc, rfl⟩
  · exact huncut
  · rcases hn.calls c hc with hclear | ⟨m, hm, hsite⟩
    · exact hclear
    · exact absurd hsite (hnone c hc m hm)

/-- A word is clear of every edit, wherever it is kept. -/
theorem clear_word (h : w.Accepted) (hn : w.Placed n)
    (huncut : w.Uncut n) (hword : n.kind.isWord = true) :
    w.Clear n := by
  refine clear_of_uncut hn huncut fun c _ m hm hsite => ?_
  rcases Node.mem_preorder.mp hm with rfl | ⟨k, hk, -⟩
  · rw [(ParsedFile.callSite?_eq_some hsite).1] at hword
    exact absurd hword (by decide)
  · rw [h.regular.words n hn.mem hword] at hk
    exact absurd hk (by simp)

/-- A word shows what it showed before. -/
theorem text_word (h : w.Accepted) (hn : w.Placed n) (huncut : w.Uncut n)
    (hword : n.kind.isWord = true) : (w.carry n).text w.fixed = n.text w.file.source :=
  h.text_carry_of_clear hn.mem (h.clear_word hn huncut hword)

/-- Of the rewritten calls inside a node, one has the last callee. -/
theorem exists_last (h : w.Accepted) (hn : w.Placed n)
    (hsome : ∃ c ∈ w.calls, ∃ m ∈ n.preorder, w.file.callSite? m = some c) :
    ∃ c ∈ w.calls, ∃ m ∈ n.preorder, w.file.callSite? m = some c ∧
      ∀ e ∈ w.edits, e.stop ≤ c.callee.stop.byte ∨ n.stop ≤ e.start := by
  classical
  obtain ⟨c, hc, hinside⟩ := hsome
  let inside := w.calls.toFinset.filter fun c => ∃ m ∈ n.preorder, w.file.callSite? m = some c
  obtain ⟨c, hc, hlast⟩ := inside.exists_max_image (fun c => c.callee.stop.byte)
    ⟨c, Finset.mem_filter.mpr ⟨List.mem_toFinset.mpr hc, hinside⟩⟩
  obtain ⟨hc, m, hm, hsite⟩ := Finset.mem_filter.mp hc
  have hc := List.mem_toFinset.mp hc
  have hmTree := Node.mem_preorder_trans hn.mem hm
  have hspan := (h.wellFormed.nested.sub hn.mem).span_of_mem hm
  have hin := h.wellFormed.callee_inside hmTree hsite
  have hwide := (h.sound hc).wide
  refine ⟨c, hc, m, hm, hsite, fun e he => ?_⟩
  rcases mem_edits.mp he with ⟨hnew, rfl⟩ | ⟨d, hd, rfl⟩
  · exact .inl (Nat.le_trans (h.insertion_le hnew hc) (Nat.le_of_lt hwide))
  · rcases hn.calls d hd with hclear | hinside
    · show d.callee.stop.byte ≤ _ ∨ _ ≤ d.callee.start.byte
      omega
    · exact .inl (hlast d (Finset.mem_filter.mpr ⟨List.mem_toFinset.mpr hd, hinside⟩))

/-- **What is kept of a statement shows what it showed before, or something else in front of the same last
bracket.** -/
theorem text_carry (h : w.Accepted) (hn : w.Placed n)
    (huncut : w.Uncut n) :
    (w.carry n).text w.fixed = n.text w.file.source ∨
      ∃ old new shared : String, n.text w.file.source = old ++ shared ∧
        (w.carry n).text w.fixed = new ++ shared ∧ Bracketed shared := by
  by_cases hsome : ∃ c ∈ w.calls, ∃ m ∈ n.preorder, w.file.callSite? m = some c
  swap
  · refine .inl (h.text_carry_of_clear hn.mem (clear_of_uncut hn huncut fun c hc m hm hsite => ?_))
    exact hsome ⟨c, hc, m, hm, hsite⟩
  obtain ⟨c, hc, m, hm, hsite, hlast⟩ := h.exists_last hn hsome
  have hmTree := Node.mem_preorder_trans hn.mem hm
  have hspan := (h.wellFormed.nested.sub hn.mem).span_of_mem hm
  have hin := h.wellFormed.callee_inside hmTree hsite
  have hwide := (h.sound hc).wide
  have hcut : Edit.Cut w.edits n.start := by
    intro e he
    rcases mem_edits.mp he with ⟨-, rfl⟩ | ⟨d, hd, rfl⟩
    · exact Nat.le_total _ _
    · show d.callee.stop.byte ≤ _ ∨ _ ≤ d.callee.start.byte
      rcases hn.calls d hd with hclear | ⟨k, hk, hk'⟩
      · have hforward := h.wellFormed.forward hn.mem
        omega
      · have hkspan := (h.wellFormed.nested.sub hn.mem).span_of_mem hk
        have hkin := h.wellFormed.callee_inside (Node.mem_preorder_trans hn.mem hk) hk'
        omega
  obtain ⟨hstart, hstop⟩ := h.wellFormed.boundaries n hn.mem
  have hmiddle := (h.sound hc).stopsBetween
  obtain ⟨new, hnew⟩ := Edit.slice_after_tail h.applied h.wellFormed.text text?_edits hcut hlast
    (by omega) (by omega) (by omega) (h.wellFormed.length_le hn.mem) hstart hmiddle
  have hshared := Bytes.ofText_textBetween h.wellFormed.text hmiddle hstop (by omega)
  refine .inr ⟨w.file.source.textBetween n.start c.callee.stop.byte, new,
    w.file.source.textBetween c.callee.stop.byte n.stop, ?_, ?_, ?_⟩
  · apply Bytes.ofText_injective
    rw [Bytes.ofText_append, hshared,
      Bytes.ofText_textBetween h.wellFormed.text hstart hmiddle (by omega),
      Edit.slice_append_slice (by omega) (by omega)]
    exact Bytes.ofText_textBetween h.wellFormed.text hstart hstop (by omega)
  · rw [Node.text, carry_start, carry_stop, Bytes.textBetween, hnew, ← hshared, ← Bytes.ofText_append,
      Bytes.text?_ofText]
    rfl
  · obtain ⟨hkind, -, callee, hcallee, hcalleeSpan, -⟩ := ParsedFile.callSite?_eq_some hsite
    have hbracket := h.regular.bracketed m hmTree hkind callee hcallee
    have hwiden : ∀ {b : UInt8}, b ∈ w.file.source.slice callee.stop m.stop →
        b ∈ Bytes.ofText (w.file.source.textBetween c.callee.stop.byte n.stop) := by
      intro b hb
      obtain ⟨q, hlow, hhigh, hq⟩ := Bytes.mem_slice.mp hb
      rw [hshared, hcalleeSpan]
      exact Bytes.mem_slice.mpr ⟨q, hlow, by omega, hq⟩
    exact hbracket.imp
      (fun hb => Bytes.mem_toList_of_ascii (x := openParenthesis) (by decide) (hwiden hb))
      (fun hb => Bytes.mem_toList_of_ascii (x := backquote) (by decide) (hwiden hb))

/-! ## What new nodes show -/

/-- What is put in the place of a callee. -/
theorem shows_newCallee (h : w.Accepted) (hc : c ∈ w.calls) :
    w.fixed.Shows (Edit.startAfter w.edits c.callee.start.byte)
      (w.setup.name ++ "." ++ c.level.method w.family) := by
  have hslice := Edit.slice_after_edit (e := w.setup.callEdit w.family c) h.applied
    (mem_edits.mpr (.inr ⟨c, hc, rfl⟩)) (h.sound hc).wide
  refine .of_slice hslice fun hempty => ?_
  have hdot : '.' ∈ (w.setup.name ++ "." ++ c.level.method w.family).toList := by simp
  rw [hempty] at hdot
  exact absurd hdot (by simp)

/-- New lines stand behind what was in front of the insertion place. -/
theorem fixed_of_new (h : w.Accepted) (hnew : w.isNew = true) :
    ∃ rest, w.fixed = w.file.source.take w.insertion.byte ++
      (Bytes.ofText (w.setup.block w.insertion) ++ rest) := by
  have happlied := h.applied
  rw [edits_eq, if_pos hnew, List.singleton_append] at happlied
  refine Edit.applyAll_insert happlied fun e he => ?_
  obtain ⟨c, hc, rfl⟩ := List.mem_map.mp he
  exact ⟨h.insertion_le hnew hc, (h.sound hc).wide⟩

theorem shows_block (h : w.Accepted) (hnew : w.isNew = true) :
    w.fixed.Shows w.insertion.byte (w.setup.block w.insertion) := by
  obtain ⟨rest, hrest⟩ := h.fixed_of_new hnew
  have hle : w.insertion.byte ≤ w.file.source.length :=
    (Edit.misfit?_eq_none.mp ((Edit.applyAll_eq_ok h.applied).2.1 _ (mem_edits.mpr (.inl ⟨hnew, rfl⟩)))).2.1
  refine ⟨w.file.source.take w.insertion.byte, rest, hrest, ?_⟩
  rw [List.length_take, Nat.min_eq_left hle]

theorem setup_of_new (hnew : w.isNew = true) : w.setup.lines =
    (match w.file.facts.logger.binding with
      | some _ => []
      | none => [⟨.importAdded, importStatement w.family w.file.facts.style w.settings.backend⟩]) ++
    [⟨.loggerAdded, instanceStatement w.family w.binding w.setup.name⟩] := by
  have hnone := Option.isNone_iff_eq_none.mp hnew
  unfold setup LoggerSetup.choose binding
  rw [hnone]
  cases w.file.facts.logger.binding <;> rfl

/-- The new lines, from where the first of them starts. -/
theorem shows_lines (h : w.Accepted) (hnew : w.isNew = true) :
    w.fixed.Shows w.blockStart ("\n".intercalate (w.setup.lines.map NewLine.text)) := by
  have hlines := (h.shows_block hnew).left.right
  rw [blockStart]
  split at hlines
  · rename_i hlead
    rw [if_pos hlead]
    exact hlines
  · rename_i hlead
    rw [if_neg hlead]
    exact hlines

theorem shows_instance (h : w.Accepted) (hnew : w.isNew = true) :
    w.fixed.Shows w.instanceStart (instanceStatement w.family w.binding w.setup.name) := by
  have hlines := h.shows_lines hnew
  rw [setup_of_new hnew] at hlines
  unfold instanceStart
  cases hbinding : w.file.facts.logger.binding with
  | some b =>
    rw [hbinding] at hlines
    exact hlines
  | none =>
    rw [hbinding] at hlines
    have hsecond := Bytes.Shows.right (s := importStatement w.family w.file.facts.style w.settings.backend ++
      "\n") hlines
    rw [Bytes.widthOf_append, ← Nat.add_assoc] at hsecond
    exact hsecond

theorem shows_import (h : w.Accepted) (hnew : w.isNew = true)
    (hbinding : w.file.facts.logger.binding = none) :
    w.fixed.Shows w.blockStart (importStatement w.family w.file.facts.style w.settings.backend) := by
  have hlines := h.shows_lines hnew
  rw [setup_of_new hnew, hbinding] at hlines
  exact Bytes.Shows.left (t := "\n") (Bytes.Shows.left
    (t := instanceStatement w.family w.binding w.setup.name) hlines)

end Accepted

end Rework

end LogHygiene
