import LogHygiene.Syntax.Node
import Mathlib.Data.List.Pairwise

/-!
# The geometry of a tree

Facts about a file are found by walking over its tree, and what a rewrite may do with them depends on
where nodes stand to each other. There is only one rule about that, and it is local: the children of a
node lie inside it, one behind the other (`Node.Orderly`). A tree is *nested* if all its nodes keep it.

> **of two nodes, one is below the other or they stand side by side**, and the order of the walk says
> which is which (`preorder_pairwise`).

Everything about call sites that overlap or do not overlap comes from this.
-/

set_option autoImplicit false

namespace LogHygiene.Syntax.Node

/-! ## Walking -/

/-- Induction over a tree: what holds of a node when it holds of its children holds of every node. -/
theorem induct {P : Node → Prop} (step : ∀ n : Node, (∀ c ∈ n.children, P c) → P n) : ∀ n, P n
  | mk _ _ _ cs => step _ fun c _ => induct step c
decreasing_by
  rename_i hc
  have hlt := List.sizeOf_lt_of_mem hc
  simp only [children] at hlt
  simp only [mk.sizeOf_spec]
  omega

theorem preorderAll_eq_flatMap : ∀ cs : List Node, preorderAll cs = cs.flatMap preorder
  | [] => rfl
  | c :: cs => by rw [preorderAll, preorderAll_eq_flatMap cs, List.flatMap_cons]

theorem preorder_eq (n : Node) : n.preorder = n :: n.children.flatMap preorder := by
  cases n
  rw [preorder, preorderAll_eq_flatMap]
  rfl

theorem mem_preorder_self (n : Node) : n ∈ n.preorder := by
  rw [preorder_eq]
  exact List.mem_cons_self

/-- The nodes below a node. -/
theorem mem_preorder {n m : Node} : m ∈ n.preorder ↔ m = n ∨ ∃ c ∈ n.children, m ∈ c.preorder := by
  rw [preorder_eq, List.mem_cons, List.mem_flatMap]

theorem mem_preorder_of_child {n c m : Node} (hc : c ∈ n.children) (hm : m ∈ c.preorder) :
    m ∈ n.preorder :=
  mem_preorder.mpr (.inr ⟨c, hc, hm⟩)

theorem mem_preorder_trans {m k : Node} : ∀ {n : Node}, m ∈ n.preorder → k ∈ m.preorder →
    k ∈ n.preorder := by
  intro n
  induction n using induct with
  | step n ih =>
    intro hm hk
    rcases mem_preorder.mp hm with rfl | ⟨c, hc, hm⟩
    · exact hk
    · exact mem_preorder_of_child hc (ih c hc hm hk)

theorem child?_eq_some {n c : Node} {r : Role} (h : n.child? r = some c) :
    c ∈ n.children ∧ c.role = r :=
  ⟨List.mem_of_find?_eq_some h, by simpa using List.find?_some h⟩

/-! ## Equality -/

mutual

/-- Whether two trees are the same. -/
def same : Node → Node → Bool
  | mk k r s cs, mk k' r' s' cs' => k == k' && r == r' && s == s' && sameAll cs cs'

/-- Whether two rows of trees are the same. -/
def sameAll : List Node → List Node → Bool
  | [], [] => true
  | n :: rest, n' :: rest' => same n n' && sameAll rest rest'
  | _, _ => false

end

mutual

theorem same_iff : ∀ n n' : Node, same n n' = true ↔ n = n'
  | mk k r s cs, mk k' r' s' cs' => by
    simp only [same, Bool.and_eq_true, beq_iff_eq, sameAll_iff cs cs', mk.injEq, and_assoc]

theorem sameAll_iff : ∀ ns ns' : List Node, sameAll ns ns' = true ↔ ns = ns'
  | [], [] => by simp [sameAll]
  | [], _ :: _ => by simp [sameAll]
  | _ :: _, [] => by simp [sameAll]
  | n :: rest, n' :: rest' => by
    simp only [sameAll, Bool.and_eq_true, same_iff n n', sameAll_iff rest rest', List.cons.injEq]

end

instance : DecidableEq Node := fun n n' => decidable_of_iff (same n n' = true) (same_iff n n')

/-! ## Nesting -/

/-- The children of a node lie inside it, one behind the other. -/
structure Orderly (n : Node) : Prop where
  forward : n.start ≤ n.stop
  inside : ∀ c ∈ n.children, n.start ≤ c.start ∧ c.stop ≤ n.stop
  apart : n.children.Pairwise fun a b => a.stop ≤ b.start

instance (n : Node) : Decidable n.Orderly :=
  decidable_of_iff (n.start ≤ n.stop ∧ (∀ c ∈ n.children, n.start ≤ c.start ∧ c.stop ≤ n.stop) ∧
      n.children.Pairwise fun a b => a.stop ≤ b.start)
    ⟨fun ⟨h₁, h₂, h₃⟩ => ⟨h₁, h₂, h₃⟩, fun ⟨h₁, h₂, h₃⟩ => ⟨h₁, h₂, h₃⟩⟩

/-- A tree all of whose nodes are orderly. -/
def Nested (t : Node) : Prop := ∀ n ∈ t.preorder, n.Orderly

instance (t : Node) : Decidable t.Nested := inferInstanceAs (Decidable (∀ n ∈ t.preorder, n.Orderly))

namespace Nested

variable {t : Node}

theorem sub (h : t.Nested) {n : Node} (hn : n ∈ t.preorder) : n.Nested :=
  fun m hm => h m (mem_preorder_trans hn hm)

theorem child (h : t.Nested) {c : Node} (hc : c ∈ t.children) : c.Nested :=
  h.sub (mem_preorder_of_child hc c.mem_preorder_self)

/-- What is below a node lies inside it. -/
theorem span_of_mem {m : Node} (h : t.Nested) (hm : m ∈ t.preorder) :
    t.start ≤ m.start ∧ m.start ≤ m.stop ∧ m.stop ≤ t.stop := by
  induction t using induct with
  | step t ih =>
    rcases mem_preorder.mp hm with rfl | ⟨c, hc, hm⟩
    · exact ⟨Nat.le.refl, (h m hm).forward, Nat.le.refl⟩
    · obtain ⟨hstart, hforward, hstop⟩ := ih c hc (h.child hc) hm
      obtain ⟨hl, hr⟩ := (h t t.mem_preorder_self).inside c hc
      omega

/-- What is below one child stands in front of what is below a later one. -/
theorem flatMap_pairwise : ∀ {cs : List Node} {R : Node → Node → Prop},
    (∀ c ∈ cs, c.preorder.Pairwise R) →
    (cs.Pairwise fun a b => ∀ m ∈ a.preorder, ∀ k ∈ b.preorder, R m k) →
    (cs.flatMap preorder).Pairwise R
  | [], _, _, _ => .nil
  | c :: cs, _, hself, hpair => by
    obtain ⟨hc, hcs⟩ := List.forall_mem_cons.mp hself
    obtain ⟨hfirst, hrest⟩ := List.pairwise_cons.mp hpair
    rw [List.flatMap_cons, List.pairwise_append]
    refine ⟨hc, flatMap_pairwise hcs hrest, fun m hm k hk => ?_⟩
    obtain ⟨d, hd, hk⟩ := List.mem_flatMap.mp hk
    exact hfirst d hd m hm k hk

/-- **Of two nodes in the order of the walk, the second is below the first or behind it.** -/
theorem preorder_pairwise (h : t.Nested) :
    t.preorder.Pairwise fun a b => (∃ c ∈ a.children, b ∈ c.preorder) ∨ a.stop ≤ b.start := by
  induction t using induct with
  | step t ih =>
    rw [preorder_eq, List.pairwise_cons]
    refine ⟨fun m hm => .inl (List.mem_flatMap.mp hm), flatMap_pairwise (fun c hc => ih c hc (h.child hc)) ?_⟩
    refine (h t t.mem_preorder_self).apart.imp_of_mem fun {a b} ha hb hab m hm k hk => .inr ?_
    have hm := (h.child ha).span_of_mem hm
    have hk := (h.child hb).span_of_mem hk
    omega

/-- Two different children of a node stand side by side. -/
theorem children_apart (h : t.Nested) {a b : Node} (ha : a ∈ t.children) (hb : b ∈ t.children)
    (hne : a ≠ b) : a.stop ≤ b.start ∨ b.stop ≤ a.start := by
  have hsymm : Std.Symm fun a b : Node => a.stop ≤ b.start ∨ b.stop ≤ a.start := ⟨fun _ _ => Or.symm⟩
  have hpair : t.children.Pairwise fun a b => a.stop ≤ b.start ∨ b.stop ≤ a.start :=
    (h t t.mem_preorder_self).apart.imp Or.inl
  exact hpair.forall ha hb hne

end Nested

end LogHygiene.Syntax.Node
