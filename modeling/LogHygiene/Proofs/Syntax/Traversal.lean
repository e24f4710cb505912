import LogHygiene.Proofs.Loop
import LogHygiene.Proofs.Syntax.Geometry
import LogHygiene.Syntax.Traversal
import LogHygiene.Syntax.Tree

/-!
# What the loops over a tree come to

The two loops over a tree are compared with the tree in document order, `Node.preorder`. What carries them is what is
still ahead: a turn of the cursor passes one node of it, and a turn of the search for a fault passes either one node
that is no fault or a whole tree that has none in it. So

> **the cursor is at every node of the tree once, in document order** (`Cursor.nodes_of_run`), and **the search ends with
> the first fault** (`Node.finish_search`).

The search leaves out trees by what it is told about them, and only of that it needs to be told right.
-/

set_option autoImplicit false

namespace LogHygiene.Syntax

/-! ## The cursor -/

namespace Cursor

theorem ahead_top (tree : Node) : (top tree).ahead = tree.preorder := List.append_nil _

/-- From a place on, a cursor is at each of the nodes ahead, one after the other. -/
theorem nodes_of_run {c : Cursor} {places : List Cursor} (h : walk.Run c places) : places.map node = c.ahead := by
  induction h with
  | @last c hnone =>
    have hnext : c.next? = none := hnone
    rw [ahead_eq, hnext]
    rfl
  | @turn c d places hsome _ ih =>
    have hnext : c.next? = some d := hsome
    rw [ahead_eq, hnext, List.map_cons, ih]

/-- What a walk over a tree gathers by looking at nodes, it gathers from them in document order. -/
theorem fold_walk {α : Type} (gather : α → Node → α) (soFar : α) (tree : Node) :
    walk.fold (fun a c => gather a c.node) soFar (top tree) = tree.preorder.foldl gather soFar := by
  obtain ⟨places, hrun⟩ := walk.exists_run (top tree)
  rw [hrun.fold_eq, ← ahead_top, ← nodes_of_run hrun, List.foldl_map]

end Cursor

/-! ## The first fault -/

namespace Node

variable {flagged : Node → Bool}

/-- Where the search ends, the tree on top is the first fault ahead, or nothing is ahead. -/
theorem back?_of_searchOn?_none {stack : Array Node} (h : searchOn? flagged stack = none) :
    (aheadOn stack).find? (·.kind.isFault) = stack.back? := by
  unfold searchOn? at h
  split at h
  · rename_i hback
    obtain rfl := Array.back?_eq_none_iff.mp hback
    rfl
  · rename_i n hback
    split at h
    · rename_i hkind
      rw [aheadOn_of_back? hback, hback, List.cons_append]
      exact List.find?_cons_of_pos hkind
    · split at h <;> exact absurd h (by simp)

/-- **The search ends with the first fault**, if no tree with a fault in it is left out. -/
theorem finish_search {stack : Array Node}
    (hflagged : ∀ n ∈ aheadOn stack, flagged n = false → ∀ m ∈ n.preorder, m.kind.isFault = false) :
    ((search flagged).finish stack).back? = (aheadOn stack).find? (·.kind.isFault) := by
  induction stack using (search flagged).induct with
  | last s hnone => rw [Loop.finish_of_last hnone, back?_of_searchOn?_none hnone]
  | turn s t hsome ih =>
    rw [Loop.finish_of_turn hsome]
    obtain ⟨n, hkind, hone | ⟨hclean, hwhole⟩⟩ := aheadOn_of_searchOn? hsome
    · rw [hone] at hflagged ⊢
      rw [ih fun m hm => hflagged m (List.mem_cons_of_mem _ hm), List.find?_cons_of_neg (by simp [hkind])]
    · rw [hwhole] at hflagged ⊢
      rw [ih fun m hm => hflagged m (List.mem_append_right _ hm), List.find?_append]
      -- nothing in the tree that is left out is a fault
      have hnone : (n :: preorderAll n.children).find? (·.kind.isFault) = none := by
        have hpreorder : n :: preorderAll n.children = n.preorder := by rw [preorder_eq, preorderAll_eq_flatMap]
        refine List.find?_eq_none.mpr fun m hm => ?_
        rw [hpreorder] at hm
        simp [hflagged n (List.mem_append_left _ List.mem_cons_self) hclean m hm]
      rw [hnone, Option.none_or]

theorem aheadOn_singleton (n : Node) : aheadOn #[n] = n.preorder := List.append_nil _

theorem finish_search_tree {n : Node}
    (hflagged : ∀ m ∈ n.preorder, flagged m = false → ∀ d ∈ m.preorder, d.kind.isFault = false) :
    ((search flagged).finish #[n]).back? = n.preorder.find? (·.kind.isFault) := by
  rw [← aheadOn_singleton] at hflagged ⊢
  exact finish_search hflagged

/-- What is reported of a tree: the first fault, and the whole tree if it is flagged without one. -/
theorem firstFaultBy_eq {n : Node}
    (hflagged : ∀ m ∈ n.preorder, flagged m = false → ∀ d ∈ m.preorder, d.kind.isFault = false) :
    n.firstFaultBy flagged = (match n.preorder.find? (·.kind.isFault) with
      | some m => some m.span
      | none => if flagged n then some n.span else none) := by
  rw [firstFaultBy, finish_search_tree hflagged]
  cases hflag : flagged n with
  | true => cases n.preorder.find? (·.kind.isFault) <;> rfl
  | false =>
    have hnone : n.preorder.find? (·.kind.isFault) = none :=
      List.find?_eq_none.mpr fun m hm => by simp [hflagged n n.mem_preorder_self hflag m hm]
    rw [hnone]
    rfl

/-- A tree in which nothing is wrong has no fault. -/
theorem isFault_of_hasFault {n : Node} (h : n.hasFault = false) : ∀ m ∈ n.preorder, m.kind.isFault = false := by
  intro m hm
  have hclean := List.any_eq_false.mp h m hm
  simp only [Bool.or_eq_true, not_or, Bool.not_eq_true] at hclean
  exact hclean.1

theorem firstFault?_eq (n : Node) : n.firstFault? =
    (match n.preorder.find? (·.kind.isFault) with
      | some m => some m.span
      | none => if n.hasFault then some n.span else none) :=
  firstFaultBy_eq fun _ _ => isFault_of_hasFault

/-- **The search for the first fault** of a tree of which every part is flagged exactly if there is a fault in it. It
ends, with no more turns than the tree has parts; what it reports is the first fault in document order, or nothing if
there is none; and if the tree is flagged, it ends with a fault on top of the stack. -/
theorem firstFaultBy_eq_find? (flagged : Node → Bool) (tree : Node)
    (hflags : ∀ n ∈ tree.preorder, flagged n = true ↔ ∃ m ∈ n.preorder, m.kind.isFault = true) :
    (∃ states, (search flagged).Run #[tree] states ∧ states.length ≤ tree.preorder.length + 1) ∧
      tree.firstFaultBy flagged = (tree.preorder.find? (·.kind.isFault)).map span ∧
      (flagged tree = true → ∃ m, ((search flagged).finish #[tree]).back? = some m ∧ m.kind.isFault = true) := by
  have hclean : ∀ n ∈ tree.preorder, flagged n = false → ∀ m ∈ n.preorder, m.kind.isFault = false := by
    intro n hn hflag m hm
    have hnone := mt (hflags n hn).mpr (Bool.eq_false_iff.mp hflag)
    exact Bool.eq_false_iff.mpr fun hkind => hnone ⟨m, hm, hkind⟩
  refine ⟨?_, ?_, ?_⟩
  · obtain ⟨states, hrun⟩ := (search flagged).exists_run #[tree]
    exact ⟨states, hrun, aheadOn_singleton tree ▸ hrun.length_le⟩
  · rw [firstFaultBy_eq hclean]
    cases hfind : tree.preorder.find? (·.kind.isFault) with
    | some m => rfl
    | none =>
      -- without a fault the tree is not flagged
      have hflag : ¬ flagged tree = true := by
        rw [hflags tree tree.mem_preorder_self]
        rintro ⟨m, hm, hkind⟩
        exact List.find?_eq_none.mp hfind m hm hkind
      simp only [hflag, if_false, Option.map_none, Bool.false_eq_true]
  · intro hflag
    obtain ⟨m, hm, hkind⟩ := (hflags tree tree.mem_preorder_self).mp hflag
    have hsome : (tree.preorder.find? (·.kind.isFault)).isSome = true := List.find?_isSome.mpr ⟨m, hm, hkind⟩
    obtain ⟨first, hfirst⟩ := Option.isSome_iff_exists.mp hsome
    exact ⟨first, (finish_search_tree hclean).trans hfirst, by simpa using List.find?_some hfirst⟩

/-- A call without its closing parenthesis, in a block behind a call that has one. -/
def unclosedCall : Node := Grammar.javascript.tree (Bytes.ofText "f(1); \x7b g(2; \x7d\n")

/-- The first statement is left out, and the search goes down to where the parenthesis is missing. -/
theorem firstFaultBy_eq_find?_unclosedCall :
    (∀ n ∈ unclosedCall.preorder, n.hasFault = true ↔ ∃ m ∈ n.preorder, m.kind.isFault = true) ∧
      unclosedCall.firstFault? = some ⟨⟨11, 0, 11⟩, ⟨11, 0, 11⟩⟩ ∧
      ∃ m, ((search hasFault).finish #[unclosedCall]).back? = some m ∧ m.kind.isFault = true := by
  obtain ⟨hflags, hspan, hflag⟩ :
      (∀ n ∈ unclosedCall.preorder, n.hasFault = true ↔ ∃ m ∈ n.preorder, m.kind.isFault = true) ∧
        (unclosedCall.preorder.find? (·.kind.isFault)).map span = some ⟨⟨11, 0, 11⟩, ⟨11, 0, 11⟩⟩ ∧
        unclosedCall.hasFault = true := by decide +kernel
  obtain ⟨-, hfirst, hended⟩ := firstFaultBy_eq_find? hasFault unclosedCall hflags
  exact ⟨hflags, hfirst.trans hspan, hended hflag⟩

end Node

end LogHygiene.Syntax
