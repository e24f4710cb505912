import LogHygiene.Loop
import LogHygiene.Syntax.Node

/-!
# Going through a tree

Two loops go through a tree. A **cursor** moves from node to node: to the first child, else to the next
sibling, else to that of the nearest ancestor that has one. The search for the first fault keeps a **stack**
of trees that it has not looked into, takes the topmost, and leaves it out if nothing is wrong in it.

Both go forward in document order. What is `ahead` of a cursor or on a stack are the nodes that it has still
to come to; every turn leaves fewer of them, and that is why both loops end.
-/

set_option autoImplicit false

namespace LogHygiene.Syntax

/-! ## The cursor -/

/-- An ancestor of a node, with those of its children that come after the one on the way to the node. -/
structure Ancestor where
  node : Node
  later : List Node
  deriving Repr, Inhabited

/-- A place in a tree: a node, and its ancestors from the nearest one to the root. -/
structure Cursor where
  node : Node
  above : List Ancestor
  deriving Repr, Inhabited

namespace Cursor

/-- The root of a tree. -/
def top (tree : Node) : Cursor := ⟨tree, []⟩

/-- The first child. -/
def firstChild? (c : Cursor) : Option Cursor :=
  match c.node.children with
  | [] => none
  | child :: later => some ⟨child, ⟨c.node, later⟩ :: c.above⟩

/-- The sibling that comes next. -/
def nextSibling? (c : Cursor) : Option Cursor :=
  match c.above with
  | ⟨parent, next :: later⟩ :: above => some ⟨next, ⟨parent, later⟩ :: above⟩
  | _ => none

/-- The parent. -/
def parent? (c : Cursor) : Option Cursor :=
  match c.above with
  | [] => none
  | parent :: above => some ⟨parent.node, above⟩

theorem parent?_above {c p : Cursor} (h : c.parent? = some p) : p.above.length < c.above.length := by
  unfold parent? at h
  split at h
  · exact absurd h (by simp)
  · rename_i hc
    obtain rfl := Option.some.inj h
    simp [hc]

/-- The next sibling, or that of the nearest ancestor that has one; nothing if the root is left. -/
def leave? (c : Cursor) : Option Cursor :=
  match c.nextSibling? with
  | some next => some next
  | none =>
    match _h : c.parent? with
    | some parent => parent.leave?
    | none => none
termination_by c.above.length
decreasing_by exact parent?_above _h

/-- The node that comes next in document order. -/
def next? (c : Cursor) : Option Cursor :=
  match c.firstChild? with
  | some child => some child
  | none => c.leave?

/-- The nodes that come after a node and all that is in it. -/
def behind (c : Cursor) : List Node := c.above.flatMap fun a => Node.preorderAll a.later

/-- The node and all that come after it. -/
def ahead (c : Cursor) : List Node := c.node.preorder ++ c.behind

theorem behind_eq (c : Cursor) : c.behind = (match c.leave? with | some d => d.ahead | none => []) := by
  obtain ⟨n, above⟩ := c
  induction above generalizing n with
  | nil =>
    rw [leave?]
    rfl
  | cons a above ih =>
    obtain ⟨parent, later⟩ := a
    cases later with
    | nil =>
      have hclimb : leave? ⟨n, ⟨parent, []⟩ :: above⟩ = leave? ⟨parent, above⟩ := by rw [leave?]; rfl
      rw [hclimb, ← ih parent]
      rfl
    | cons next later =>
      have hnext : leave? ⟨n, ⟨parent, next :: later⟩ :: above⟩ = some ⟨next, ⟨parent, later⟩ :: above⟩ := by
        rw [leave?]
        rfl
      rw [hnext]
      simp [behind, ahead, Node.preorderAll]

/-- A turn passes one node. -/
theorem ahead_eq (c : Cursor) : c.ahead = c.node :: (match c.next? with | some d => d.ahead | none => []) := by
  obtain ⟨⟨kind, role, span, children⟩, above⟩ := c
  cases children with
  | nil =>
    have hnext : next? ⟨.mk kind role span [], above⟩ = leave? ⟨.mk kind role span [], above⟩ := rfl
    rw [hnext, ← behind_eq]
    rfl
  | cons child later =>
    have hnext : next? ⟨.mk kind role span (child :: later), above⟩ =
      some ⟨child, ⟨.mk kind role span (child :: later), later⟩ :: above⟩ := rfl
    rw [hnext]
    simp [ahead, behind, Node.preorder, Node.preorderAll]

/-- The walk of a cursor over all nodes that come after the one it starts from. -/
def walk : Loop Cursor where
  next? := next?
  remaining c := c.ahead.length
  shrinks := by
    intro c d h
    rw [ahead_eq c, h]
    exact Nat.lt_succ_self _

end Cursor

/-! ## The first fault -/

namespace Node

/-- The nodes of the trees on a stack, in document order. The last tree of the stack is on top, and comes
first. -/
def aheadOn (stack : Array Node) : List Node := preorderAll stack.toList.reverse

/-- One turn of the search, where `flagged` says of a tree whether something is wrong in it. The tree on top
goes; if it is flagged, its children take its place, the first one on top. There is no turn if that tree is
itself a fault. -/
def searchOn? (flagged : Node → Bool) (stack : Array Node) : Option (Array Node) :=
  match stack.back? with
  | none => none
  | some n =>
    if n.kind.isFault then none
    else if !flagged n then some stack.pop
    else some (stack.pop ++ n.children.reverse)

theorem preorderAll_append : ∀ ns ms : List Node, preorderAll (ns ++ ms) = preorderAll ns ++ preorderAll ms
  | [], _ => rfl
  | n :: ns, ms => by rw [List.cons_append, preorderAll, preorderAll, preorderAll_append ns ms, List.append_assoc]

/-- What is ahead begins with the tree on top. -/
theorem aheadOn_of_back? {stack : Array Node} {n : Node} (h : stack.back? = some n) :
    aheadOn stack = n :: preorderAll n.children ++ aheadOn stack.pop := by
  have hlast : stack.toList.getLast? = some n := by
    rw [List.getLast?_eq_getElem?, Array.getElem?_toList]
    exact h
  obtain ⟨below, hstack⟩ := List.getLast?_eq_some_iff.mp hlast
  obtain ⟨kind, role, span, children⟩ := n
  rw [aheadOn, aheadOn, Array.toList_pop, hstack, List.dropLast_concat, List.reverse_append]
  rfl

theorem aheadOn_append (stack : Array Node) (ns : List Node) :
    aheadOn (stack ++ ns.reverse) = preorderAll ns ++ aheadOn stack := by
  rw [aheadOn, Array.toList_appendList, List.reverse_append, List.reverse_reverse, preorderAll_append]
  rfl

/-- A turn passes the tree on top, with all that is in it if it is not flagged. -/
theorem aheadOn_of_searchOn? {flagged : Node → Bool} {s t : Array Node} (h : searchOn? flagged s = some t) :
    ∃ n, n.kind.isFault = false ∧ (aheadOn s = n :: aheadOn t ∨
      flagged n = false ∧ aheadOn s = n :: preorderAll n.children ++ aheadOn t) := by
  unfold searchOn? at h
  split at h
  · exact absurd h (by simp)
  · rename_i n hback
    have hahead := aheadOn_of_back? hback
    split at h
    · exact absurd h (by simp)
    · rename_i hkind
      refine ⟨n, Bool.eq_false_iff.mpr hkind, ?_⟩
      split at h
      · rename_i hclean
        obtain rfl := Option.some.inj h
        exact .inr ⟨by simpa using hclean, hahead⟩
      · obtain rfl := Option.some.inj h
        rw [aheadOn_append]
        exact .inl hahead

/-- The search for the first fault of the trees on a stack. -/
def search (flagged : Node → Bool) : Loop (Array Node) where
  next? := searchOn? flagged
  remaining stack := (aheadOn stack).length
  shrinks := by
    intro s t h
    obtain ⟨n, -, hahead | ⟨-, hahead⟩⟩ := aheadOn_of_searchOn? h
    · rw [hahead, List.length_cons]
      omega
    · rw [hahead, List.length_append, List.length_cons]
      omega

/-- The span of the first fault of a tree in document order, which the search ends with; that of the whole
tree if it is flagged and the search ends with nothing. -/
def firstFaultBy (flagged : Node → Bool) (n : Node) : Option Span :=
  if !flagged n then none
  else match ((search flagged).finish #[n]).back? with
    | some m => some m.span
    | none => some n.span

/-- The span of the first fault of a tree; that of the whole tree if nothing is wrong but a line end that is
not there. -/
def firstFault? (n : Node) : Option Span := firstFaultBy hasFault n

end Node

end LogHygiene.Syntax
