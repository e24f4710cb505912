import LogHygiene.Proofs.Displacement
import LogHygiene.Proofs.Syntax.Geometry

/-!
# Trees with comments

To put a comment into a file is to put some bytes between two others and a node between two others. Everything else stays
as it is: nodes keep what they are and which part they play, and bytes keep what they say, further back. `Strewn` is that,
for any number of comments at any depth. It says nothing about a rule that reads trees, so what a rule makes of comments
is a matter of proof. Two things are left of a node:

> **its row of children, with comments between them** (`Strewn.children`), and **its bytes up to the first comment in
> it** (`Strewn.front`).

So a node without a comment in it reads as before, and a part that is asked for by the role that it plays is found as
before.
-/

set_option autoImplicit false

namespace LogHygiene

open Syntax

namespace Syntax

/-! ## Comments in a row -/

/-- A comment, as a part of a tree. -/
structure Node.IsComment (n : Node) : Prop where
  kind : n.kind = .comment
  role : n.role = .none
  children : n.children = []

instance (n : Node) : Decidable n.IsComment :=
  decidable_of_iff (n.kind = .comment ∧ n.role = .none ∧ n.children = [])
    ⟨fun ⟨h₁, h₂, h₃⟩ => ⟨h₁, h₂, h₃⟩, fun ⟨h₁, h₂, h₃⟩ => ⟨h₁, h₂, h₃⟩⟩

/-- No comment stands in a node. -/
def Node.Bare (n : Node) : Prop := ∀ m ∈ n.preorder, m.kind ≠ .comment

instance (n : Node) : Decidable n.Bare := inferInstanceAs (Decidable (∀ m ∈ n.preorder, m.kind ≠ .comment))

/-- Two searches come to nothing, or to two nodes that go together. -/
def Matched (R : Node → Node → Prop) (found found' : Option Node) : Prop :=
  (found = none ∧ found' = none) ∨ ∃ n n', found = some n ∧ found' = some n' ∧ R n n'

namespace Matched

variable {R : Node → Node → Prop} {found found' : Option Node}

theorem imp {Q : Node → Node → Prop} (h : Matched R found found')
    (hQ : ∀ n n', found = some n → found' = some n' → R n n' → Q n n') : Matched Q found found' :=
  h.imp_right fun ⟨n, n', hx, hy, hn⟩ => ⟨n, n', hx, hy, hQ n n' hx hy hn⟩

theorem bind_eq {α : Type} (h : Matched R found found') {given given' : Node → Option α}
    (hgiven : ∀ n n', found = some n → found' = some n' → R n n' → given n = given' n') :
    found.bind given = found'.bind given' := by
  rcases h with ⟨hx, hy⟩ | ⟨n, n', hx, hy, hn⟩
  · rw [hx, hy, Option.bind_none, Option.bind_none]
  · rw [hx, hy, Option.bind_some, Option.bind_some, hgiven n n' hx hy hn]

theorem any_eq (h : Matched R found found') {holds holds' : Node → Bool}
    (hholds : ∀ n n', found = some n → found' = some n' → R n n' → holds n = holds' n') :
    found.any holds = found'.any holds' := by
  rcases h with ⟨hx, hy⟩ | ⟨n, n', hx, hy, hn⟩
  · rw [hx, hy, Option.any_none, Option.any_none]
  · rw [hx, hy, Option.any_some, Option.any_some, hholds n n' hx hy hn]

end Matched

/-- Of two rows of nodes the second one is the first one with comments between its nodes. -/
inductive Interleaved (R : Node → Node → Prop) : List Node → List Node → Prop
  | nil : Interleaved R [] []
  | node {n n' : Node} {rest rest' : List Node} :
      R n n' → Interleaved R rest rest' → Interleaved R (n :: rest) (n' :: rest')
  | comment {c : Node} {row rest' : List Node} :
      c.IsComment → Interleaved R row rest' → Interleaved R row (c :: rest')

namespace Interleaved

variable {R Q : Node → Node → Prop} {row row' others others' : List Node} {n n' : Node}

theorem imp_of_mem (h : Interleaved R row row') (hR : ∀ n n', n ∈ row → n' ∈ row' → R n n' → Q n n') :
    Interleaved Q row row' := by
  induction h with
  | nil => exact .nil
  | node hn _ ih =>
    refine .node (hR _ _ List.mem_cons_self List.mem_cons_self hn) (ih fun m m' hm hm' => ?_)
    exact hR m m' (List.mem_cons_of_mem _ hm) (List.mem_cons_of_mem _ hm')
  | comment hc _ ih => exact .comment hc (ih fun m m' hm hm' => hR m m' hm (List.mem_cons_of_mem _ hm'))

/-- A row that starts with no comment starts with what it started with before. -/
theorem head? (h : Interleaved R row row') (hfirst : ∀ first ∈ row'.head?, first.kind ≠ .comment) :
    Matched R row.head? row'.head? := by
  cases h with
  | nil => exact .inl ⟨rfl, rfl⟩
  | node hn _ => exact .inr ⟨_, _, rfl, rfl, hn⟩
  | comment hc _ => exact absurd hc.kind (hfirst _ rfl)

theorem filter (h : Interleaved R row row') {p : Node → Bool} (hp : ∀ n n', R n n' → p n' = p n) :
    Interleaved R (row.filter p) (row'.filter p) := by
  induction h with
  | nil => exact .nil
  | @node n n' _ _ hn _ ih =>
    rw [List.filter_cons, List.filter_cons, hp n n' hn]
    split
    · exact .node hn ih
    · exact ih
  | comment hc _ ih =>
    rw [List.filter_cons]
    split
    · exact .comment hc ih
    · exact ih

/-- What is looked for and is no comment is found as before. -/
theorem find? (h : Interleaved R row row') {p : Node → Bool} (hp : ∀ n n', R n n' → p n' = p n)
    (hcomment : ∀ c : Node, c.IsComment → p c = false) : Matched R (row.find? p) (row'.find? p) := by
  induction h with
  | nil => exact .inl ⟨rfl, rfl⟩
  | @node n n' _ _ hn _ ih =>
    rw [List.find?_cons, List.find?_cons, hp n n' hn]
    split
    · exact .inr ⟨n, n', rfl, rfl, hn⟩
    · exact ih
  | @comment c _ _ hc _ ih =>
    rw [List.find?_cons, hcomment c hc]
    exact ih

theorem append (h : Interleaved R row row') (hothers : Interleaved R others others') :
    Interleaved R (row ++ others) (row' ++ others') := by
  induction h with
  | nil => exact hothers
  | node hn _ ih => exact .node hn ih
  | comment hc _ ih => exact .comment hc ih

/-- Parts of parts, where a comment has none. -/
theorem flatMap (h : Interleaved R row row') {parts : Node → List Node}
    (hparts : ∀ n n', R n n' → Interleaved R (parts n) (parts n'))
    (hcomment : ∀ c : Node, c.IsComment → parts c = []) :
    Interleaved R (row.flatMap parts) (row'.flatMap parts) := by
  induction h with
  | nil => exact .nil
  | @node n n' _ _ hn _ ih =>
    rw [List.flatMap_cons, List.flatMap_cons]
    exact (hparts n n' hn).append ih
  | @comment c _ _ hc _ ih =>
    rw [List.flatMap_cons, hcomment c hc]
    exact ih

/-- What is collected from a row, where a comment gives nothing. -/
theorem flatMap_eq {α : Type} (h : Interleaved R row row') {given given' : Node → List α}
    (hgiven : ∀ n n', n' ∈ row' → R n n' → given n = given' n')
    (hcomment : ∀ c : Node, c.IsComment → given' c = []) : row.flatMap given = row'.flatMap given' := by
  induction h with
  | nil => rfl
  | node hn _ ih =>
    rw [List.flatMap_cons, List.flatMap_cons, hgiven _ _ List.mem_cons_self hn,
      ih fun m m' hm' => hgiven m m' (List.mem_cons_of_mem _ hm')]
  | comment hc _ ih =>
    rw [List.flatMap_cons, hcomment _ hc, ih fun m m' hm' => hgiven m m' (List.mem_cons_of_mem _ hm')]
    rfl

/-- What a walk over a row comes to, where a comment changes nothing. -/
theorem foldl_eq {σ : Type} (h : Interleaved R row row') {step step' : σ → Node → σ}
    (hstep : ∀ s n n', n ∈ row → n' ∈ row' → R n n' → step s n = step' s n')
    (hcomment : ∀ s (c : Node), c.IsComment → step' s c = s) (s : σ) : row.foldl step s = row'.foldl step' s := by
  induction h generalizing s with
  | nil => rfl
  | node hn _ ih =>
    rw [List.foldl_cons, List.foldl_cons, hstep s _ _ List.mem_cons_self List.mem_cons_self hn]
    exact ih (fun s m m' hm hm' => hstep s m m' (List.mem_cons_of_mem _ hm) (List.mem_cons_of_mem _ hm')) _
  | comment hc _ ih =>
    rw [List.foldl_cons, hcomment s _ hc]
    exact ih (fun s m m' hm hm' => hstep s m m' hm (List.mem_cons_of_mem _ hm')) s

end Interleaved

/-! ## Comments in a tree -/

/-- A blank or a line end. -/
def isBlankByte (b : UInt8) : Bool := b == 32 || b == 9 || b == 10 || b == 13

/-- The way through a row of nodes from one offset to another, in two texts at once. Between nodes both say the same, but
for the comments that the second one has there, with blanks around them. -/
inductive StrewnRow (s s' : Bytes) (R : Node → Node → Prop) : Nat → Nat → List Node → List Node → Nat → Nat → Prop
  | done {p p' q q' : Nat} : p ≤ q → p' ≤ q' → s.slice p q = s'.slice p' q' → StrewnRow s s' R p p' [] [] q q'
  | node {p p' q q' : Nat} {n n' : Node} {rest rest' : List Node} : p ≤ n.start → p' ≤ n'.start →
      s.slice p n.start = s'.slice p' n'.start → R n n' → StrewnRow s s' R n.stop n'.stop rest rest' q q' →
      StrewnRow s s' R p p' (n :: rest) (n' :: rest') q q'
  | comment {p p' q q' i i' j : Nat} {c : Node} {row rest' : List Node} : c.IsComment → p ≤ i → p' ≤ i' → i' ≤ c.start →
      c.start ≤ c.stop → c.stop ≤ j → s.slice p i = s'.slice p' i' → (∀ b ∈ s'.slice i' c.start, isBlankByte b = true) →
      (∀ b ∈ s'.slice c.stop j, isBlankByte b = true) → StrewnRow s s' R i j row rest' q q' →
      StrewnRow s s' R p p' row (c :: rest') q q'

/-- A node of one text, and the same node in a text that has comments strewn into it. -/
inductive Strewn (s s' : Bytes) : Node → Node → Prop
  | mk {n n' : Node} : n.kind = n'.kind → n.role = n'.role →
      StrewnRow s s' (Strewn s s') n.start n'.start n.children n'.children n.stop n'.stop → Strewn s s' n n'

variable {s s' : Bytes} {n n' : Node}

theorem StrewnRow.interleaved {R : Node → Node → Prop} {p p' q q' : Nat} {row row' : List Node}
    (h : StrewnRow s s' R p p' row row' q q') : Interleaved R row row' := by
  induction h with
  | done => exact .nil
  | node _ _ _ hn _ ih => exact .node hn ih
  | comment hc _ _ _ _ _ _ _ _ _ ih => exact .comment hc ih

/-- Two stretches of two texts say the same, up to the blanks before the first comment of `row'` if it has one. -/
def AgreeUpToComment (s s' : Bytes) (p p' q q' : Nat) (row' : List Node) : Prop :=
  p ≤ q ∧ p' ≤ q' ∧ (s.slice p q = s'.slice p' q' ∨ ∃ c ∈ row', c.kind = .comment ∧ ∃ i i', p ≤ i ∧ i ≤ q ∧
    p' ≤ i' ∧ i' ≤ c.start ∧ c.start ≤ q' ∧ (∀ b ∈ s'.slice i' c.start, isBlankByte b = true) ∧
    s.slice p i = s'.slice p' i')

theorem StrewnRow.front {R : Node → Node → Prop} {p p' q q' : Nat} {row row' : List Node}
    (h : StrewnRow s s' R p p' row row' q q')
    (hR : ∀ n n', n ∈ row → R n n' → AgreeUpToComment s s' n.start n'.start n.stop n'.stop n'.preorder) :
    AgreeUpToComment s s' p p' q q' (row'.flatMap Node.preorder) := by
  induction h with
  | done hp hp' hgap => exact ⟨hp, hp', .inl hgap⟩
  | @node p p' q q' n n' rest rest' hp hp' hgap hn _ ih =>
    obtain ⟨hq, hq', hrest⟩ := ih fun m m' hm => hR m m' (List.mem_cons_of_mem _ hm)
    obtain ⟨hin, hin', hinner⟩ := hR n n' List.mem_cons_self hn
    refine ⟨by omega, by omega, ?_⟩
    rw [List.flatMap_cons]
    rcases hinner with hsame | ⟨c, hc, hkind, i, i', hi, hiq, hi', hic, hcq, hblank, hsame⟩
    · have hupTo : s.slice p n.stop = s'.slice p' n'.stop := by
        rw [← Edit.slice_append_slice hp hin, ← Edit.slice_append_slice hp' hin', hgap, hsame]
      rcases hrest with hsameRest | ⟨c, hc, hkind, i, i', hi, hiq, hi', hic, hcq, hblank, hsameRest⟩
      · left
        rw [← Edit.slice_append_slice (Nat.le_trans hp hin) hq, ← Edit.slice_append_slice (Nat.le_trans hp' hin') hq',
          hupTo, hsameRest]
      · refine .inr ⟨c, List.mem_append_right _ hc, hkind, i, i', by omega, hiq, by omega, hic, hcq, hblank, ?_⟩
        rw [← Edit.slice_append_slice (Nat.le_trans hp hin) hi, ← Edit.slice_append_slice (Nat.le_trans hp' hin') hi',
          hupTo, hsameRest]
    · refine .inr ⟨c, List.mem_append_left _ hc, hkind, i, i', by omega, by omega, by omega, hic, by omega, hblank, ?_⟩
      rw [← Edit.slice_append_slice hp hi, ← Edit.slice_append_slice hp' hi', hgap, hsame]
  | @comment p p' q q' i i' j c row rest' hc hp hp' hi' hwide hj hgap hblank _ _ ih =>
    obtain ⟨hq, hq', -⟩ := ih hR
    refine ⟨by omega, by omega, .inr ⟨c, ?_, hc.kind, i, i', hp, hq, hp', hi', by omega, hblank, hgap⟩⟩
    exact List.mem_flatMap.mpr ⟨c, List.mem_cons_self, c.mem_preorder_self⟩

namespace Strewn

theorem kind (h : Strewn s s' n n') : n.kind = n'.kind := by
  cases h with
  | mk hkind _ _ => exact hkind

theorem role (h : Strewn s s' n n') : n.role = n'.role := by
  cases h with
  | mk _ hrole _ => exact hrole

theorem children (h : Strewn s s' n n') : Interleaved (Strewn s s') n.children n'.children := by
  cases h with
  | mk _ _ hrow => exact hrow.interleaved

theorem namedChildren (h : Strewn s s' n n') : Interleaved (Strewn s s') n.namedChildren n'.namedChildren :=
  h.children.filter fun _ _ h => by rw [h.kind]

/-- The part that plays a role. -/
theorem child? (h : Strewn s s' n n') {r : Role} (hr : r ≠ .none) : Matched (Strewn s s') (n.child? r) (n'.child? r) :=
  h.children.find? (fun _ _ h => by rw [h.role]) fun c hc => by
    rw [hc.role]
    exact beq_false_of_ne hr.symm

/-- **A node reads as before up to the first comment in it**, blanks before it apart. -/
theorem front (h : Strewn s s' n n') : AgreeUpToComment s s' n.start n'.start n.stop n'.stop n'.preorder := by
  induction n using Node.induct generalizing n' with
  | step n ih =>
    cases h with
    | mk _ _ hrow =>
      obtain ⟨hforward, hforward', hsame⟩ := hrow.front fun m m' hm hmm' => ih m hm hmm'
      refine ⟨hforward, hforward', hsame.imp_right ?_⟩
      rintro ⟨c, hc, hrest⟩
      exact ⟨c, n'.preorder_eq ▸ List.mem_cons_of_mem _ hc, hrest⟩

/-- A node without a comment in it has the text that it had before. -/
theorem text (h : Strewn s s' n n') (hbare : n'.Bare) : n.text s = n'.text s' := by
  obtain ⟨-, -, hsame | ⟨c, hc, hkind, -⟩⟩ := h.front
  · rw [Node.text, Node.text, Bytes.textBetween, Bytes.textBetween, hsame]
  · exact absurd hkind (hbare c hc)

end Strewn

/-! ### Finding out -/

/-- How many blanks stand at an offset. -/
def blanksAt (bytes : Bytes) (i : Nat) : Nat := ((bytes.drop i).takeWhile isBlankByte).length

/-- Where the blanks before a comment begin that are there because of it. -/
def beforeComment (s s' : Bytes) (p p' : Nat) (c : Node) : Nat :=
  let blanks := ((s'.slice p' c.start).reverse.takeWhile isBlankByte).length
  c.start - blanks + min blanks (blanksAt s (p + (c.start - blanks - p')))

/-- Where a text goes on behind a comment, when the other one goes on at `i` without it. -/
def behindComment (s s' : Bytes) (i : Nat) (c : Node) : Nat := c.stop + (blanksAt s' c.stop - blanksAt s i)

/-- Whether a comment stands behind some bytes that two texts have in common, the first one up to `i`. -/
def isCommentAt (s s' : Bytes) (p p' i : Nat) (c : Node) : Bool :=
  let i' := beforeComment s s' p p' c
  decide (c.IsComment ∧ p' ≤ i' ∧ i' ≤ c.start ∧ c.start ≤ c.stop) && s.slice p i == s'.slice p' i' &&
    (s'.slice i' c.start).all isBlankByte && (s'.slice c.stop (behindComment s s' i c)).all isBlankByte

mutual

/-- Whether comments alone make the difference between two nodes. -/
def isStrewn (s s' : Bytes) : Node → Node → Bool
  | .mk k r span row, .mk k' r' span' row' => k == k' && r == r' &&
    isStrewnRow s s' span.start.byte span'.start.byte row row' span.stop.byte span'.stop.byte

/-- Whether comments alone make the difference between two rows. A comment is taken for a new one unless there is one in
its place already. -/
def isStrewnRow (s s' : Bytes) : Nat → Nat → List Node → List Node → Nat → Nat → Bool
  | p, p', [], [], q, q' => decide (p ≤ q ∧ p' ≤ q') && s.slice p q == s'.slice p' q'
  | _, _, _ :: _, [], _, _ => false
  | p, p', [], c :: rest', q, q' =>
    let i := p + (beforeComment s s' p p' c - p')
    isCommentAt s s' p p' i c && isStrewnRow s s' i (behindComment s s' i c) [] rest' q q'
  | p, p', n :: rest, n' :: rest', q, q' =>
    let i := p + (beforeComment s s' p p' n' - p')
    if n'.kind == .comment && n.kind != .comment then
      isCommentAt s s' p p' i n' && isStrewnRow s s' i (behindComment s s' i n') (n :: rest) rest' q q'
    else decide (p ≤ n.start ∧ p' ≤ n'.start) && s.slice p n.start == s'.slice p' n'.start && isStrewn s s' n n' &&
      isStrewnRow s s' n.stop n'.stop rest rest' q q'

end

theorem StrewnRow.of_isCommentAt {R : Node → Node → Prop} {p p' q q' i : Nat} {c : Node} {row rest' : List Node}
    (hi : p ≤ i) (hc : isCommentAt s s' p p' i c = true)
    (h : StrewnRow s s' R i (behindComment s s' i c) row rest' q q') : StrewnRow s s' R p p' row (c :: rest') q q' := by
  rw [isCommentAt, Bool.and_eq_true, Bool.and_eq_true, Bool.and_eq_true, decide_eq_true_eq, beq_iff_eq,
    List.all_eq_true, List.all_eq_true] at hc
  obtain ⟨⟨⟨⟨hcomment, hp', hi', hwide⟩, hgap⟩, hblank⟩, hblank'⟩ := hc
  exact .comment hcomment hi hp' hi' hwide (Nat.le_add_right _ _) hgap hblank hblank' h

mutual

theorem strewn_of_isStrewn : ∀ n n' : Node, isStrewn s s' n n' = true → Strewn s s' n n'
  | .mk k r span row, .mk k' r' span' row', h => by
    rw [isStrewn, Bool.and_eq_true, Bool.and_eq_true, beq_iff_eq, beq_iff_eq] at h
    exact .mk h.1.1 h.1.2 (strewnRow_of_isStrewnRow _ _ row row' _ _ h.2)

theorem strewnRow_of_isStrewnRow : ∀ (p p' : Nat) (row row' : List Node) (q q' : Nat),
    isStrewnRow s s' p p' row row' q q' = true → StrewnRow s s' (Strewn s s') p p' row row' q q'
  | p, p', [], [], q, q', h => by
    rw [isStrewnRow, Bool.and_eq_true, decide_eq_true_eq, beq_iff_eq] at h
    exact .done h.1.1 h.1.2 h.2
  | _, _, _ :: _, [], _, _, h => by
    rw [isStrewnRow] at h
    exact absurd h (by decide)
  | p, p', [], c :: rest', q, q', h => by
    rw [isStrewnRow, Bool.and_eq_true] at h
    exact .of_isCommentAt (Nat.le_add_right _ _) h.1 (strewnRow_of_isStrewnRow _ _ [] rest' q q' h.2)
  | p, p', n :: rest, n' :: rest', q, q', h => by
    rw [isStrewnRow] at h
    split at h
    · rw [Bool.and_eq_true] at h
      exact .of_isCommentAt (Nat.le_add_right _ _) h.1 (strewnRow_of_isStrewnRow _ _ (n :: rest) rest' q q' h.2)
    · rw [Bool.and_eq_true, Bool.and_eq_true, Bool.and_eq_true, decide_eq_true_eq, beq_iff_eq] at h
      obtain ⟨⟨⟨⟨hp, hp'⟩, hgap⟩, hn⟩, hrest⟩ := h
      exact .node hp hp' hgap (strewn_of_isStrewn n n' hn) (strewnRow_of_isStrewnRow _ _ rest rest' q q' hrest)

end

end Syntax

end LogHygiene
