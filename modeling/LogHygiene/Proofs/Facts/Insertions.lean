import LogHygiene.Proofs.Facts.CallSites

/-!
# Where new lines go

The walk over the head of a file remembers statements together with what follows them, and the place for
new lines is worked out from the last one of them. Whatever the walk met, it is **the top of the file, the
end of a statement, or the start of a line**, and each of those lies between two characters.
-/

set_option autoImplicit false

namespace LogHygiene

open Syntax

namespace Insertion

/-- The place below a line is behind its line end, or at the end of the file. -/
theorem belowLine_cases (source : Bytes) (stop : Nat) :
    (∃ k, stop ≤ k ∧ source[k]? = some 10 ∧ (belowLine source stop).byte = k + 1) ∨
      (belowLine source stop).byte = source.length := by
  unfold belowLine
  cases hfind : (source.drop stop).findIdx? (· == 10) with
  | none => exact .inr rfl
  | some n =>
    obtain ⟨hlt, hten, -⟩ := List.findIdx?_eq_some_iff_getElem.mp hfind
    refine .inl ⟨stop + n, Nat.le_add_right _ _, ?_, rfl⟩
    rw [← List.getElem?_drop, List.getElem?_eq_getElem hlt, beq_iff_eq.mp hten]

theorem behind_byte (source : Bytes) (statement : Node) (following : List Node) :
    (behind source statement following).byte = statement.stop ∨
      behind source statement following = belowLine source statement.stop := by
  unfold behind
  dsimp only
  split
  · split
    · exact .inl rfl
    · exact .inr rfl
  · exact .inr rfl

theorem isBoundary_belowLine {source : Bytes} (htext : source.text?.isSome = true) (stop : Nat) :
    source.isBoundary (belowLine source stop).byte = true := by
  rcases belowLine_cases source stop with ⟨k, -, hk, hbyte⟩ | hbyte
  · rw [hbyte]
    exact (Bytes.isBoundary_of_ascii htext (by decide) hk).2
  · rw [hbyte]
    exact Bytes.isBoundary_length source

end Insertion

namespace Facts

/-- A remembered statement stands among the nodes, with all that come after it. -/
def Remembered (nodes : List Node) (o : Option (Node × List Node)) : Prop :=
  ∀ n following, o = some (n, following) → (n :: following) <:+ nodes

theorem Remembered.here {nodes rest : List Node} {n : Node} (h : (n :: rest) <:+ nodes) :
    Remembered nodes (some (n, rest)) := by
  rintro _ _ heq
  obtain ⟨rfl, rfl⟩ := Prod.mk.inj (Option.some.inj heq)
  exact h

theorem Remembered.none {nodes : List Node} : Remembered nodes none :=
  fun _ _ h => absurd h (by simp)

theorem suffix_tail {nodes rest : List Node} {n : Node} (h : (n :: rest) <:+ nodes) : rest <:+ nodes :=
  (List.suffix_cons n rest).trans h

theorem JavaScript.head_remembered (source : Bytes) {nodes : List Node} :
    ∀ (todo : List Node) (h : JavaScript.Head), todo <:+ nodes → Remembered nodes h.opening →
      Remembered nodes h.imports → Remembered nodes (JavaScript.head source h todo).opening ∧
        Remembered nodes (JavaScript.head source h todo).imports
  | [], _, _, ho, hi => ⟨ho, hi⟩
  | n :: rest, h, hsuffix, ho, hi => by
    have hrest := suffix_tail hsuffix
    have hhere := Remembered.here hsuffix
    unfold JavaScript.head
    split
    · exact head_remembered source rest h hrest ho hi
    · exact head_remembered source rest _ hrest hhere hi
    · exact head_remembered source rest _ hrest ho hhere
    · split
      · exact head_remembered source rest _ hrest hhere hi
      · split
        · exact head_remembered source rest _ hrest ho hhere
        · exact ⟨ho, hi⟩
    · split
      · exact head_remembered source rest _ hrest ho hhere
      · exact ⟨ho, hi⟩
    · split
      · exact head_remembered source rest _ hrest ho hhere
      · exact ⟨ho, hi⟩
    · exact ⟨ho, hi⟩

theorem Python.head_remembered (source : Bytes) {nodes : List Node} :
    ∀ (todo : List Node) (h : Python.Head), todo <:+ nodes → Remembered nodes h.opening →
      Remembered nodes h.imports → Remembered nodes (Python.head source h todo).opening ∧
        Remembered nodes (Python.head source h todo).imports
  | [], _, _, ho, hi => ⟨ho, hi⟩
  | n :: rest, h, hsuffix, ho, hi => by
    have hrest := suffix_tail hsuffix
    have hhere := Remembered.here hsuffix
    unfold Python.head
    split
    · split
      · exact head_remembered source rest _ hrest hhere hi
      · exact head_remembered source rest h hrest ho hi
    · split
      · exact head_remembered source rest _ hrest hhere hi
      · exact ⟨ho, hi⟩
    · exact head_remembered source rest _ hrest ho hhere
    · exact head_remembered source rest _ hrest ho hhere
    · exact head_remembered source rest _ hrest ho hhere
    · exact ⟨ho, hi⟩

theorem Remembered.or {nodes : List Node} {a b : Option (Node × List Node)} (ha : Remembered nodes a)
    (hb : Remembered nodes b) : Remembered nodes (a.or b) := by
  cases a with
  | none => rw [Option.none_or]; exact hb
  | some row => exact ha

end Facts

namespace ParsedFile

variable {f : ParsedFile}

/-- The last statement of the head of a file, with all that follow it. The head is the imports, or else what
has to stay at the top. -/
def headEnd? (f : ParsedFile) : Option (Node × List Node) :=
  match f.grammar.family with
  | .javascript =>
    let h := Facts.JavaScript.head f.source {} f.tree.children
    h.imports.or h.opening
  | .python =>
    let h := Facts.Python.head f.source {} f.tree.children
    h.imports.or h.opening

theorem headEnd?_remembered (f : ParsedFile) : Facts.Remembered f.tree.children f.headEnd? := by
  unfold headEnd?
  cases f.grammar.family with
  | javascript =>
    obtain ⟨hopening, himports⟩ :=
      Facts.JavaScript.head_remembered f.source f.tree.children {} List.suffix_rfl .none .none
    exact himports.or hopening
  | python =>
    obtain ⟨hopening, himports⟩ :=
      Facts.Python.head_remembered f.source f.tree.children {} List.suffix_rfl .none .none
    exact himports.or hopening

/-- New lines go behind the head, or to the top where there is none. -/
theorem facts_insertion (f : ParsedFile) : f.facts.insertion =
    (match f.headEnd? with
      | some (n, following) => Insertion.behind f.source n following
      | none => .top) := by
  unfold facts headEnd?
  cases f.grammar <;> rfl

/-- **New lines go to the top or behind a statement of the top level.** -/
theorem insertion_cases (f : ParsedFile) : f.facts.insertion = .top ∨
    ∃ n following, (n :: following) <:+ f.tree.children ∧
      f.facts.insertion = Insertion.behind f.source n following := by
  have hinsertion := f.facts_insertion
  cases hhead : f.headEnd? with
  | none =>
    rw [hhead] at hinsertion
    exact .inl hinsertion
  | some x =>
    rw [hhead] at hinsertion
    exact .inr ⟨x.1, x.2, f.headEnd?_remembered _ _ hhead, hinsertion⟩

theorem WellFormed.isBoundary_insertion (h : f.WellFormed) :
    f.source.isBoundary f.facts.insertion.byte = true := by
  rcases f.insertion_cases with htop | ⟨n, following, hsuffix, hbehind⟩
  · rw [htop]
    exact Bytes.isBoundary_zero h.text
  · rw [hbehind]
    rcases Insertion.behind_byte f.source n following with hstop | hbelow
    · rw [hstop]
      have hmem : n ∈ f.tree.children := hsuffix.subset List.mem_cons_self
      exact (h.boundaries n (WellFormed.mem_child f.tree.mem_preorder_self hmem)).2
    · rw [hbelow]
      exact Insertion.isBoundary_belowLine h.text _

end ParsedFile

end LogHygiene
