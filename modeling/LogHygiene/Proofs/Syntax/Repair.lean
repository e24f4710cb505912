import LogHygiene.Proofs.Syntax.JavaScript.Statements
import LogHygiene.Proofs.Syntax.Python.Statements
import LogHygiene.Syntax.Tree

/-!
# Mended trees keep to the places of their text

A repair is made of what was read already: a missing word takes no room, and a fault reaches from the first of some
nodes to the last. So a text with repairs is read as one without them (`Reading.within_ofSource`), every attempt that
comes out of a race has all its places within the text (`Attempt.Within`), and with them

> **every node of the tree of a file starts and ends at a place of its text, and a call starts with what it calls, a
> member with its object** (`Grammar.tree_within`),

whatever the bytes are.
-/

set_option autoImplicit false

namespace LogHygiene.Syntax

variable {source : Bytes}

/-- All stretches that repairs pass over are within the source. -/
def Repairs.Within (source : Bytes) (rs : Repairs) : Prop := ∀ f ∈ rs.faults, f.tree.Loose source

namespace Repairs.Within

variable {rs : Repairs}

theorem none (source : Bytes) : Repairs.Within source {} := by simp [Repairs.Within]

theorem outside (h : rs.Within source) (start stop : Nat) : (rs.outside start stop).Within source :=
  fun f hf => h f (List.mem_filter.mp hf).1

end Repairs.Within

/-- A text with repairs is within the source from its top on. -/
theorem Reading.within_ofSource {rs : Repairs} (h : rs.Within source) : (Reading.ofSource source rs).Within source where
  ahead := Ahead.top source
  trivia := by simp [Reading.ofSource]
  pieces := by simp [Reading.ofSource]
  furthest := by simp [Reading.ofSource, Edge.Within]
  faults := h

theorem Reading.Within.withoutRepairs {r : Reading} (h : r.Within source) :
    Reading.Within source { r with repairs := {} } := { h with faults := Repairs.Within.none source }

/-! ## Pieces taken apart -/

mutual

theorem Piece.Within.cuts {outer : List Piece} {behind : List Node} {count : Nat}
    (hbehind : ∀ n ∈ behind, n.Within source) : ∀ {p : Piece}, p.Within source →
    ∀ c ∈ p.cuts outer behind count, ∀ n ∈ c.behind, n.Within source
  | .mk ns parts, h, c, hc => by
    rw [Piece.cuts] at hc
    exact Piece.Within.cutsAmong hbehind h.parts c (List.mem_filter.mp hc).1

/-- Whatever stands behind a place between pieces is made of nodes of these pieces. -/
theorem Piece.Within.cutsAmong {outer : List Piece} {behind : List Node} {count : Nat}
    (hbehind : ∀ n ∈ behind, n.Within source) : ∀ {ps : List Piece}, (∀ p ∈ ps, p.Within source) →
    ∀ c ∈ Piece.cutsAmong outer behind count ps, ∀ n ∈ c.behind, n.Within source
  | [], _, c, hc => by
    rw [Piece.cutsAmong] at hc
    exact absurd hc List.not_mem_nil
  | p :: ps, h, c, hc => by
    obtain ⟨hp, hps⟩ := List.forall_mem_cons.mp h
    have hnodes : ∀ n ∈ p.nodes ++ behind, n.Within source := List.forall_mem_append.mpr ⟨hp.nodes, hbehind⟩
    rw [Piece.cutsAmong, List.mem_append, List.mem_cons] at hc
    rcases hc with hc | rfl | hc
    · exact Piece.Within.cuts hbehind hp c hc
    · exact hnodes
    · exact Piece.Within.cutsAmong hnodes hps c hc

end

namespace Mending

variable {m : Mending}

/-- A grammar makes up no places, neither for a file nor for a word. -/
structure Keeps (source : Bytes) (m : Mending) : Prop where
  file : Syntax.Keeps source m.file
  word : Syntax.Keeps source m.word

theorem within_words (hm : m.Keeps source) : ∀ {n : Nat} {r : Reading}, r.Within source →
    ∀ w ∈ m.words n r, w.Within source
  | 0, _, _, _, hw => absurd hw List.not_mem_nil
  | n + 1, r, hr, w, hw => by
    have hfirst := hm.word.within r hr
    rw [words] at hw
    split at hw
    · exact absurd hw List.not_mem_nil
    · rename_i first after hread
      rw [hread] at hfirst
      rcases List.mem_cons.mp hw with rfl | hw
      · exact hfirst.1
      · exact within_words hm hfirst.2 w hw

/-! ## Attempts -/

/-- What an attempt was read with and what came of it is within the source. -/
structure Attempt.Within (source : Bytes) (a : Attempt) : Prop where
  repairs : a.repairs.Within source
  tree : ∀ n, a.outcome = .ok n → n.Within source
  edge : ∀ e, a.outcome = .error e → e.Within source

/-- What was read with repairs within the source is within it. -/
theorem Attempt.Within.of_read {a : Attempt} (hm : m.Keeps source) (hrepairs : a.repairs.Within source)
    (houtcome : a.outcome = m.read source a.repairs) : a.Within source := by
  have hfile := hm.file.within _ (Reading.within_ofSource hrepairs)
  rw [read] at houtcome
  cases hend : m.file (Reading.ofSource source a.repairs) with
  | done n after =>
    rw [hend] at hfile houtcome
    have htree : (n.adoptAll after.trivia.reverse).Within source :=
      Node.Within.adoptAll (fun t ht => hfile.2.trivia t (List.mem_reverse.mp ht)) hfile.1
    exact ⟨hrepairs, fun _ h => Except.ok.inj (houtcome.symm.trans h) ▸ htree, fun _ h => by simp [houtcome] at h⟩
  | stuck e =>
    rw [hend] at hfile houtcome
    exact ⟨hrepairs, fun _ h => by simp [houtcome] at h, fun _ h => Except.error.inj (houtcome.symm.trans h) ▸ hfile⟩

theorem within_plainAttempt (hm : m.Keeps source) : (m.plainAttempt source).Within source :=
  .of_read hm (Repairs.Within.none source) rfl

/-- The preferred one of some attempts is one of them. -/
theorem Attempt.mem_of_best? {b : Attempt} : ∀ {as : List Attempt}, Attempt.best? source as = some b → b ∈ as
  | [], h => absurd h (by simp [Attempt.best?])
  | a :: rest, h => by
    rw [Attempt.best?] at h
    split at h
    · exact Option.some.inj h ▸ List.mem_cons_self
    · rename_i c hrest
      split at h
      · exact Option.some.inj h ▸ List.mem_cons_self
      · exact Option.some.inj h ▸ List.mem_cons_of_mem _ (mem_of_best? hrest)

/-! ## The place where a reading is stuck -/

/-- What is known about the place where a reading is stuck is within the source. -/
structure Impasse.Within (source : Bytes) (i : Impasse) : Prop where
  pieces : ∀ p ∈ i.pieces, p.Within source
  words : ∀ w ∈ i.words, w.Within source

theorem within_impasse (hm : m.Keeps source) {text : Reading} {e : Edge} (htext : text.Within source)
    (he : e.Within source) : (m.impasse text e).Within source := by
  have : Placed source text := ⟨htext⟩
  exact ⟨he, within_words hm (Reading.inPlace (text.upTo e.offset)).withoutRepairs⟩

theorem within_insertFault {f : Node} (hf : f.Loose source) {ns : List Node} (h : ∀ n ∈ ns, n.Within source) :
    ∀ n ∈ insertFault f ns, n.Within source := by
  induction ns with
  | nil => simpa [insertFault] using hf.within
  | cons n rest ih =>
    obtain ⟨hn, hrest⟩ := List.forall_mem_cons.mp h
    rw [insertFault]
    split
    · exact List.forall_mem_cons.mpr ⟨hf.within, h⟩
    · split
      · exact List.forall_mem_cons.mpr ⟨hn.adopt hf, hrest⟩
      · exact List.forall_mem_cons.mpr ⟨hn, ih hrest⟩

theorem within_withFaults {text : Reading} (htext : text.Within source) (edge : Nat) {ns : List Node}
    (h : ∀ n ∈ ns, n.Within source) : ∀ n ∈ withFaults text edge ns, n.Within source := by
  unfold withFaults
  split
  · exact h
  · rename_i first hfirst
    have hfaults : ∀ f ∈ text.repairs.faults.filter fun f => first.start ≤ f.tree.start && f.tree.stop ≤ edge,
        f.tree.Loose source := fun f hf => htext.faults f (List.mem_filter.mp hf).1
    generalize text.repairs.faults.filter _ = fs at hfaults
    clear hfirst
    induction fs generalizing ns with
    | nil => exact h
    | cons f fs ih =>
      obtain ⟨hf, hfs⟩ := List.forall_mem_cons.mp hfaults
      exact ih (within_insertFault hf h) hfs

/-! ## The ways past it -/

section

variable {a : Attempt} {i : Impasse}

/-- A fault reaches from the first of some nodes to the last, so it is in place if they are. -/
theorem within_withFault (hm : m.Keeps source) (ha : a.Within source) {passed : Nat} {pieces : List Node}
    (hpieces : ∀ n ∈ pieces, n.Within source) {b : Attempt} (hb : m.withFault source a i passed pieces = some b) :
    b.Within source := by
  unfold withFault at hb
  dsimp only at hb
  obtain ⟨start, -, hb⟩ := Option.bind_eq_some_iff.mp hb
  have hall : ∀ n ∈ ((faultUpTo a i start.start).map (·.tree.children)).getD [] ++ pieces, n.Within source := by
    refine List.forall_mem_append.mpr ⟨fun n hn => ?_, hpieces⟩
    cases hjoined : faultUpTo a i start.start with
    | none => simp [hjoined] at hn
    | some f =>
      rw [hjoined] at hn
      exact (ha.repairs f (List.mem_of_find?_eq_some hjoined)).within.children n hn
  obtain ⟨first, hfirst, hb⟩ := Option.bind_eq_some_iff.mp hb
  obtain ⟨last, hlast, hb⟩ := Option.bind_eq_some_iff.mp hb
  obtain rfl := Option.some.inj hb
  have hfault : (Node.mk .error .none ⟨first.span.start, last.span.stop⟩
      (((faultUpTo a i start.start).map (·.tree.children)).getD [] ++ pieces)).Loose source :=
    ⟨.mk (hall first (List.mem_of_mem_head? hfirst)).start (hall last (List.mem_of_getLast? hlast)).stop
      (.of_isFree rfl) hall, rfl⟩
  exact .of_read hm (List.forall_mem_cons.mpr ⟨hfault, ha.repairs.outside _ _⟩) rfl

theorem within_faultBefore (hm : m.Keeps source) (ha : a.Within source) {text : Reading} (htext : text.Within source)
    (hi : i.Within source) {rivals : List Attempt} {closed : Cut → Bool} {skipped : List Node}
    (hskipped : ∀ w ∈ skipped, w.Within source) {target : Option Node} {b : Attempt}
    (hb : m.faultBefore source a text i rivals closed skipped target = some b) : b.Within source := by
  unfold faultBefore at hb
  dsimp only at hb
  obtain ⟨c, hc, hb⟩ := List.exists_of_findSome?_eq_some hb
  have hfar : ∀ c ∈ Piece.cutsAmong [] [] 0 i.pieces, ∀ n ∈ c.behind, n.Within source :=
    Piece.Within.cutsAmong (by simp) hi.pieces
  have hbehind : ∀ n ∈ c.behind, n.Within source := by
    split at hc
    · exact hfar c hc
    · rcases List.mem_cons.mp hc with rfl | hc
      · simp
      · exact hfar c hc
  split at hb
  · exact absurd hb (by simp)
  · obtain ⟨b', hb', hb⟩ := Option.bind_eq_some_iff.mp hb
    split at hb
    · obtain rfl := Option.some.inj hb
      exact within_withFault hm ha
        (List.forall_mem_append.mpr ⟨within_withFaults htext _ hbehind, hskipped⟩) hb'
    · exact absurd hb (by simp)

/-- A word that the text lacks takes no stretch of it. -/
theorem within_missingWord (hm : m.Keeps source) (ha : a.Within source) {b : Attempt}
    (hb : m.missingWord source a i = some b) : b.Within source := by
  unfold missingWord at hb
  obtain ⟨word, -, hb⟩ := List.exists_of_findSome?_eq_some hb
  dsimp only at hb
  split at hb
  · obtain rfl := Option.some.inj hb
    exact .of_read hm ha.repairs rfl
  · exact absurd hb (by simp)

/-- What comes out of a race ran in it: at each word some attempts drop out, and one may start. -/
theorem within_race (hm : m.Keeps source) (ha : a.Within source) {text : Reading} (htext : text.Within source)
    (hi : i.Within source) {closed : Cut → Bool} : ∀ {n k : Nat} {passing : Bool} {running : List Attempt},
    (∀ b ∈ running, b.Within source) → ∀ {b : Attempt}, m.race source a text i closed n k passing running = some b →
      b.Within source
  | 0, _, _, _, hrunning, b, hb => by
    rw [race] at hb
    exact hrunning b (Attempt.mem_of_best? hb)
  | n + 1, k, passing, running, hrunning, b, hb => by
    rw [race] at hb
    split at hb
    · dsimp only at hb
      have hlast : ∀ c ∈ (if passing then
          (m.faultBefore source a text i [] (fun _ => false) i.words none).toList else []), c.Within source := by
        intro c hc
        split at hc
        · exact within_faultBefore hm ha htext hi hi.words (Option.mem_toList.mp hc)
        · exact absurd hc List.not_mem_nil
      have harriving := List.forall_mem_append.mpr ⟨hrunning, hlast⟩
      rcases Option.or_eq_some_iff.mp hb with hb | ⟨-, hb⟩
      · exact harriving b (List.mem_filter.mp (Attempt.mem_of_best? hb)).1
      · exact harriving b (Attempt.mem_of_best? hb)
    · rename_i w _
      extract_lets taken rivals closed starting going cost next goesOn at hb
      have htaken : ∀ c ∈ taken, c.Within source := fun c hc => hrunning c (List.mem_filter.mp hc).1
      have hstarting : ∀ c ∈ starting, c.Within source := by
        intro c hc
        dsimp only [starting] at hc
        split at hc
        · exact within_faultBefore hm ha htext hi (fun w hw => hi.words w (List.mem_of_mem_take hw))
            (Option.mem_toList.mp hc)
        · exact absurd hc List.not_mem_nil
      have hgoing : ∀ c ∈ going, c.Within source := fun c hc =>
        List.forall_mem_append.mpr ⟨htaken, hstarting⟩ c (List.mem_filter.mp hc).1
      split at hb
      · exact List.forall_mem_append.mpr ⟨hrunning, hstarting⟩ b (Attempt.mem_of_best? hb)
      · exact within_race hm ha htext hi hgoing hb

theorem within_wayPast (hm : m.Keeps source) (ha : a.Within source) {e : Edge} (he : e.Within source) {b : Attempt}
    (hb : m.wayPast source a e = some b) : b.Within source := by
  have htext := Reading.within_ofSource ha.repairs
  refine within_race hm ha htext (within_impasse hm htext he) (fun c hc => ?_) hb
  exact within_missingWord hm ha (Option.mem_toList.mp hc)

end

/-! ## Trees -/

/-- An attempt that is followed stays within the source. -/
theorem within_follow (hm : m.Keeps source) : ∀ {n : Nat} {a : Attempt}, a.Within source →
    (m.follow source n a).Within source
  | 0, _, ha => ha
  | n + 1, a, ha => by
    rw [follow]
    split
    · exact ha
    · rename_i e hstuck
      split
      · rename_i b hb
        exact within_follow hm (within_wayPast hm ha (ha.edge e hstuck) hb)
      · exact ha

theorem within_unreadable (hm : m.Keeps source) : (m.unreadable source).Within source := by
  have htop : (Reading.ofSource source {}).Within source := Reading.within_ofSource (Repairs.Within.none source)
  have hplaced : Placed source (Reading.ofSource source {}) := ⟨htop⟩
  have hwords : ∀ w ∈ m.words (Reading.ofSource source {}).budget (Reading.ofSource source {}), w.Within source :=
    within_words hm htop
  have hend : ((Reading.ofSource source {}).upTo source.length).pos.Within source :=
    (Reading.placed_pos ((Reading.ofSource source {}).upTo source.length)).within
  have hzero : Position.zero.Within source := htop.ahead.here
  unfold unreadable
  dsimp only
  refine .mk hzero hend (.of_isFree rfl) fun c hc => ?_
  obtain rfl := List.mem_singleton.mp hc
  split
  · rename_i first last hfirst hlast
    exact .mk (hwords first (List.mem_of_mem_head? hfirst)).start (hwords last (List.mem_of_getLast? hlast)).stop
      (.of_isFree rfl) hwords
  · exact .mk hzero hend (.of_isFree rfl) hwords

/-- A tree of a text keeps to its places, mended or not. -/
theorem within_tree (hm : m.Keeps source) : (m.tree source).Within source := by
  unfold tree
  split
  · rename_i n hdone
    exact (within_follow hm (within_plainAttempt hm)).tree n hdone
  · exact within_unreadable hm

end Mending

end LogHygiene.Syntax

namespace LogHygiene

open Syntax

/-- Every node of the tree of a file starts and ends at a place of its text, and begins with the part that it should. -/
theorem Grammar.tree_within (g : Grammar) (source : Bytes) : (g.tree source).Within source := by
  refine Mending.within_tree ?_
  cases g with
  | python => exact ⟨Python.keeps_file, Python.keeps_word⟩
  | javascript | typescript | tsx => exact ⟨JavaScript.keeps_file _, JavaScript.keeps_word⟩

end LogHygiene
