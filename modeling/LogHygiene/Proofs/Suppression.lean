import LogHygiene.Proofs.Fix.Positions
import LogHygiene.Proofs.Markers

/-!
# Which calls comments silence

The rule for markers is short: a marker in a comment on the line directly above a call silences it. `markedLines` are
the lines on which markers of a comment begin, and only the first of them counts:

> **a call is kept exactly if no comment has its first marker on the line above** (`active_all_iff`).

That is less than the rule asks for. A comment over several lines may have a marker above a call and another one
further up, and then the call is kept; the theorem says that this is the only way in which the two differ.
-/

set_option autoImplicit false

namespace LogHygiene

open Syntax
open Bytes (newlines)

/-! ## The first place -/

/-- What is found first for one of two reasons is found first for the one or for the other. -/
theorem find?_or_of_sorted {p q : Nat → Bool} : ∀ {l : List Nat}, l.Pairwise (· < ·) →
    (l.find? fun i => p i || q i) = (match l.find? p, l.find? q with
      | none, other => other
      | some a, none => some a
      | some a, some b => if b < a then some b else some a)
  | [], _ => rfl
  | x :: l, h => by
    obtain ⟨hx, hl⟩ := List.pairwise_cons.mp h
    have hbehind : ∀ {r : Nat → Bool} {a : Nat}, l.find? r = some a → ¬ a < x :=
      fun hfind => Nat.not_lt.mpr (Nat.le_of_lt (hx _ (List.mem_of_find?_eq_some hfind)))
    simp only [List.find?_cons]
    cases hp : p x with
    | true =>
      cases hq : q x with
      | true => simp
      | false =>
        cases hother : l.find? q with
        | none => simp
        | some b => simp [hbehind hother]
    | false =>
      cases hq : q x with
      | true =>
        cases hother : l.find? p with
        | none => simp
        | some a =>
          have hlt := hx a (List.mem_of_find?_eq_some hother)
          simp [hlt]
      | false => simpa using find?_or_of_sorted hl

namespace Suppression

variable {source : Bytes} {markers : List String}

/-! ## Markers in a comment -/

/-- The offsets of a text at which a marker begins. -/
def marks (markers : List String) (text : Bytes) : List Nat :=
  (List.range (text.length + 1)).filter fun i => markers.any fun m => (Bytes.ofText m).isPrefixOf (text.drop i)

/-- The lines of a comment on which a marker begins, counted from one. -/
def markedLines (source : Bytes) (markers : List String) (n : Node) : List Nat :=
  if n.kind != .comment then []
  else
    let text := Bytes.ofText (n.text source)
    (marks markers text).map fun i => n.span.start.row + 1 + newlines (text.take i)

/-- The marker that comes first in a text begins where the first one begins. -/
theorem firstMarker?_offset (text : Bytes) (markers : List String) :
    (firstMarker? text markers).map Prod.fst = (marks markers text).head? := by
  rw [marks, List.head?_filter]
  induction markers with
  | nil => exact (List.find?_eq_none.mpr (by simp)).symm
  | cons m markers ih =>
    simp only [List.any_cons]
    rw [find?_or_of_sorted List.pairwise_lt_range, ← ih, ← Bytes.indexOf?_eq_find?, firstMarker?]
    cases Bytes.indexOf? (Bytes.ofText m) text with
    | none => rfl
    | some i =>
      cases firstMarker? text markers with
      | none => rfl
      | some other =>
        simp only [Option.map_some]
        split <;> rfl

/-- Of the marked lines of a comment the first one counts. -/
theorem ofNode?_line (source : Bytes) (markers : List String) (n : Node) :
    (ofNode? source markers n).map line = (markedLines source markers n).head? := by
  rw [ofNode?, markedLines]
  split
  · rfl
  · rw [List.head?_map, ← firstMarker?_offset, Option.map_map, Option.map_map]
    rfl

/-- In a file whose positions are right, these are lines of the file. -/
theorem markedLines_eq_lineOf {f : ParsedFile} {n : Node} (hwf : f.WellFormed) (hpos : f.Positioned)
    (hn : n ∈ f.tree.preorder) (hkind : n.kind = .comment) : markedLines f.source markers n =
      (marks markers (f.source.slice n.start n.stop)).map fun i => f.source.lineOf (n.start + i) := by
  have htext : Bytes.ofText (n.text f.source) = f.source.slice n.start n.stop :=
    Bytes.ofText_textBetween hwf.text (hwf.boundaries n hn).1 (hwf.boundaries n hn).2 (hwf.nested n hn).forward
  have hrow : n.span.start.row = newlines (f.source.take n.start) := by
    rw [(hpos n hn).1]
    rfl
  rw [markedLines, if_neg (by simpa using hkind), htext]
  refine List.map_congr_left fun i hi => ?_
  have hlen : i ≤ (f.source.slice n.start n.stop).length :=
    Nat.le_of_lt_succ (List.mem_range.mp (List.mem_filter.mp hi).1)
  rw [hrow, Bytes.lineOf_add hlen]

/-! ## The rule -/

/-- A call is kept if no comment has its first marker on the line above. -/
theorem active_all (source : Bytes) (markers : List String) (tree : Node) (calls : List CallSite) :
    active (all source markers tree) calls = calls.filter fun c =>
      !tree.preorder.any fun n => (markedLines source markers n).head?.any (· + 1 == c.line) := by
  refine List.filter_congr fun c _ => congrArg (!·) ?_
  rw [all_eq, List.any_filterMap]
  refine congrArg (tree.preorder.any ·) (funext fun n => ?_)
  rw [← ofNode?_line, Option.any_map]
  cases ofNode? source markers n <;> rfl

/-- **Which calls are kept, and when these are the ones that the rule keeps.** The rule silences a call if a marker in a
comment begins on the line above. It is followed exactly if each such line is the first marked line of some comment.
The lines are counted from the start of the comment, and are those of the file if the row of the comment is. -/
theorem active_all_iff (f : ParsedFile) (markers : List String) (calls : List CallSite) :
    let kept := active (all f.source markers f.tree) calls
    let lines := markedLines f.source markers
    (kept = calls.filter fun c => !f.tree.preorder.any fun n => (lines n).head?.any (· + 1 == c.line)) ∧
    ((kept = calls.filter fun c => !f.tree.preorder.any fun n => (lines n).any (· + 1 == c.line)) ↔
      ∀ c ∈ calls, ∀ n ∈ f.tree.preorder, ∀ line ∈ lines n, line + 1 = c.line →
        ∃ m ∈ f.tree.preorder, (lines m).head? = some line) ∧
    (f.WellFormed → f.Positioned → ∀ n ∈ f.tree.preorder, n.kind = .comment →
      lines n = (marks markers (f.source.slice n.start n.stop)).map fun i => f.source.lineOf (n.start + i)) := by
  intro kept lines
  have hkept : kept = _ := active_all f.source markers f.tree calls
  refine ⟨hkept, ⟨fun hrule c hc n hn line hline habove => ?_, fun hfirst => hkept.trans (List.filter_congr ?_)⟩,
    fun hwf hpos n hn hkind => markedLines_eq_lineOf hwf hpos hn hkind⟩
  · -- the rule silences the call, so it is not kept, so some first marker is there
    have hsilent : c ∉ kept := by
      rw [hrule, List.mem_filter]
      simp only [Bool.not_eq_true', not_and, Bool.not_eq_false, List.any_eq_true, beq_iff_eq]
      exact fun _ => ⟨n, hn, line, hline, habove⟩
    rw [hkept, List.mem_filter] at hsilent
    simp only [hc, true_and, Bool.not_eq_true', Bool.not_eq_false, List.any_eq_true, Option.any_eq_true,
      beq_iff_eq] at hsilent
    obtain ⟨m, hm, first, hsome, hsame⟩ := hsilent
    exact ⟨m, hm, by rw [hsome, Nat.succ.inj (hsame.trans habove.symm)]⟩
  · intro c hc
    refine congrArg (!·) (Bool.eq_iff_iff.mpr ?_)
    simp only [List.any_eq_true, Option.any_eq_true, beq_iff_eq]
    constructor
    · rintro ⟨n, hn, line, hline, habove⟩
      exact ⟨n, hn, line, List.mem_of_mem_head? hline, habove⟩
    · rintro ⟨n, hn, line, hline, habove⟩
      obtain ⟨m, hm, hsome⟩ := hfirst c hc n hn line hline habove
      exact ⟨m, hm, line, hsome, habove⟩

/-- A comment with a marker on each of its two lines. -/
def markedTwice : ParsedFile :=
  let source := Bytes.ofText "/* logsweep-disable-next-line\n logsweep-disable-next-line */\nconsole.log(1);\n"
  ⟨"a.js", source, .javascript, Grammar.javascript.tree source⟩

/-- The second marker is right above the call, and the call is kept. -/
theorem active_all_iff_markedTwice :
    let f := markedTwice
    let markers := ["logsweep-disable-next-line"]
    let calls := f.tree.preorder.filterMap f.callSite?
    (f.WellFormed ∧ f.Positioned) ∧
      (∃ n ∈ f.tree.preorder, n.kind = .comment ∧ markedLines f.source markers n = [1, 2] ∧
        (marks markers (f.source.slice n.start n.stop)).map (fun i => f.source.lineOf (n.start + i)) = [1, 2]) ∧
      active (all f.source markers f.tree) calls ≠ calls.filter fun c =>
        !f.tree.preorder.any fun n => (markedLines f.source markers n).any (· + 1 == c.line) := by
  intro f markers calls
  obtain ⟨-, hrule, hlines⟩ := active_all_iff f markers calls
  have hwf : f.WellFormed := by decide +kernel
  have hpos : f.Positioned := by decide +kernel
  obtain ⟨n, hn, hkind, htwo⟩ : ∃ n ∈ f.tree.preorder, n.kind = .comment ∧
      markedLines f.source markers n = [1, 2] := by decide +kernel
  refine ⟨⟨hwf, hpos⟩, ⟨n, hn, hkind, htwo, (hlines hwf hpos n hn hkind).symm.trans htwo⟩, fun hsame => ?_⟩
  have hmissed : ¬ ∀ c ∈ calls, ∀ n ∈ f.tree.preorder, ∀ line ∈ markedLines f.source markers n, line + 1 = c.line →
      ∃ m ∈ f.tree.preorder, (markedLines f.source markers m).head? = some line := by decide +kernel
  exact hmissed (hrule.mp hsame)

end Suppression

end LogHygiene
