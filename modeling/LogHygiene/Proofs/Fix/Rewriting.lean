import LogHygiene.Fix.Plan
import LogHygiene.Proofs.Facts.Insertions
import LogHygiene.Proofs.Splicing

/-!
# What a rewrite changes

`Rewrite.plan` hands a list of edits to `Edit.applyAll`, which refuses edits that leave the file, cut a
character or overlap. None of that can happen to it: callees of flagged calls keep apart, an insertion
place lies between characters, and the look at early calls keeps it out of the callees.

> **a rewrite exchanges the callees of the active calls, puts in at most one block, and copies the rest**
> (`applyAll_plan`).

The edits are shown to fit and to keep apart; `Edit.applyAll_of_apart` does the rest.
-/

set_option autoImplicit false

namespace LogHygiene

open Syntax

/-! ## The lines that are put in -/

namespace LoggerSetup

variable {shown name : String} {family : Family} {s : FamilySettings} {x : FileFacts}

/-- A file that has a logger keeps it. -/
theorem choose_of_some (h : x.logger.preferred? = some name) : choose shown family s x = ⟨name, []⟩ := by
  rw [choose, h]

/-- A file that has none gets lines. -/
theorem choose_lines_ne_nil (shown : String) (family : Family) (s : FamilySettings)
    (h : x.logger.preferred? = none) : (choose shown family s x).lines ≠ [] := by
  rw [choose, h]
  dsimp only
  cases x.logger.binding <;> simp

theorem edits_choose (i : Insertion) : (choose shown family s x).edits i =
    if x.logger.preferred?.isNone then
      [.insert i.byte (Bytes.ofText ((choose shown family s x).block i))] else [] := by
  cases h : x.logger.preferred? with
  | some name => rw [choose_of_some h]; rfl
  | none =>
    have hne := choose_lines_ne_nil shown family s h
    rw [edits, if_neg (by simpa using hne)]
    rfl

end LoggerSetup

/-! ## The edits keep apart -/

namespace Rewrite

/-- What a rewrite is meant to exchange: the empty text at the insertion place for a block, if the file has
no logger, and the text of each callee for the method of the logger. -/
def exchanges (family : Family) (u : LoggerSetup) (x : FileFacts) (calls : List CallSite) :
    List (Nat × Bytes × Bytes) :=
  (if x.logger.preferred?.isNone then [(x.insertion.byte, [], Bytes.ofText (u.block x.insertion))]
    else []) ++
  calls.map fun c => (c.callee.start.byte, Bytes.ofText c.calleeText,
    Bytes.ofText (u.name ++ "." ++ c.level.method family))

variable {source : Bytes} {family : Family} {u : LoggerSetup} {c d : CallSite}

theorem callEdit_fits (h : c.Sound source) : Edit.misfit? source (u.callEdit family c) = none :=
  Edit.misfit?_eq_none.mpr ⟨Nat.le_of_lt h.wide, h.inFile, h.startsBetween, h.stopsBetween⟩

theorem exchange_callEdit (h : c.Sound source) : Edit.exchange source (u.callEdit family c) =
    (c.callee.start.byte, Bytes.ofText c.calleeText,
      Bytes.ofText (u.name ++ "." ++ c.level.method family)) := by
  rw [h.shows]
  rfl

theorem insert_fits {i : Nat} {text : Bytes} (h : source.isBoundary i = true) :
    Edit.misfit? source (.insert i text) = none :=
  Edit.misfit?_eq_none.mpr ⟨Nat.le.refl, Bytes.le_length_of_isBoundary h, h, h⟩

theorem exchange_insert (i : Nat) (text : Bytes) :
    Edit.exchange source (.insert i text) = (i, [], text) := by
  rw [Edit.exchange, Edit.insert, Bytes.slice, Nat.sub_self, List.take_zero]

/-- Calls that the look at early calls lets pass start behind the insertion place. -/
theorem insertion_le_of_earlyCall? {x : FileFacts} {calls : List CallSite}
    (h : Project.earlyCall? x calls = none) (hnew : x.logger.preferred? = none) (hc : c ∈ calls) :
    x.insertion.byte ≤ c.call.start.byte := by
  rw [Project.earlyCall?, hnew, Option.isSome_none, if_neg (by simp)] at h
  simpa using List.find?_eq_none.mp h c hc

end Rewrite

namespace FamilySettings

theorem activeCalls_sublist (s : FamilySettings) (f : ParsedFile) (x : FileFacts) :
    (s.activeCalls f x).Sublist x.calls := List.filter_sublist

end FamilySettings

/-- The look at early calls passes if every flagged call starts behind the insertion place. -/
theorem Project.earlyCall?_eq_none {f : ParsedFile} (s : FamilySettings)
    (h : ∀ c ∈ f.tree.preorder.filterMap f.callSite?, f.facts.insertion.byte ≤ c.call.start.byte) :
    Project.earlyCall? f.facts (s.activeCalls f f.facts) = none := by
  unfold Project.earlyCall?
  split
  · rfl
  · refine List.find?_eq_none.mpr fun c hc => ?_
    have hmem := (s.activeCalls_sublist f f.facts).mem hc
    rw [f.facts_calls] at hmem
    simpa using h c (CallSite.mem_of_mem_inOrder hmem)

/-! ## The rule -/

namespace Rewrite

/-- **Once the look at early calls has passed, the edits of a rewrite are carried out, and they are all
that changes.** The file is the row of stretches read one way and the fixed text the same row read the
other way; what is exchanged are the callees of the active calls and the place of the new lines. A call that
is not active shares no byte with any of these callees. -/
theorem applyAll_plan (shown : String) (s : FamilySettings) (f : ParsedFile) (h : f.WellFormed)
    (hearly : Project.earlyCall? f.facts (s.activeCalls f f.facts) = none) :
    let x := f.facts
    let calls := s.activeCalls f x
    let u := LoggerSetup.choose shown f.grammar.family s x
    (∃ row, Stretch.source row = f.source ∧
      Edit.applyAll f.source (plan shown f.grammar.family s x calls).edits = .ok (Stretch.result row) ∧
      (Stretch.exchanges row).Perm (exchanges f.grammar.family u x calls)) ∧
    ∀ c ∈ x.calls, ∀ d ∈ calls, c ≠ d → c.Apart d := by
  intro x calls u
  have hsub : calls.Sublist x.calls := s.activeCalls_sublist f x
  have hsound : ∀ c ∈ calls, c.Sound f.source := fun c hc => h.callSite_sound (hsub.mem hc)
  have hapart : x.calls.Pairwise CallSite.Apart := h.calls_apart
  refine ⟨?_, fun c hc d hd hne => ?_⟩
  · have hedits : (plan shown f.grammar.family s x calls).edits =
        (if x.logger.preferred?.isNone then
          [Edit.insert x.insertion.byte (Bytes.ofText (u.block x.insertion))] else []) ++
        calls.map (u.callEdit f.grammar.family) := by
      rw [plan, ← LoggerSetup.edits_choose]
    have hcallsApart : (calls.map (u.callEdit f.grammar.family)).Pairwise Edit.Apart :=
      List.pairwise_map.mpr (hapart.sublist hsub)
    have hcallsFit : ∀ e ∈ calls.map (u.callEdit f.grammar.family), Edit.misfit? f.source e = none := by
      intro e he
      obtain ⟨c, hc, rfl⟩ := List.mem_map.mp he
      exact callEdit_fits (hsound c hc)
    have hexchanges : (plan shown f.grammar.family s x calls).edits.map (Edit.exchange f.source) =
        exchanges f.grammar.family u x calls := by
      rw [hedits, exchanges, List.map_append, List.map_map]
      refine congrArg₂ (· ++ ·) ?_ (List.map_congr_left fun c hc => exchange_callEdit (hsound c hc))
      split
      · exact congrArg (· :: []) (exchange_insert _ _)
      · rfl
    rw [← hexchanges]
    refine Edit.applyAll_of_apart ?_ ?_
    · rw [hedits]
      intro e he
      rcases List.mem_append.mp he with hinsert | hcall
      · split at hinsert
        · rw [List.mem_singleton.mp hinsert]
          exact insert_fits h.isBoundary_insertion
        · exact absurd hinsert (by simp)
      · exact hcallsFit e hcall
    · rw [hedits, List.pairwise_append]
      refine ⟨by split <;> simp, hcallsApart, fun e he e' he' => ?_⟩
      split at he
      · rename_i hnew
        rw [List.mem_singleton.mp he]
        obtain ⟨c, hc, rfl⟩ := List.mem_map.mp he'
        have hbehind := insertion_le_of_earlyCall? hearly (Option.isNone_iff_eq_none.mp hnew) hc
        exact .inl (Nat.le_trans hbehind (hsound c hc).inside)
      · exact absurd he (by simp)
  · have hsymm : Std.Symm CallSite.Apart := ⟨fun _ _ => CallSite.Apart.symm⟩
    exact hapart.forall hc (hsub.mem hd) hne

/-- A file with an import, a call that a comment silences, and a call in the arguments of another. -/
def nestedCalls : ParsedFile :=
  let source := Bytes.ofText
    "import 'a';\n// eslint-disable-next-line\nconsole.log(0);\nconsole.log(console.warn('é'));"
  ⟨"a.js", source, .javascript, Grammar.javascript.tree source⟩

theorem applyAll_plan_nestedCalls :
    let f := nestedCalls
    let s := FamilySettings.default .javascript
    let calls := s.activeCalls f f.facts
    let u := LoggerSetup.choose "a.js" .javascript s f.facts
    f.WellFormed ∧ Project.earlyCall? f.facts calls = none ∧ ∃ row, Stretch.source row = f.source ∧
      Edit.applyAll f.source (plan "a.js" .javascript s f.facts calls).edits = .ok (Stretch.result row) ∧
      (Stretch.exchanges row).Perm (exchanges .javascript u f.facts calls) := by
  have hwf : nestedCalls.WellFormed := by decide +kernel
  have hearly := Project.earlyCall?_eq_none (f := nestedCalls) (FamilySettings.default .javascript)
    (by decide +kernel)
  exact ⟨hwf, hearly, (applyAll_plan "a.js" (FamilySettings.default .javascript) nestedCalls hwf hearly).1⟩

end Rewrite

end LogHygiene
