import LogHygiene.Loop
import Mathlib.Data.List.Nodup

/-!
# Runs of a loop

`Loop.Run l s states` says that from `s` on a loop goes through `states`, one after the other, and has then come to its
end. Every state has a run (`exists_run`), which is what it means that the loop ends. What is gathered on the way is a
fold over the run (`Run.fold_eq`), and no state comes up twice (`Run.nodup`).
-/

set_option autoImplicit false

namespace LogHygiene.Loop

variable {State α : Type} {l : Loop State} {s t : State} {states : List State}

/-- The states that a loop goes through until it ends. -/
inductive Run (l : Loop State) : State → List State → Prop where
  | last {s : State} : l.next? s = none → Run l s [s]
  | turn {s t : State} {states : List State} : l.next? s = some t → Run l t states → Run l s (s :: states)

/-- What holds where a loop ends, and before each turn behind which it holds, holds everywhere. -/
theorem induct (l : Loop State) {P : State → Prop} (last : ∀ s, l.next? s = none → P s)
    (turn : ∀ s t, l.next? s = some t → P t → P s) (s : State) : P s := by
  cases h : l.next? s with
  | none => exact last s h
  | some t => exact turn s t h (induct l last turn t)
termination_by l.remaining s
decreasing_by exact l.shrinks h

/-- **A loop ends.** -/
theorem exists_run (l : Loop State) (s : State) : ∃ states, l.Run s states := by
  induction s using l.induct with
  | last s h => exact ⟨[s], .last h⟩
  | turn s t h ih =>
    obtain ⟨states, hrun⟩ := ih
    exact ⟨s :: states, .turn h hrun⟩

theorem fold_of_last (h : l.next? s = none) (gather : α → State → α) (soFar : α) :
    l.fold gather soFar s = gather soFar s := by
  rw [fold]
  split
  · rfl
  · rename_i hsome
    exact absurd (h.symm.trans hsome) (by simp)

theorem fold_of_turn (h : l.next? s = some t) (gather : α → State → α) (soFar : α) :
    l.fold gather soFar s = l.fold gather (gather soFar s) t := by
  rw [fold]
  split
  · rename_i hnone
    exact absurd (h.symm.trans hnone) (by simp)
  · rename_i hsome
    rw [Option.some.inj (h.symm.trans hsome)]

theorem finish_of_last (h : l.next? s = none) : l.finish s = s := fold_of_last h _ _

/-- Where a loop ends does not depend on what was gathered before. -/
theorem finish_of_turn (h : l.next? s = some t) : l.finish s = l.finish t := by
  have hforget : ∀ a b : State, l.fold (fun _ t => t) a t = l.fold (fun _ t => t) b t := by
    intro a b
    cases hnext : l.next? t with
    | none => rw [fold_of_last hnext, fold_of_last hnext]
    | some u => rw [fold_of_turn hnext, fold_of_turn hnext]
  exact (fold_of_turn h _ _).trans (hforget _ _)

namespace Run

/-- What a loop gathers it gathers from the states of its run, in their order. -/
theorem fold_eq (h : l.Run s states) (gather : α → State → α) (soFar : α) :
    l.fold gather soFar s = states.foldl gather soFar := by
  induction h generalizing soFar with
  | last hnone => exact fold_of_last hnone gather soFar
  | turn hnext _ ih => rw [fold_of_turn hnext, ih, List.foldl_cons]

/-- On the way less and less is left to do. -/
theorem remaining_lt (h : l.Run s states) :
    (∀ t ∈ states, l.remaining t ≤ l.remaining s) ∧ states.Pairwise fun a b => l.remaining b < l.remaining a := by
  induction h with
  | last _ => simp
  | turn hnext _ ih =>
    obtain ⟨hle, hpairwise⟩ := ih
    have hlt := l.shrinks hnext
    refine ⟨?_, List.pairwise_cons.mpr ⟨fun t ht => Nat.lt_of_le_of_lt (hle t ht) hlt, hpairwise⟩⟩
    rintro t (_ | ⟨_, ht⟩)
    · exact Nat.le_refl _
    · exact Nat.le_trans (hle t ht) (Nat.le_of_lt hlt)

/-- No state comes up twice. -/
theorem nodup (h : l.Run s states) : states.Nodup := by
  refine h.remaining_lt.2.imp ?_
  rintro a _ hlt rfl
  exact Nat.lt_irrefl _ hlt

/-- There are no more turns than there is left to do. -/
theorem length_le (h : l.Run s states) : states.length ≤ l.remaining s + 1 := by
  induction h with
  | last _ => exact Nat.succ_le_succ (Nat.zero_le _)
  | turn hnext _ ih =>
    have hlt := l.shrinks hnext
    rw [List.length_cons]
    omega

end Run

end LogHygiene.Loop
