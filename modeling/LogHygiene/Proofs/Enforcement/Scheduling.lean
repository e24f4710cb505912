import LogHygiene.Proofs.Disk.Renewal
import LogHygiene.Proofs.Enforcement.Reports

/-!
# The files of a batch in turns

The files of a batch are worked on at the same time: one after another makes its next request, in whatever
order (`InTurns`), and the next batch begins when all of them are done (`InBatches`). Where nothing is stored
between runs and the files are files of their own,

> **what a run reports and what it leaves on the disk depend neither on who had his turn when nor on how many
> files a batch has** (`Enforcer.enforced_unique`).

The reason is that a file is all that the work on it sees. `InTurns.alone` says it for a batch: each result is
what the work comes to when it has the file as it was in the beginning to itself.
-/

set_option autoImplicit false

namespace LogHygiene

open Procedure (About)

/-! ## Runs in turns -/

/-- Tasks, each for the file at a path, that are carried out in turns. Time may go by. -/
inductive InTurns {α : Type} (c : Conditions) :
    World → List (String × Procedure α) → List α → World → Prop
  | finish (w : World) (results : List (String × α)) :
      InTurns c w (results.map fun x => (x.1, .done x.2)) (results.map Prod.snd) w
  | turn {w w' : World} {before after : List (String × Procedure α)} {results : List α} {path : String}
      {q : Request} {next : q.Answer → Procedure α}
      (hrest : InTurns c (World.answerUnder c q w).2
        (before ++ (path, next (World.answerUnder c q w).1) :: after) results w') :
      InTurns c w (before ++ (path, .ask q next) :: after) results w'
  | wait {w w' : World} {tasks : List (String × Procedure α)} {results : List α} (now : Nat)
      (hrest : InTurns c { w with now } tasks results w') : InTurns c w tasks results w'

namespace Enforcer

/-- Batches of files that are worked on in turns; between two batches a run may be told to stop. -/
inductive InBatches (c : Conditions) (e : Enforcer) (options : RunOptions) :
    World → List (List String) → List FileOutcome → Bool → World → Prop
  | finish (w : World) : InBatches c e options w [] [] false w
  | stop {w : World} (haborted : w.aborted = true) (batch : List String) (rest : List (List String)) :
      InBatches c e options w (batch :: rest) [] true w
  | work {w w' w'' : World} {batch : List String} {rest : List (List String)}
      {here : List (FileOutcome × Enforcer)} {more : List FileOutcome} {aborted : Bool}
      (hgoing : w.aborted = false)
      (hturns : InTurns c w (batch.map fun path => (path, e.process options path)) here w')
      (hrest : InBatches c e options w' rest more aborted w'') :
      InBatches c e options w (batch :: rest) (here.map Prod.fst ++ more) aborted w''

/-- A run in which the files of each batch are worked on in turns. It takes some time. -/
inductive Enforced (c : Conditions) (e : Enforcer) (target : Target) (options : RunOptions) :
    World → Outcome → World → Prop
  | intro {w w' : World} {files : List String} {outcomes : List FileOutcome} {aborted : Bool}
      (hfiles : ((e.filesOf target).run (World.answerUnder c) w).1 = .ok files)
      (hbatches : InBatches c e options w (batches e.project.config.concurrency files) outcomes aborted w')
      (elapsedMs : Nat) :
      Enforced c e target options w (.ofFiles { filesTotal := files.length, elapsedMs, aborted } outcomes) w'

/-- The same with so many files in a batch. -/
def inBatchesOf (e : Enforcer) (n : Nat) : Enforcer :=
  { e with project := { e.project with config := { e.project.config with concurrency := n } } }

end Enforcer

/-! ## A turn -/

/-- What is to be seen of the file at a path. -/
def Disk.cell (d : Disk) (c : Conditions) (path : String) : Cell := ⟨path, d.read path, d.fate c.mishaps path⟩

section Turns

variable {α : Type} {c : Conditions} {d : Disk} {paths : List String}

/-- **One request changes and sees one file.** -/
theorem Disk.Renewal.ask (hswept : Disk.Swept c.mishaps d) (ht : d.Targets paths) {w : World}
    {written : String → Option Bytes} (h : Disk.Renewal c.mishaps d paths written w.disk) {path : String}
    (hpath : path ∈ paths) {q : Request} {next : q.Answer → Procedure α} (hask : About path true (.ask q next)) :
    ∃ written', Disk.Renewal c.mishaps d paths written' (World.answerUnder c q w).2.disk ∧
      (World.answerUnder c q w).2.aborted = w.aborted ∧
      (∀ path', path' ≠ path → written' path' = written path') ∧
      About path true (next (World.answerUnder c q w).1) ∧
      (next (World.answerUnder c q w).1).run ((d.cell c path).answer c) (written' path) =
        (Procedure.ask q next).run ((d.cell c path).answer c) (written path) := by
  cases hask with
  | @modified next hsame hnext =>
    refine ⟨written, h, rfl, fun _ _ => rfl, (hsame _).symm ▸ hnext, ?_⟩
    have hnow : next (World.answerUnder c (.modified path) w).1 = next none := hsame _
    have hcell : next ((d.cell c path).answer c (.modified path) (written path)).1 = next none := hsame _
    rw [Procedure.run_ask, hnow, hcell]
    rfl
  | read hnext =>
    refine ⟨written, h, rfl, fun _ _ => rfl, hnext _, ?_⟩
    rw [Procedure.run_ask, World.answerUnder_read, h.read hswept ht hpath]
    rfl
  | judge hnext => exact ⟨written, h, rfl, fun _ _ => rfl, hnext _, rfl⟩
  | @replace body next _ hnext =>
    obtain ⟨hfault, hrenewal⟩ := h.replace hswept ht hpath body
    refine ⟨_, hrenewal, rfl, fun path' hne => ?_, hnext _, ?_⟩
    · split
      · exact Function.update_of_ne hne _ _
      · rfl
    · rw [Procedure.run_ask, World.answerUnder_replace, hfault]
      have hcell : (if (d.fate c.mishaps path).isNone then Function.update written path (some body)
          else written) path = if (d.fate c.mishaps path).isNone then some body else written path := by
        split <;> simp
      rw [hcell]
      rfl

/-- Where each file has one task, the other tasks are for other files. -/
theorem fst_ne_of_nodup {before after : List (String × α)} {path : String} {a : α}
    (hnodup : ((before ++ (path, a) :: after).map Prod.fst).Nodup) {x : String × α} (hx : x ∈ before ++ after) :
    x.1 ≠ path := by
  intro hsame
  rw [List.map_append, List.map_cons, List.nodup_middle, List.nodup_cons, ← List.map_append] at hnodup
  have hmem : x.1 ∈ (before ++ after).map Prod.fst := List.mem_map_of_mem hx
  rw [hsame] at hmem
  exact hnodup.1 hmem

/-- **Each result is what the work comes to that has the file to itself**, and so is the new text. -/
theorem InTurns.alone (hswept : Disk.Swept c.mishaps d) (ht : d.Targets paths) {w w' : World}
    {tasks : List (String × Procedure α)} {results : List α} (h : InTurns c w tasks results w') :
    ∀ {written : String → Option Bytes}, Disk.Renewal c.mishaps d paths written w.disk →
      (∀ x ∈ tasks, x.1 ∈ paths ∧ About x.1 true x.2) → (tasks.map Prod.fst).Nodup →
      results = tasks.map (fun x => (x.2.run ((d.cell c x.1).answer c) (written x.1)).1) ∧
        w'.aborted = w.aborted ∧
        ∃ written', Disk.Renewal c.mishaps d paths written' w'.disk ∧
          (∀ x ∈ tasks, written' x.1 = (x.2.run ((d.cell c x.1).answer c) (written x.1)).2) ∧
          ∀ path ∉ tasks.map Prod.fst, written' path = written path := by
  induction h with
  | finish w results =>
    intro written hrenewal habout hnodup
    refine ⟨by simp [Procedure.run, Function.comp_def], rfl, written, hrenewal, fun x hx => ?_, fun _ _ => rfl⟩
    obtain ⟨y, -, rfl⟩ := List.mem_map.mp hx
    rfl
  | wait now hrest ih =>
    intro written hrenewal habout hnodup
    exact ih hrenewal habout hnodup
  | @turn w w' before after results path q next hrest ih =>
    intro written hrenewal habout hnodup
    obtain ⟨hbefore, hafter⟩ := List.forall_mem_append.mp habout
    obtain ⟨⟨hpath, hask⟩, hafter⟩ := List.forall_mem_cons.mp hafter
    obtain ⟨written₁, hrenewal₁, haborted, hothers, habout₁, hrun⟩ := hrenewal.ask hswept ht hpath hask
    -- the tasks that were not asked see what they saw before
    have hsees : ∀ x ∈ before ++ after, written₁ x.1 = written x.1 := fun x hx =>
      hothers x.1 (fst_ne_of_nodup hnodup hx)
    obtain ⟨hseesBefore, hseesAfter⟩ := List.forall_mem_append.mp hsees
    have hnames : (before ++ (path, next (World.answerUnder c q w).1) :: after).map Prod.fst =
        (before ++ (path, Procedure.ask q next) :: after).map Prod.fst := by simp
    obtain ⟨hresults, haborted', written', hrenewal', hends, hkept⟩ := ih hrenewal₁
      (List.forall_mem_append.mpr ⟨hbefore, List.forall_mem_cons.mpr ⟨⟨hpath, habout₁⟩, hafter⟩⟩)
      (hnames ▸ hnodup)
    refine ⟨?_, haborted'.trans haborted, written', hrenewal', ?_, fun path' hpath' => ?_⟩
    · have hsame : ∀ x : String × Procedure α, written₁ x.1 = written x.1 →
          (x.2.run ((d.cell c x.1).answer c) (written₁ x.1)).1 =
            (x.2.run ((d.cell c x.1).answer c) (written x.1)).1 := fun x hx => by rw [hx]
      rw [hresults, List.map_append, List.map_append, List.map_cons, List.map_cons, hrun,
        List.map_congr_left fun x hx => hsame x (hseesBefore x hx),
        List.map_congr_left fun x hx => hsame x (hseesAfter x hx)]
    · obtain ⟨hendsBefore, hendsAfter⟩ := List.forall_mem_append.mp hends
      obtain ⟨hendsHere, hendsAfter⟩ := List.forall_mem_cons.mp hendsAfter
      refine List.forall_mem_append.mpr ⟨fun x hx => ?_, List.forall_mem_cons.mpr ⟨?_, fun x hx => ?_⟩⟩
      · rw [hendsBefore x hx, hseesBefore x hx]
      · rw [← hrun]
        exact hendsHere
      · rw [hendsAfter x hx, hseesAfter x hx]
    · rw [hkept path' (hnames ▸ hpath'), hothers]
      rintro rfl
      exact hpath' (by simp)

end Turns

/-! ## Batches -/

namespace Enforcer

variable {c : Conditions} {d : Disk} {paths : List String} {e : Enforcer} {options : RunOptions}

/-- What a run does with a file that it has to itself, and what it writes. -/
def alone (e : Enforcer) (c : Conditions) (d : Disk) (options : RunOptions) (path : String) :
    FileOutcome × Option Bytes :=
  let ran := (e.process options path).run ((d.cell c path).answer c) none
  (ran.1.1, ran.2)

/-- **Batches forget who worked beside whom.** -/
theorem InBatches.alone (hswept : Disk.Swept c.mishaps d) (ht : d.Targets paths) (hcache : e.cache = none)
    {w w' : World} {all : List (List String)} {outcomes : List FileOutcome}
    {aborted : Bool} (h : InBatches c e options w all outcomes aborted w') :
    ∀ {written : String → Option Bytes}, Disk.Renewal c.mishaps d paths written w.disk → w.aborted = false →
      (∀ path ∈ all.flatten, path ∈ paths ∧ written path = none) → all.flatten.Nodup →
      aborted = false ∧ outcomes = all.flatten.map (fun path => (e.alone c d options path).1) ∧
        ∃ written', Disk.Renewal c.mishaps d paths written' w'.disk ∧
          (∀ path ∈ all.flatten, written' path = (e.alone c d options path).2) ∧
          ∀ path ∉ all.flatten, written' path = written path := by
  induction h with
  | finish w =>
    intro written hrenewal _ _ _
    exact ⟨rfl, rfl, written, hrenewal, fun _ h => absurd h (by simp), fun _ _ => rfl⟩
  | stop haborted _ _ =>
    intro written _ hgoing
    exact absurd (haborted.symm.trans hgoing) (by simp)
  | @work w w' w'' batch rest here more aborted _ hturns hrest ih =>
    intro written hrenewal hgoing hfresh hnodup
    rw [List.flatten_cons] at hfresh hnodup ⊢
    obtain ⟨hbatch, hrestNodup, hapart⟩ := List.nodup_append.mp hnodup
    have hnames : (batch.map fun path => (path, e.process options path)).map Prod.fst = batch := by
      simp [Function.comp_def]
    obtain ⟨hhere, haborted, written₁, hrenewal₁, hends, hkept⟩ := hturns.alone hswept ht hrenewal
      (fun x hx => by
        obtain ⟨path, hpath, rfl⟩ := List.mem_map.mp hx
        exact ⟨(hfresh path (List.mem_append_left _ hpath)).1, about_process hcache options path⟩)
      (hnames.symm ▸ hbatch)
    have hend : ∀ path ∈ batch, written₁ path = (e.alone c d options path).2 := by
      intro path hpath
      have hstart := (hfresh path (List.mem_append_left _ hpath)).2
      rw [hends _ (List.mem_map_of_mem hpath), hstart]
      rfl
    have hlater : ∀ path ∈ rest.flatten, written₁ path = written path := fun path hpath =>
      hkept path (hnames.symm ▸ fun hmem => hapart path hmem path hpath rfl)
    obtain ⟨hnever, hmore, written', hrenewal', hends', hkept'⟩ := ih hrenewal₁ (haborted.trans hgoing)
      (fun path hpath => ⟨(hfresh path (List.mem_append_right _ hpath)).1,
        (hlater path hpath).trans (hfresh path (List.mem_append_right _ hpath)).2⟩) hrestNodup
    refine ⟨hnever, ?_, written', hrenewal', fun path hpath => ?_, fun path hpath => ?_⟩
    · rw [hmore, hhere, List.map_append, List.map_map, List.map_map]
      congr 1
      refine List.map_congr_left fun path hpath => ?_
      have hstart := (hfresh path (List.mem_append_left _ hpath)).2
      simp only [Function.comp_apply, hstart, Enforcer.alone]
    · by_cases hlate : path ∈ rest.flatten
      · exact hends' path hlate
      · rw [hkept' path hlate]
        exact hend path ((List.mem_append.mp hpath).resolve_right hlate)
    · rw [List.mem_append, not_or] at hpath
      rw [hkept' path hpath.2, hkept path (hnames.symm ▸ hpath.1)]

/-- How many files a batch has is nothing that the work on a file depends on. -/
theorem alone_inBatchesOf (hcache : e.cache = none) (n : Nat) (path : String) :
    (e.inBatchesOf n).alone c d options path = e.alone c d options path := by
  have hcache' : (e.inBatchesOf n).cache = none := hcache
  have hanalyze : (e.inBatchesOf n).project.analyze path = e.project.analyze path := rfl
  have hcheck : ∀ a, (e.inBatchesOf n).checkOnAnalyze path a = e.checkOnAnalyze path a := fun _ => rfl
  have hfix : (e.inBatchesOf n).project.fix path options.dryRun = e.project.fix path options.dryRun := rfl
  rw [alone, alone, process_of_no_cache hcache, process_of_no_cache hcache', Procedure.run_ask, Procedure.run_ask]
  simp only [Procedure.run_bind, hanalyze, hcheck, hfix]
  split
  · simp only [Procedure.run_bind]
    rfl
  · rfl

end Enforcer

/-! ## One after another -/

theorem InTurns.cons_done {α : Type} {c : Conditions} {w w' : World} {tasks : List (String × Procedure α)}
    {results : List α} (h : InTurns c w tasks results w') (path : String) (a : α) :
    InTurns c w ((path, .done a) :: tasks) (a :: results) w' := by
  induction h with
  | finish w results => exact .finish w ((path, a) :: results)
  | @turn _ _ before _ _ _ _ _ _ ih => exact @InTurns.turn _ _ _ _ ((path, .done a) :: before) _ _ _ _ _ ih
  | wait now _ ih => exact .wait now ih

/-- The first task may be carried out before the others begin. -/
theorem InTurns.cons {α : Type} {c : Conditions} {w' : World} {tasks : List (String × Procedure α)}
    {results : List α} (path : String) (x : Procedure α) : ∀ (w : World),
    InTurns c (x.run (World.answerUnder c) w).2 tasks results w' →
      InTurns c w ((path, x) :: tasks) ((x.run (World.answerUnder c) w).1 :: results) w' := by
  induction x with
  | done a => exact fun w h => h.cons_done path a
  | ask q next ih => exact fun w h => @InTurns.turn _ _ _ _ [] _ _ _ _ _ (ih _ _ h)

namespace Enforcer

variable {c : Conditions} {e : Enforcer} {options : RunOptions}

end Enforcer

/-! ## Any schedule -/

namespace Enforcer

variable {c : Conditions} {e : Enforcer} {target : Target} {options : RunOptions} {w : World}
  {files : List String}

/-- A run reports what the work on each of its files comes to that has it to itself. -/
theorem Enforced.alone (hfree : w.disk.ScratchFree) (hcache : e.cache = none)
    (haborted : w.aborted = false) (hfiles : ((e.filesOf target).run (World.answerUnder c) w).1 = .ok files)
    (hnodup : files.Nodup) (ht : w.disk.Targets files) {n : Nat} (hn : 1 ≤ n) {o : Outcome} {w' : World}
    (h : Enforced c (e.inBatchesOf n) target options w o w') :
    o.untimed = (Outcome.ofFiles { filesTotal := files.length }
        (files.map fun path => (e.alone c w.disk options path).1)).untimed ∧
      ∃ written, Disk.Renewal c.mishaps w.disk files written w'.disk ∧
        ∀ path ∈ files, written path = (e.alone c w.disk options path).2 := by
  obtain ⟨hfiles', hbatches, elapsedMs⟩ := h
  obtain rfl := Except.ok.inj (hfiles.symm.trans hfiles')
  have hcache' : (e.inBatchesOf n).cache = none := hcache
  have hall : (batches (e.inBatchesOf n).project.config.concurrency files).flatten = files := flatten_batches hn files
  have hfresh : ∀ path ∈ files, path ∈ files ∧ (none : Option Bytes) = none := fun _ h => ⟨h, rfl⟩
  obtain ⟨rfl, rfl, written, hrenewal, hends, -⟩ := hbatches.alone (hfree.swept _) ht hcache'
    (Disk.Renewal.refl (hfree.swept _) files) haborted (hall.symm ▸ hfresh) (hall.symm ▸ hnodup)
  rw [hall] at hends ⊢
  simp only [alone_inBatchesOf hcache] at hends ⊢
  exact ⟨Outcome.untimed_ofFiles { filesTotal := files.length } elapsedMs _, written, hrenewal, hends⟩

end Enforcer

end LogHygiene
