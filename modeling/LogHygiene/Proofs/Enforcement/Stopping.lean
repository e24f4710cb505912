import LogHygiene.Proofs.Enforcement.OneFile

/-!
# Runs that are told to stop

A run is told to stop at some time, or never. It asks before each batch, and nothing that it does about a file asks
(`Procedure.Heedless`), no more than it makes a directory. So all that the order to stop can do is said by the number of
batches before it, and

> **a run that is told to stop after `n` batches works on the files of the first `n` batches, one after another**
> (`Enforcer.runUntil_eq`).
-/

set_option autoImplicit false

namespace LogHygiene

/-! ## Asking whether to stop -/

/-- Answer a request in a world in which the run is told to stop after it has asked so many times. -/
def World.answerUntil (c : Conditions) (q : Request) (s : World × Nat) : q.Answer × (World × Nat) :=
  match q with
  | .isAborted => (s.2 == 0, (s.1, s.2 - 1))
  | q => ((World.answerUnder c q s.1).1, ((World.answerUnder c q s.1).2, s.2))

theorem World.answerUntil_of_ne (c : Conditions) {q : Request} (hq : q ≠ .isAborted) (s : World × Nat) :
    World.answerUntil c q s = ((World.answerUnder c q s.1).1, ((World.answerUnder c q s.1).2, s.2)) := by
  cases q with
  | isAborted => exact absurd rfl hq
  | _ => rfl

namespace Procedure

variable {α β : Type}

/-- A procedure never asks whether it is to stop, and it makes no directory. -/
def Heedless : Procedure α → Prop
  | done _ => True
  | ask q next => (q ≠ .isAborted ∧ ∀ path, q ≠ .makeDirectory path) ∧ ∀ answer, (next answer).Heedless

namespace Heedless

theorem pure (a : α) : (Pure.pure a : Procedure α).Heedless := trivial

theorem request {q : Request} (hq : q ≠ .isAborted ∧ ∀ path, q ≠ .makeDirectory path) :
    (Procedure.request q).Heedless := ⟨hq, fun _ => trivial⟩

theorem bind {f : α → Procedure β} : ∀ {x : Procedure α}, x.Heedless → (∀ a, (f a).Heedless) → (x >>= f).Heedless
  | .done a, _, hf => hf a
  | .ask _ _, hx, hf => ⟨hx.1, fun answer => (hx.2 answer).bind hf⟩

theorem each {f : α → Procedure β} (hf : ∀ a, (f a).Heedless) : ∀ as : List α, (Procedure.each f as).Heedless
  | [] => trivial
  | a :: as => (hf a).bind fun _ => (each hf as).bind fun _ => trivial

theorem of_about {path : String} {writes : Bool} {x : Procedure α} (hx : About path writes x) : x.Heedless := by
  induction hx with
  | done a => trivial
  | modified hsame _ ih => exact ⟨by simp, fun t => hsame t ▸ ih⟩
  | read _ ih => exact ⟨by simp, ih⟩
  | judge _ ih => exact ⟨by simp, ih⟩
  | replace _ _ ih => exact ⟨by simp, ih⟩

/-- The order to stop is nothing to it. -/
theorem run_until {x : Procedure α} (hx : x.Heedless) (c : Conditions) (w : World) (n : Nat) :
    x.run (World.answerUntil c) (w, n) =
      ((x.run (World.answerUnder c) w).1, ((x.run (World.answerUnder c) w).2, n)) := by
  induction x generalizing w with
  | done a => rfl
  | ask q next ih =>
    rw [run_ask, run_ask, World.answerUntil_of_ne c hx.1.1]
    exact ih _ (hx.2 _) _

end Heedless

end Procedure

open Procedure (Heedless)

/-! ## Work on a file -/

namespace Cache

theorem heedless_writeIndex (c : Cache) : c.writeIndex.Heedless := (Heedless.request (by simp)).bind fun _ => trivial

theorem heedless_removeBlob (c : Cache) (blob : String) : (c.removeBlob blob).Heedless :=
  (Heedless.request (by simp)).bind fun _ => trivial

theorem heedless_evict (c : Cache) (key : String) : (c.evict key).Heedless := by
  unfold evict
  simp only
  split
  · exact .pure _
  · exact (heedless_removeBlob _ _).bind fun _ => (heedless_writeIndex _).bind fun _ => .pure _

theorem heedless_fetch (c : Cache) (key : String) : (c.fetch key).Heedless := by
  have hdrop : (c.evict key >>= fun c => (pure (none, c) : Procedure (Option Entry × Cache))).Heedless :=
    (c.heedless_evict key).bind fun _ => .pure _
  unfold fetch
  refine (Heedless.request (by simp)).bind fun now => ?_
  cases c.lookUp? now key with
  | some e => exact .pure _
  | none =>
    cases c.index.get? key with
    | none => exact .pure _
    | some row =>
      simp only
      split
      · exact hdrop
      · refine (Heedless.request (by simp)).bind fun read => ?_
        cases read with
        | error f => exact hdrop
        | ok bytes =>
          simp only
          split
          · exact .pure _
          · exact hdrop

theorem heedless_set (c : Cache) (path : String) (modified : Instant) (fingerprint : String) (a : Analysis) :
    (c.set path modified fingerprint a).Heedless := by
  unfold set
  refine (Heedless.request (by simp)).bind fun now => (Heedless.request (by simp)).bind fun fault => ?_
  cases fault with
  | some f => exact .pure _
  | none => exact (heedless_writeIndex _).bind fun _ => .pure _

theorem heedless_purge (c : Cache) : c.purge.Heedless := by
  unfold purge
  refine (Heedless.request (by simp)).bind fun now => ?_
  simp only
  split
  · exact .pure _
  · exact (Heedless.each (fun _ => heedless_removeBlob _ _) _).bind fun _ =>
      (heedless_writeIndex _).bind fun _ => .pure _

theorem heedless_readIndex (directory : String) : (readIndex directory).Heedless :=
  (Heedless.request (by simp)).bind fun read => by cases read <;> exact .pure _

theorem heedless_clear (c : Cache) : c.clear.Heedless := by
  have hindex : (removeIndex c.directory).Heedless := (Heedless.request (by simp)).bind fun there => by
    cases there with
    | false => exact .pure _
    | true => exact (Heedless.request (by simp)).bind fun _ => .pure _
  exact (Heedless.request (by simp)).bind fun _ => (Heedless.each c.heedless_removeBlob _).bind fun _ =>
    hindex.bind fun _ => .pure _

end Cache

namespace Enforcer

theorem heedless_lookUp (e : Enforcer) (path : String) (modified : Option Instant) :
    (e.lookUp path modified).Heedless := by
  unfold lookUp
  split
  · exact (Cache.heedless_fetch _ _).bind fun _ => .pure _
  · exact .pure _

theorem heedless_store (e : Enforcer) (modified : Option Instant) (a : Analysis) : (e.store modified a).Heedless := by
  unfold store
  split
  · split
    · exact .pure _
    · exact (Cache.heedless_set _ _ _ _ _).bind fun _ => .pure _
  · exact .pure _

/-- **Nothing that is done about a file asks whether to stop.** -/
theorem heedless_process (e : Enforcer) (options : RunOptions) (path : String) : (e.process options path).Heedless := by
  unfold process
  refine (Heedless.request (by simp)).bind fun modified => (e.heedless_lookUp path modified).bind fun x => ?_
  obtain ⟨stored, e⟩ := x
  have hfix : ∀ (a : Analysis) (e : Enforcer), (do
      let fix ← if needsFix options a then some <$> e.project.fix path options.dryRun else pure none
      pure ((⟨a, stored.isSome, fix⟩ : FileOutcome), e)).Heedless := by
    intro a e
    simp only
    split
    · exact ((Heedless.of_about (e.project.about_fix path options.dryRun)).bind fun _ => .pure _).bind fun _ => .pure _
    · exact .pure _
  cases stored with
  | some a => exact hfix a e
  | none =>
    refine (Heedless.of_about (e.project.about_analyze path)).bind fun a => ?_
    refine (Heedless.of_about (e.about_checkOnAnalyze path a)).bind fun a => ?_
    exact (e.heedless_store modified a).bind fun e => hfix a e

theorem heedless_processAll (options : RunOptions) : ∀ (files : List String) (e : Enforcer),
    (processAll options e files).Heedless
  | [], _ => .pure _
  | path :: rest, e => (e.heedless_process options path).bind fun x =>
    (heedless_processAll options rest x.2).bind fun _ => .pure _

theorem heedless_filesOf (e : Enforcer) (target : Target) : (e.filesOf target).Heedless := by
  unfold filesOf
  cases target with
  | files paths => exact .pure _
  | matching patterns =>
    simp only
    split
    · exact .pure _
    · refine (Heedless.request (by simp)).bind fun read => ?_
      cases read <;> exact .pure _

/-! ## Opening -/

theorem one_le_concurrency {config : Config} (h : config.check = .ok ()) : 1 ≤ config.concurrency := by
  by_contra hnone
  obtain hzero : config.concurrency = 0 := by omega
  rw [Config.check, hzero] at h
  exact absurd h (by simp [require, bind, Except.bind])

/-- Settings that pass their check are opened, whoever answers. -/
theorem openAt_ok {σ : Type} (answer : (q : Request) → σ → q.Answer × σ) {root : String} {config : Config}
    (hcheck : config.check = .ok ()) (s : σ) :
    ∃ e s', (openAt root config).run answer s = (.ok e, s') ∧ e.project = ⟨root, config⟩ := by
  unfold openAt
  rw [hcheck]
  simp only
  split
  · rw [Procedure.run_bind, Procedure.run_pure]
    exact ⟨_, _, rfl, rfl⟩
  · exact ⟨_, _, rfl, rfl⟩

/-! ## Batches -/

variable (c : Conditions)

theorem run_processAll_append (options : RunOptions) : ∀ (files more : List String) (e : Enforcer) (w : World),
    (processAll options e (files ++ more)).run (World.answerUnder c) w =
      let first := (processAll options e files).run (World.answerUnder c) w
      let rest := (processAll options first.1.2 more).run (World.answerUnder c) first.2
      ((first.1.1 ++ rest.1.1, rest.1.2), rest.2)
  | [], more, e, w => rfl
  | path :: files, more, e, w => by
    simp only [List.cons_append, processAll, Procedure.run_bind, Procedure.run_pure,
      run_processAll_append options files more]

/-- Batches are worked on one after another, until the run is told to stop. -/
theorem run_processBatches (options : RunOptions) : ∀ (all : List (List String)) (n : Nat) (e : Enforcer) (w : World),
    let ran := (processBatches options e all).run (World.answerUntil c) (w, n)
    let worked := (processAll options e (all.take n).flatten).run (World.answerUnder c) w
    ran.1 = (worked.1.1, decide (n < all.length), worked.1.2) ∧ ran.2.1 = worked.2
  | [], n, e, w => by
    rw [List.take_nil]
    exact ⟨rfl, rfl⟩
  | batch :: rest, 0, e, w => ⟨rfl, rfl⟩
  | batch :: rest, n + 1, e, w => by
    have hasked : (Procedure.request .isAborted).run (World.answerUntil c) (w, n + 1) = (false, (w, n)) := rfl
    obtain ⟨hrest, hworld⟩ := run_processBatches options rest n
      ((processAll options e batch).run (World.answerUnder c) w).1.2
      ((processAll options e batch).run (World.answerUnder c) w).2
    simp only [processBatches, Procedure.run_bind, hasked, Bool.false_eq_true, if_false, Procedure.run_pure,
      (heedless_processAll options batch e).run_until, hrest, hworld, List.take_succ_cons, List.flatten_cons,
      run_processAll_append c, List.length_cons, Nat.add_lt_add_iff_right, and_self]

/-- Run in a world in which the run is told to stop after so many batches. -/
def runUntil (e : Enforcer) (n : Nat) (target : Target) (options : RunOptions) (w : World) :
    (Except EnforceFault Outcome × Enforcer) × World :=
  let ran := (e.run target options).run (World.answerUntil c) (w, n)
  (ran.1, ran.2.1)

/-- The files of the first batches come first. -/
theorem flatten_take_batches {size : Nat} (hsize : 1 ≤ size) (files : List String) (n : Nat) :
    ((batches size files).take n).flatten <+: files := by
  refine ⟨((batches size files).drop n).flatten, ?_⟩
  rw [← List.flatten_append, List.take_append_drop, flatten_batches hsize]

/-- **A run works on the files of the batches before it is told to stop.** -/
theorem runUntil_eq (e : Enforcer) (n : Nat) (target : Target) (options : RunOptions) (w : World) :
    e.runUntil c n target options w =
      match ((e.filesOf target).run (World.answerUnder c) w).1 with
      | .error fault => ((.error fault, e), w)
      | .ok files =>
        let all := batches e.project.config.concurrency files
        let worked := (processAll options e (all.take n).flatten).run (World.answerUnder c) w
        let start : Stats :=
          { filesTotal := files.length
            elapsedMs := 1000 * worked.2.now - 1000 * w.now
            aborted := n < all.length }
        ((.ok (.ofFiles start worked.1.1), worked.1.2), worked.2) := by
  have huptime : ∀ s : World × Nat, (Procedure.request .uptime).run (World.answerUntil c) s = (1000 * s.1.now, s) :=
    fun _ => rfl
  have hfiles := (e.heedless_filesOf target).run_until c w n
  rw [run_filesOf_world c e target w] at hfiles
  simp only [runUntil, run, Procedure.run_bind, huptime, hfiles]
  cases ((e.filesOf target).run (World.answerUnder c) w).1 with
  | error fault => rfl
  | ok files =>
    obtain ⟨hran, hworld⟩ := run_processBatches c options (batches e.project.config.concurrency files) n e w
    simp only [Procedure.run_bind, huptime, hran, hworld, Procedure.run_pure]

end Enforcer

end LogHygiene
