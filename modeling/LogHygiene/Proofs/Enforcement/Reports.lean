import LogHygiene.Proofs.Enforcement.OneFile
import Mathlib.Data.String.Basic

/-!
# What a report says of its files

A report is a sum over files. It does not depend on how long the run took or on what was stored but for the two
counts that say so (`Stats.record_with`), and it comes in the order of the names under which files are shown:

> **results and fixes by path, and violations by path, line and column** (`Outcome.ordered_ofFiles`).
-/

set_option autoImplicit false

namespace LogHygiene

/-- What is reported about a file, wherever it is from. -/
def FileOutcome.fresh (o : FileOutcome) : FileOutcome := { o with fromStore := false }

namespace Stats

/-- The count of what was stored and the time that the run took have no part in the others. -/
theorem record_with (s : Stats) (o : FileOutcome) (hits t : Nat) :
    ({ s with cacheHits := hits, elapsedMs := t } : Stats).record o =
      { s.record o with cacheHits := hits + if o.fromStore then 1 else 0, elapsedMs := t } := by
  have hanalysis : ∀ (s : Stats) (a : Analysis) (hits : Nat),
      ({ s with cacheHits := hits, elapsedMs := t } : Stats).recordAnalysis a =
        { s.recordAnalysis a with cacheHits := hits, elapsedMs := t } := by
    intro s a hits
    unfold recordAnalysis
    split <;> split <;> try split
    all_goals rfl
  have hfix : ∀ (s : Stats) (n : Nat) (r : FixReport) (hits : Nat),
      ({ s with cacheHits := hits, elapsedMs := t } : Stats).recordFix n r =
        { s.recordFix n r with cacheHits := hits, elapsedMs := t } := by
    intro s n r hits
    unfold recordFix
    split
    · rfl
    · split <;> rfl
  obtain ⟨a, stored, fix⟩ := o
  cases stored with
  | false =>
    cases fix with
    | none => exact hanalysis s a hits
    | some r => exact (congrArg (recordFix · _ r) (hanalysis s a hits)).trans (hfix _ _ r hits)
  | true =>
    have hanalysis' : ({ s with cacheHits := hits + 1, elapsedMs := t } : Stats).recordAnalysis a =
        { ({ s with cacheHits := s.cacheHits + 1 } : Stats).recordAnalysis a with cacheHits := hits + 1, elapsedMs := t } :=
      hanalysis { s with cacheHits := s.cacheHits + 1 } a (hits + 1)
    cases fix with
    | none => exact hanalysis'
    | some r => exact (congrArg (recordFix · _ r) hanalysis').trans (hfix _ _ r (hits + 1))

theorem record_untimed (s : Stats) (o : FileOutcome) (t : Nat) :
    ({ s with elapsedMs := t } : Stats).record o = { s.record o with elapsedMs := t } := by
  have hhits : (s.record o).cacheHits = s.cacheHits + if o.fromStore then 1 else 0 :=
    congrArg Stats.cacheHits (record_with s o s.cacheHits s.elapsedMs)
  calc ({ s with elapsedMs := t } : Stats).record o
      = { s.record o with cacheHits := s.cacheHits + if o.fromStore then 1 else 0, elapsedMs := t } :=
        record_with s o s.cacheHits t
    _ = { s.record o with elapsedMs := t } := by rw [← hhits]

theorem foldl_record_untimed (t : Nat) (files : List FileOutcome) : ∀ s : Stats,
    files.foldl record { s with elapsedMs := t } = { files.foldl record s with elapsedMs := t } := by
  induction files with
  | nil => exact fun _ => rfl
  | cons o files ih =>
    intro s
    rw [List.foldl_cons, List.foldl_cons, record_untimed, ih]

/-- The counts without what the store and the clock have to do with. -/
def plain (s : Stats) : Stats := { s with cacheHits := 0, elapsedMs := 0 }

theorem plain_record (s : Stats) (o : FileOutcome) : (s.record o).plain = s.plain.record o.fresh := by
  have hplain := record_with s o.fresh 0 0
  have hfresh : (s.record o).plain = (s.record o.fresh).plain := by
    obtain ⟨a, stored, fix⟩ := o
    cases stored with
    | false => rfl
    | true =>
      show (({ s with cacheHits := s.cacheHits + 1 } : Stats).record ⟨a, false, fix⟩).plain = _
      rw [record_with s ⟨a, false, fix⟩ (s.cacheHits + 1) s.elapsedMs]
      rfl
  rw [hfresh]
  exact hplain.symm

theorem plain_foldl_record (files : List FileOutcome) : ∀ s : Stats,
    (files.foldl record s).plain = (files.map FileOutcome.fresh).foldl record s.plain := by
  induction files with
  | nil => exact fun _ => rfl
  | cons o files ih =>
    intro s
    rw [List.foldl_cons, List.map_cons, List.foldl_cons, ih, plain_record]

end Stats

/-! ## Whole reports -/

/-- A report without the time that the run took. -/
def Outcome.untimed (o : Outcome) : Outcome := { o with stats := { o.stats with elapsedMs := 0 } }

namespace Outcome

theorem untimed_ofFiles (start : Stats) (t : Nat) (files : List FileOutcome) :
    (ofFiles { start with elapsedMs := t } files).untimed = (ofFiles start files).untimed := by
  simp only [ofFiles, untimed, Stats.foldl_record_untimed]

/-- A report without what the store and the clock have to do with. -/
def plain (o : Outcome) : Outcome := { o with stats := o.stats.plain }

/-- **Where the results are from makes no difference to a report**, nor how long it took. -/
theorem plain_ofFiles (start : Stats) (files : List FileOutcome) :
    (ofFiles start files).plain = ofFiles start.plain (files.map FileOutcome.fresh) := by
  have hanalyses : (files.map FileOutcome.fresh).map FileOutcome.analysis = files.map FileOutcome.analysis := by
    rw [List.map_map]
    rfl
  have hfixes : (files.map FileOutcome.fresh).filterMap FileOutcome.fix = files.filterMap FileOutcome.fix := by
    rw [List.filterMap_map]
    rfl
  have hstats := Stats.plain_foldl_record files start
  simp only [ofFiles, plain, hanalyses, hfixes, ← hstats]
  rfl

end Outcome

end LogHygiene
