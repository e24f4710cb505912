import LogHygiene.Enforcement.Outcome
import Mathlib.Algebra.BigOperators.Group.List.Basic
import Mathlib.Algebra.GroupWithZero.Nat

/-!
# Counts and what they count

The counts of a report are sums over the files that were looked at: `Stats.Tallies` says which. One file more keeps
them so (`Stats.Tallies.record`), provided that what is reported about it fits together (`FileOutcome.Sane`), and the
report is right about the whole (`Outcome.accounts_ofFiles`).
-/

set_option autoImplicit false

namespace LogHygiene

/-! ## What fits together -/

/-- A file is not both exempt and broken. -/
def Analysis.Sane (a : Analysis) : Prop := a.excluded = true → a.hasError = false

theorem Analysis.Sane.ofFault (shown : String) (family : Option Family) (f : AnalysisFault) :
    (Analysis.ofFault shown family f).Sane := fun h => absurd h (by simp [Analysis.ofFault, clean, fail])

/-- What is reported about a file fits together. -/
structure FileOutcome.Sane (o : FileOutcome) : Prop where
  analysis : o.analysis.Sane
  written : ∀ r, o.fix = some r → r.written = true → r.success = true

/-- How many violations of a file were fixed. -/
def FileOutcome.repaired (o : FileOutcome) : Nat :=
  match o.fix with
  | some r => if r.success && r.written then min o.analysis.violations.length r.callsRewritten else 0
  | none => 0

namespace FileOutcome

variable {o : FileOutcome}

theorem repaired_le (o : FileOutcome) : o.repaired ≤ o.analysis.violations.length := by
  unfold repaired
  split
  · split
    · exact Nat.min_le_left _ _
    · exact Nat.zero_le _
  · exact Nat.zero_le _

/-- Every violation of a file is fixed, if it was written with at least as many calls rewritten. -/
theorem Sane.repaired_eq_iff (h : o.Sane) : o.repaired = o.analysis.violations.length ↔
    (o.analysis.violations ≠ [] →
      ∃ r, o.fix = some r ∧ r.written = true ∧ o.analysis.violations.length ≤ r.callsRewritten) := by
  rw [← List.length_pos_iff]
  cases hfix : o.fix with
  | none =>
    simp only [repaired, hfix, reduceCtorEq, false_and, exists_false, imp_false]
    omega
  | some r =>
    have hwritten := h.written r hfix
    simp only [repaired, hfix, Option.some.injEq, exists_eq_left']
    cases hw : r.written with
    | false =>
      simp only [Bool.and_false, Bool.false_eq_true, if_false, false_and, imp_false]
      omega
    | true =>
      simp only [hwritten hw, Bool.and_true, if_true, true_and]
      omega

end FileOutcome

/-! ## One file more -/

namespace Stats

variable {s : Stats} {a : Analysis} {o : FileOutcome} {done : List FileOutcome}

theorem recordAnalysis_eq (s : Stats) (h : a.Sane) : s.recordAnalysis a =
    { s with
      filesExcluded := s.filesExcluded + if a.excluded then 1 else 0
      filesAnalyzed := s.filesAnalyzed + if !a.excluded && !a.hasError then 1 else 0
      filesErrored := s.filesErrored + if a.hasError then 1 else 0
      filesWithViolations := s.filesWithViolations + if a.violations.isEmpty then 0 else 1
      totalViolations := s.totalViolations + a.violations.length } := by
  unfold recordAnalysis
  cases hviolations : a.violations with
  | nil =>
    cases hx : a.excluded with
    | true => simp [h hx]
    | false => cases a.hasError <;> simp
  | cons v rest =>
    cases hx : a.excluded with
    | true => simp [h hx]
    | false => cases a.hasError <;> simp

theorem recordFix_eq (s : Stats) (n : Nat) (r : FixReport) : s.recordFix n r =
    { s with
      filesErrored := s.filesErrored + if !r.success then 1 else 0
      filesFixed := s.filesFixed + if r.success && r.written then 1 else 0
      violationsFixed := s.violationsFixed + if r.success && r.written then min n r.callsRewritten else 0 } := by
  unfold recordFix
  cases r.success <;> cases r.written <;> simp

/-- The counts are those of the files that were looked at. -/
structure Tallies (s : Stats) (done : List FileOutcome) : Prop where
  excluded : s.filesExcluded = done.countP (·.analysis.excluded)
  analyzed : s.filesAnalyzed = done.countP fun o => !o.analysis.excluded && !o.analysis.hasError
  errored : s.filesErrored =
    done.countP (·.analysis.hasError) + (done.filterMap FileOutcome.fix).countP (!·.success)
  total : s.totalViolations = (done.map (·.analysis.violations.length)).sum
  fixed : s.violationsFixed = (done.map FileOutcome.repaired).sum

namespace Tallies

theorem record (h : s.Tallies done) (hsane : o.Sane) : (s.record o).Tallies (done ++ [o]) := by
  obtain ⟨hexcluded, hanalyzed, herrored, htotal, hfixed⟩ := h
  have hhit : ∀ s : Stats, (if o.fromStore then { s with cacheHits := s.cacheHits + 1 } else s) =
      { s with cacheHits := s.cacheHits + if o.fromStore then 1 else 0 } := by
    intro s
    split <;> rfl
  unfold Stats.record
  simp only [hhit, recordAnalysis_eq _ hsane.analysis]
  cases hfix : o.fix with
  | none =>
    have hrepaired : o.repaired = 0 := by rw [FileOutcome.repaired, hfix]
    constructor <;> simp [hfix, hrepaired, hexcluded, hanalyzed, herrored, htotal, hfixed, List.countP_append,
      List.countP_singleton]
    omega
  | some r =>
    have hrepaired : o.repaired =
        if r.success && r.written then min o.analysis.violations.length r.callsRewritten else 0 := by
      rw [FileOutcome.repaired, hfix]
    simp only [recordFix_eq]
    constructor <;> simp [hfix, hrepaired, hexcluded, hanalyzed, herrored, htotal, hfixed, List.countP_append,
      List.countP_singleton]
    omega

theorem foldl_record : ∀ {more done : List FileOutcome} {s : Stats}, s.Tallies done → (∀ o ∈ more, o.Sane) →
    (more.foldl Stats.record s).Tallies (done ++ more)
  | [], done, s, h, _ => by rwa [List.append_nil]
  | o :: more, done, s, h, hsane => by
    have hmore : (more.foldl Stats.record (s.record o)).Tallies (done ++ [o] ++ more) :=
      foldl_record (h.record (hsane o (by simp))) fun o' ho' => hsane o' (by simp [ho'])
    rwa [List.append_assoc] at hmore

end Tallies

theorem aborted_record (s : Stats) (o : FileOutcome) : (s.record o).aborted = s.aborted := by
  unfold record recordAnalysis recordFix
  simp only
  repeat' split
  all_goals rfl

theorem aborted_foldl_record : ∀ (done : List FileOutcome) (s : Stats), (done.foldl record s).aborted = s.aborted
  | [], _ => rfl
  | o :: done, s => (aborted_foldl_record done (s.record o)).trans (s.aborted_record o)

end Stats

/-! ## The whole -/

/-- Of files that are not both, each is exempt, broken or neither. -/
theorem countP_sane {done : List FileOutcome} (h : ∀ o ∈ done, o.Sane) :
    done.countP (·.analysis.excluded) + done.countP (fun o => !o.analysis.excluded && !o.analysis.hasError) +
      done.countP (·.analysis.hasError) = done.length := by
  induction done with
  | nil => rfl
  | cons o done ih =>
    have hrest := ih fun o' ho' => h o' (by simp [ho'])
    have hsane := (h o (by simp)).analysis
    simp only [List.countP_cons, List.length_cons]
    cases hx : o.analysis.excluded with
    | true =>
      simp only [hsane hx, Bool.not_true, Bool.not_false, Bool.false_and, if_true, Bool.false_eq_true, if_false]
      omega
    | false =>
      cases o.analysis.hasError <;>
        simp only [Bool.not_true, Bool.not_false, Bool.and_self, Bool.and_false, if_true, Bool.false_eq_true, if_false] <;>
        omega

/-- Where no summand is greater, neither is the sum, and it is no smaller only if every summand is the same. -/
theorem sum_le_sum_iff {α : Type} {f g : α → Nat} (hle : ∀ x, f x ≤ g x) (l : List α) :
    (l.map f).sum ≤ (l.map g).sum ∧ ((l.map g).sum ≤ (l.map f).sum ↔ ∀ x ∈ l, f x = g x) := by
  induction l with
  | nil => simp
  | cons x l ih =>
    obtain ⟨hsum, hiff⟩ := ih
    have hx := hle x
    simp only [List.map_cons, List.sum_cons, List.forall_mem_cons, ← hiff]
    omega

namespace Outcome

/-- A report accounts for the files that were looked at. -/
structure Accounts (o : Outcome) (done : List FileOutcome) : Prop where
  results : o.results.Perm (done.map FileOutcome.analysis)
  fixes : o.fixes.Perm (done.filterMap FileOutcome.fix)
  /-- each file is exempt, analyzed or broken -/
  files : o.stats.filesExcluded + o.stats.filesAnalyzed + o.results.countP Analysis.hasError = o.results.length
  errored : o.stats.filesErrored = o.results.countP Analysis.hasError + o.fixes.countP (!·.success)
  total : o.stats.totalViolations = o.violations.length
  violations : o.violations.length = (o.results.map (·.violations.length)).sum
  fixed : o.stats.violationsFixed ≤ o.stats.totalViolations
  success : o.success = true ↔ ∀ x ∈ done, x.analysis.violations ≠ [] →
    ∃ r, x.fix = some r ∧ r.written = true ∧ x.analysis.violations.length ≤ r.callsRewritten

/-- **A report accounts for its files.** -/
theorem accounts_ofFiles {start : Stats} {done : List FileOutcome} (hstart : start.Tallies [])
    (hsane : ∀ o ∈ done, o.Sane) : (ofFiles start done).Accounts done := by
  obtain ⟨hexcluded, hanalyzed, herrored, htotal, hfixed⟩ := hstart.foldl_record hsane
  rw [List.nil_append] at hexcluded hanalyzed herrored htotal hfixed
  have hresults : (ofFiles start done).results.Perm (done.map FileOutcome.analysis) := List.mergeSort_perm _ _
  have hfixes : (ofFiles start done).fixes.Perm (done.filterMap FileOutcome.fix) := List.mergeSort_perm _ _
  have hbroken : (ofFiles start done).results.countP Analysis.hasError = done.countP (·.analysis.hasError) := by
    rw [hresults.countP_eq, List.countP_map]
    rfl
  have hviolations : (ofFiles start done).violations.length =
      ((ofFiles start done).results.map (·.violations.length)).sum := List.length_flatMap
  have hsum : ((ofFiles start done).results.map (·.violations.length)).sum =
      (done.map (·.analysis.violations.length)).sum := by
    rw [(hresults.map _).sum_eq, List.map_map]
    rfl
  obtain ⟨hle, hiff⟩ := sum_le_sum_iff FileOutcome.repaired_le done
  refine ⟨hresults, hfixes, ?_, ?_, ?_, hviolations, ?_, ?_⟩
  · rw [hbroken, hresults.length_eq, List.length_map, ← countP_sane hsane]
    exact congrArg (· + _) (congrArg₂ _ hexcluded hanalyzed)
  · rw [hbroken, hfixes.countP_eq]
    exact herrored
  · rw [hviolations, hsum]
    exact htotal
  · exact htotal ▸ hfixed ▸ hle
  · have hsuccess : (ofFiles start done).success = true ↔
        (done.map (·.analysis.violations.length)).sum ≤ (done.map FileOutcome.repaired).sum := by
      rw [ofFiles, beq_iff_eq, Nat.sub_eq_zero_iff_le, htotal, hfixed]
    rw [hsuccess, hiff]
    exact forall₂_congr fun x hx => (hsane x hx).repaired_eq_iff

end Outcome

end LogHygiene
