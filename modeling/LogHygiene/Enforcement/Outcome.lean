import LogHygiene.Fix.Change

/-!
# What a run reports

A run looks at files one by one, and what it says in the end is a sum over them. `Stats.record` adds one
file; nothing else ever counts anything, so every number in a report is a fold over the files of the
run.
-/

set_option autoImplicit false

namespace LogHygiene

/-- What a run did with one file. -/
structure FileOutcome where
  analysis : Analysis
  /-- the analysis was stored by an earlier run -/
  fromStore : Bool
  fix : Option FixReport
  deriving DecidableEq, Repr, Inhabited

/-- The counts of a run. -/
structure Stats where
  filesTotal : Nat := 0
  filesAnalyzed : Nat := 0
  filesExcluded : Nat := 0
  filesWithViolations : Nat := 0
  filesErrored : Nat := 0
  filesFixed : Nat := 0
  totalViolations : Nat := 0
  violationsFixed : Nat := 0
  cacheHits : Nat := 0
  elapsedMs : Nat := 0
  /-- the run was stopped before all files were looked at -/
  aborted : Bool := false
  deriving DecidableEq, Repr, Inhabited

namespace Stats

/-- Count the analysis of a file. -/
def recordAnalysis (s : Stats) (a : Analysis) : Stats :=
  let s :=
    if a.excluded then { s with filesExcluded := s.filesExcluded + 1 }
    else if a.hasError then { s with filesErrored := s.filesErrored + 1 }
    else { s with filesAnalyzed := s.filesAnalyzed + 1 }
  if a.violations.isEmpty then s
  else { s with
    filesWithViolations := s.filesWithViolations + 1
    totalViolations := s.totalViolations + a.violations.length }

/-- Count the fix of a file that had so many violations. Every violation of a file that was written is
one of the calls that were rewritten. -/
def recordFix (s : Stats) (violations : Nat) (r : FixReport) : Stats :=
  if !r.success then { s with filesErrored := s.filesErrored + 1 }
  else if r.written then { s with
    filesFixed := s.filesFixed + 1
    violationsFixed := s.violationsFixed + min violations r.callsRewritten }
  else s

/-- Count a file. -/
def record (s : Stats) (o : FileOutcome) : Stats :=
  let s := if o.fromStore then { s with cacheHits := s.cacheHits + 1 } else s
  let s := s.recordAnalysis o.analysis
  match o.fix with
  | some r => s.recordFix o.analysis.violations.length r
  | none => s

/-- The record of the counts. -/
def toJson (s : Stats) : Json :=
  .obj
    [("files_total", .nat s.filesTotal), ("files_analyzed", .nat s.filesAnalyzed),
     ("files_excluded", .nat s.filesExcluded),
     ("files_with_violations", .nat s.filesWithViolations),
     ("files_errored", .nat s.filesErrored), ("files_fixed", .nat s.filesFixed),
     ("total_violations", .nat s.totalViolations), ("violations_fixed", .nat s.violationsFixed),
     ("cache_hits", .nat s.cacheHits), ("elapsed_ms", .nat s.elapsedMs),
     ("aborted", .bool s.aborted)]

end Stats

/-- What a run reports. -/
structure Outcome where
  /-- no violation is left -/
  success : Bool
  results : List Analysis
  violations : List Violation
  fixes : List FixReport
  stats : Stats
  deriving DecidableEq, Repr, Inhabited

namespace Outcome

/-- The report over files that were looked at, given the counts that do not depend on them. -/
def ofFiles (start : Stats) (files : List FileOutcome) : Outcome :=
  let stats := files.foldl Stats.record start
  let results := (files.map FileOutcome.analysis).mergeSort fun a b => a.path ≤ b.path
  { success := stats.totalViolations - stats.violationsFixed == 0
    results
    violations := results.flatMap Analysis.violations
    fixes := (files.filterMap FileOutcome.fix).mergeSort fun a b => a.path ≤ b.path
    stats }

/-- The record of a report. -/
def toJson (o : Outcome) : Json :=
  .obj
    [("success", .bool o.success), ("results", .arr (o.results.map Analysis.toJson)),
     ("violations", .arr (o.violations.map Violation.toJson)),
     ("fixes", .arr (o.fixes.map FixReport.toJson)), ("stats", o.stats.toJson)]

end Outcome

end LogHygiene
