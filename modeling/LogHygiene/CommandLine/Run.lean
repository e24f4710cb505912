import LogHygiene.CommandLine.Options
import LogHygiene.Enforcement.Run

/-!
# A run from the command line

The outcome goes to the output as JSON, or to a file; one line that sums it up goes to where complaints
go. The exit code says whether violations are left, or that there was no run at all. Only one thing ends
a run without an exit code: that the outcome cannot be written where it was asked for.
-/

set_option autoImplicit false

namespace LogHygiene.CommandLine

/-- What a run leaves behind: what it showed, and its exit code or what ended it. -/
structure Transcript where
  output : String := ""
  complaints : String := ""
  ending : Except FileFault Nat
  deriving Inhabited

/-- No violation is left. -/
def exitSuccess : Nat := 0

/-- Violations are left. -/
def exitFailed : Nat := 1

/-- There was no run. -/
def exitError : Nat := 2

/-! ## The line that sums up -/

/-- How a piece of the summary stands out. -/
inductive Accent where
  | title
  | good
  | bad
  | warning
  | strong

/-- The terminal code of an accent. -/
def Accent.code : Accent → String
  | title => "1;36"
  | good => "32"
  | bad => "31"
  | warning => "33"
  | strong => "1"

/-- A piece of the summary; codes are written only on request. -/
def accented (color : Bool) (a : Accent) (text : String) : String :=
  if color then "\x1b[" ++ a.code ++ "m" ++ text ++ "\x1b[0m" else text

/-- A noun behind a number. -/
def counted (n : Nat) (noun : String) : String := if n == 1 then noun else noun ++ "s"

/-- A run in one line. -/
def summary (color : Bool) (o : Outcome) : String :=
  let s := o.stats
  let paint := accented color
  paint .title "logsweep" ++ " " ++
    (if o.success then paint .good "✓ PASS" else paint .bad "✗ FAIL") ++ " " ++
    paint .strong (toString s.totalViolations) ++ " " ++ counted s.totalViolations "violation" ++
    " in " ++ toString s.filesTotal ++ " " ++ counted s.filesTotal "file" ++
    (if s.violationsFixed > 0 then ", " ++ paint .good (toString s.violationsFixed) ++ " fixed"
      else "") ++
    (if s.filesErrored > 0 then ", " ++ paint .warning (toString s.filesErrored) ++ " errored"
      else "") ++
    (if s.aborted then ", " ++ paint .bad "aborted" else "") ++
    " (" ++ toString s.elapsedMs ++ " ms)"

/-! ## The run -/

/-- There was no run, and this is why. -/
def refused (why : String) : Transcript :=
  { complaints := "Error: " ++ why ++ "\n", ending := .ok exitError }

/-- Show an outcome, or write it to the file that was asked for. -/
def present (o : Options) (color : Bool) (outcome : Outcome) : Procedure Transcript := do
  let text := outcome.toJson.pretty ++ "\n"
  let done (output : String) : Transcript :=
    { output, complaints := summary color outcome ++ "\n"
      ending := .ok (if outcome.success then exitSuccess else exitFailed) }
  match o.output with
  | none => pure (done text)
  | some path =>
    match ← Procedure.request (.overwrite path (Bytes.ofText text)) with
    | some fault => pure { ending := .error fault }
    | none => pure (done "")

/-- Do what a command line asks for. -/
def run (o : Options) (color : Bool) : Procedure Transcript := do
  match ← Procedure.request (.canonical o.root) with
  | .error fault =>
    pure (refused ("cannot access root " ++ Text.quoted o.root ++ ": " ++ fault.message))
  | .ok root =>
    match ← (match o.config with
      | some path => Config.load path
      | none => Config.discover root) with
    | .error fault => pure (refused fault.message)
    | .ok config =>
      match ← Enforcer.openAt root config with
      | .error fault => pure (refused fault.message)
      | .ok e =>
        let e ← if o.clearCache then e.clearCache else pure e
        match ← e.run (.matching o.patterns) ⟨o.wantsFixes, o.dryRun⟩ with
        | (.error fault, _) => pure (refused fault.message)
        | (.ok outcome, _) => present o color outcome

end LogHygiene.CommandLine
