import LogHygiene.Detection
import LogHygiene.Fix.Rewrite

/-!
# Fixing a file

A fix trusts nothing that was found earlier: the file is read again, rewritten in memory and **read
once more in its new form**, and only a text that the grammar accepts is ever written. Planning does all
of this and touches nothing; applying a plan asks the outside program of the family, if there is one, and
writes.

`Project.planSource` says what a readable file is turned into, as a function of its bytes.
-/

set_option autoImplicit false

namespace LogHygiene

/-- A fix that was worked out but not carried out. -/
structure FixPlan where
  path : String
  /-- the program that has to accept the fixed text -/
  check : Option SyntaxCheck
  report : FixReport
  deriving DecidableEq, Repr, Inhabited

namespace FixPlan

/-- A plan to do nothing, for the reason that the report gives. -/
def idle (path : String) (report : FixReport) : FixPlan := ⟨path, none, report⟩

end FixPlan

namespace Project

/-- The first call that runs before a logger that has to be set up, if the file has none. -/
def earlyCall? (x : FileFacts) (calls : List CallSite) : Option CallSite :=
  if x.logger.preferred?.isSome then none
  else calls.find? (·.call.start.byte < x.insertion.byte)

/-- The fixed text of a file and its changes. -/
def fixParsed (p : Project) (shown : String) (f : ParsedFile) : Except FixFault (Bytes × List Change) := do
  let family := f.grammar.family
  let s := p.config.settings family
  let x := f.facts
  if let some at_ := x.fault then throw (.syntaxError shown at_.start)
  let calls := s.activeCalls f x
  if calls.isEmpty then return (f.source, [])
  if let some c := earlyCall? x calls then
    throw (.callTooEarly shown c.call.start x.insertion.line)
  let r := Rewrite.plan shown family s x calls
  let fixed ← (Edit.applyAll f.source r.edits).mapError .edits
  match (ParsedFile.read? f.path fixed).bind (·.facts.fault) with
  | some at_ => throw (.brokenResult shown at_.start)
  | none => pure (fixed, r.changes)

/-- The plan for a file with the given bytes. -/
def planSource (p : Project) (path : String) (original : Bytes) : FixPlan :=
  let shown := p.shown path
  match ParsedFile.read? path original with
  | none => .idle path (.failed shown (.noGrammar path))
  | some f =>
    if (original.text?).isNone then .idle path (.failed shown (.notText path))
    else
      let r := FixReport.unchanged shown original
      match p.fixParsed shown f with
      | .error fault => .idle path (r.fail fault)
      | .ok (_, []) => .idle path r
      | .ok (fixed, changes) =>
        ⟨path, (p.config.settings f.grammar.family).syntaxCheck, { r with fixed, changes }⟩

/-- Work out how to fix a file. -/
def plan (p : Project) (path : String) : Procedure FixPlan :=
  let shown := p.shown path
  match Grammar.ofPath? path with
  | none => pure (.idle path (.failed shown (.noGrammar path)))
  | some g =>
    let s := p.config.settings g.family
    if !s.enabled || !s.autoFix || (p.exemption? path).isSome then
      pure (.idle path (.unchanged shown []))
    else do
      match ← Procedure.request (.read path) with
      | .error fault => pure (.idle path (.failed shown (.unreadable path fault)))
      | .ok original => pure (p.planSource path original)

end Project

namespace FixPlan

/-- Ask the program of the plan about the fixed text. -/
def verdict (plan : FixPlan) : Procedure (Except CheckFault Unit) :=
  match plan.check with
  | none => pure (.ok ())
  | some c => do
    let attempt ← Procedure.request (.judge c plan.report.fixed)
    pure (c.verdict attempt)

/-- Carry a plan out. A dry run does everything but write. -/
def apply (plan : FixPlan) (dryRun : Bool) : Procedure FixReport := do
  let r := plan.report
  if !r.success || !r.hasChanges then return r
  match ← plan.verdict with
  | .error fault => return r.fail (.rejected fault)
  | .ok () =>
    if dryRun then return r
    match ← Procedure.request (.replace plan.path r.fixed) with
    | some fault => return r.fail (.unwritable plan.path fault)
    | none => return { r with written := true }

end FixPlan

namespace Project

/-- Fix a file. -/
def fix (p : Project) (path : String) (dryRun : Bool) : Procedure FixReport := do
  let plan ← p.plan path
  plan.apply dryRun

end Project

end LogHygiene
