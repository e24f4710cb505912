import LogHygiene.Analysis
import LogHygiene.Facts.Extraction
import LogHygiene.Procedure

/-!
# Detection

A file is looked at step by step, and the first step that settles the matter ends it: no grammar reads
it; its family is switched off; it is exempt; it cannot be read; it breaks the grammar. Only then do its
calls count, and of these the ones that no comment silences.

What a readable file is worth is said by `Project.analyzeSource`, a function of its bytes;
`Project.analyze` fetches the bytes.
-/

set_option autoImplicit false

namespace LogHygiene

/-- A directory and the settings under which the files in it are looked at. -/
structure Project where
  root : String
  config : Config
  deriving DecidableEq, Repr, Inhabited

namespace Project

/-- How a file of the project is called in reports. -/
def shown (p : Project) (path : String) : String := Path.relative p.root path

/-- Why a file is exempt, if it is. -/
def exemption? (p : Project) (path : String) : Option Exemption :=
  Exemption.ofPath? p.config p.root path

end Project

namespace FamilySettings

/-- The calls of a file that no comment silences. -/
def activeCalls (s : FamilySettings) (f : ParsedFile) (x : FileFacts) : List CallSite :=
  Suppression.active (Suppression.all f.source s.markers f.tree) x.calls

end FamilySettings

namespace Project

/-- What is reported about a file of a family that was read with its grammar. -/
def analyzeParsed (p : Project) (family : Family) (shown : String) (f : ParsedFile) : Analysis :=
  let x := f.facts
  match x.fault with
  | some at_ => .ofFault shown (some family) (.syntaxError shown at_.start)
  | none =>
    let s := p.config.settings family
    { Analysis.clean shown (some family) with
      violations := ((s.activeCalls f x).map (Violation.ofCall shown s.severity)).mergeSort
        Violation.before
      hasImport := x.logger.hasImport
      hasInstance := x.logger.hasInstance
      loggerNames := x.logger.names }

/-- What is reported about a file with the given bytes. -/
def analyzeSource (p : Project) (path : String) (source : Bytes) : Analysis :=
  let shown := p.shown path
  match ParsedFile.read? path source with
  | none => .ofFault shown none (.noGrammar path)
  | some f => p.analyzeParsed f.grammar.family shown f

/-- Look at a file. -/
def analyze (p : Project) (path : String) : Procedure Analysis :=
  let shown := p.shown path
  match Grammar.ofPath? path with
  | none => pure (.ofFault shown none (.noGrammar path))
  | some g =>
    if !(p.config.settings g.family).enabled then pure (.clean shown (some g.family))
    else match p.exemption? path with
      | some why => pure (.exempt shown g.family why)
      | none => do
        match ← Procedure.request (.read path) with
        | .error fault => pure (.ofFault shown (some g.family) (.unreadable path fault))
        | .ok source => pure (p.analyzeSource path source)

end Project

end LogHygiene
