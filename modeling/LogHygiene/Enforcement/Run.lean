import LogHygiene.Cache.Store
import LogHygiene.Config.Record
import LogHygiene.Enforcement.Outcome
import LogHygiene.Fix.Plan

/-!
# Enforcing the policy over a project

A run takes its files in batches. Before each batch it may be told to stop; a batch that was begun is
finished. For each file it looks for a stored analysis, else analyzes the file and stores the result, and
then fixes the file if that is wanted and there is something to fix.

An analysis is stored only if nothing went wrong, and only under the time at which the file was last
written, asked for before the file was read.
-/

set_option autoImplicit false

namespace LogHygiene

/-- A project whose settings were accepted, with its open store if it has one. -/
structure Enforcer where
  project : Project
  fingerprint : String
  cache : Option Cache
  deriving DecidableEq, Repr, Inhabited

/-- Which files a run is about. -/
inductive Target where
  /-- the files that patterns find; the configured patterns if there are none -/
  | matching (patterns : List String)
  | files (paths : List String)
  deriving DecidableEq, Repr, Inhabited

/-- What a run does about violations. -/
structure RunOptions where
  fix : Bool := false
  /-- work out fixes without writing them -/
  dryRun : Bool := false
  deriving DecidableEq, Repr, Inhabited

/-- Why there is no run. -/
inductive EnforceFault where
  | config (fault : ConfigFault)
  | unlisted (root : String) (fault : FileFault)
  deriving DecidableEq, Repr, Inhabited

/-- The fault in words. -/
def EnforceFault.message : EnforceFault → String
  | config fault => fault.message
  | unlisted root fault =>
    "enumerating files under " ++ root ++ ": IO error for operation on " ++ root ++ ": "
      ++ fault.message

/-! ## Settings of a project -/

namespace Config

/-- The settings in a file. -/
def load (path : String) : Procedure (Except ConfigFault Config) := do
  match ← Procedure.request (.read path) with
  | .error fault => pure (.error (.unreadable path fault.message))
  | .ok bytes =>
    match bytes.text? with
    | none => pure (.error (.unreadable path FileFault.notText.message))
    | some text => pure (ofText path text)

/-- The first of some paths that leads to a file. -/
def firstFile? : List String → Procedure (Option String)
  | [] => pure none
  | path :: rest => do
    if ← Procedure.request (.isFile path) then pure (some path) else firstFile? rest

/-- The settings that a project keeps in its root, or the defaults. -/
def discover (root : String) : Procedure (Except ConfigFault Config) := do
  match ← firstFile? (fileNames.map (Path.join root)) with
  | some path => load path
  | none => pure (default.check.map fun _ => default)

end Config

namespace Enforcer

/-- Accept the settings of a project and open its store. -/
def openAt (root : String) (c : Config) : Procedure (Except EnforceFault Enforcer) := do
  match c.check with
  | .error fault => pure (.error (.config fault))
  | .ok () =>
    let e : Enforcer := ⟨⟨root, c⟩, c.fingerprint, none⟩
    if c.cache.enabled then
      let cache ← Cache.openAt (Path.join root c.cache.directory) c.cache.ttlHours
      pure (.ok { e with cache := some cache })
    else pure (.ok e)

/-- Remove everything that is stored. -/
def clearCache (e : Enforcer) : Procedure Enforcer :=
  match e.cache with
  | none => pure e
  | some cache => do
    let cache ← cache.clear
    pure { e with cache := some cache }

/-- The files that a run is about. -/
def filesOf (e : Enforcer) : Target → Procedure (Except EnforceFault (List String))
  | .files paths => pure (.ok (Selection.explicit e.project.root paths))
  | .matching patterns =>
    match Selection.Selector.ofConfig e.project.root e.project.config patterns with
    | .error fault => pure (.error (.config fault))
    | .ok selector => do
      match ← Procedure.request (.tree selector.root) with
      | .error fault => pure (.error (.unlisted selector.root fault))
      | .ok tree => pure (.ok (selector.collect tree))

/-! ## One file -/

/-- The program that is asked about a file that was only analyzed. -/
def onAnalyze? (e : Enforcer) (a : Analysis) : Option SyntaxCheck := do
  let family ← a.family
  let c ← (e.project.config.settings family).syntaxCheck
  if c.onAnalyze && !a.excluded && !a.hasError then some c else none

/-- Ask the outside program of its family about a file that was analyzed without fault. -/
def checkOnAnalyze (e : Enforcer) (path : String) (a : Analysis) : Procedure Analysis :=
  match e.onAnalyze? a with
  | none => pure a
  | some c => do
    match ← Procedure.request (.read path) with
    | .error fault => pure (a.fail (.unreadable path fault))
    | .ok source =>
      if (source.text?).isNone then pure (a.fail (.unreadable path .notText))
      else
        match c.verdict (← Procedure.request (.judge c source)) with
        | .error fault => pure (a.fail (.rejected fault))
        | .ok () => pure a

/-- The analysis that is stored for a file as it was at a time. -/
def lookUp (e : Enforcer) (path : String) (modified : Option Instant) :
    Procedure (Option Analysis × Enforcer) :=
  match e.cache, modified with
  | some cache, some t => do
    let (entry, cache) ← cache.get (e.project.shown path) t e.fingerprint
    pure (entry.map Cache.Entry.payload, { e with cache := some cache })
  | _, _ => pure (none, e)

/-- Store the analysis of a file as it was at a time, unless something went wrong. -/
def store (e : Enforcer) (modified : Option Instant) (a : Analysis) : Procedure Enforcer :=
  match e.cache, modified with
  | some cache, some t =>
    if a.hasError then pure e
    else do
      let cache ← cache.set a.path t e.fingerprint a
      pure { e with cache := some cache }
  | _, _ => pure e

/-- Whether a file is to be fixed, given its analysis. -/
def needsFix (options : RunOptions) (a : Analysis) : Bool :=
  options.fix && !a.excluded && !a.hasError && !a.violations.isEmpty

/-- Work on one file. -/
def process (e : Enforcer) (options : RunOptions) (path : String) :
    Procedure (FileOutcome × Enforcer) := do
  let modified ← Procedure.request (.modified path)
  let (stored, e) ← e.lookUp path modified
  let (a, e) ← match stored with
    | some a => pure (a, e)
    | none => do
      let a ← e.project.analyze path
      let a ← e.checkOnAnalyze path a
      let e ← e.store modified a
      pure (a, e)
  let fix ← if needsFix options a then some <$> e.project.fix path options.dryRun else pure none
  pure (⟨a, stored.isSome, fix⟩, e)

/-! ## All files -/

/-- Work on the files of a batch, one after another. -/
def processAll (options : RunOptions) :
    Enforcer → List String → Procedure (List FileOutcome × Enforcer)
  | e, [] => pure ([], e)
  | e, path :: rest => do
    let (first, e) ← e.process options path
    let (more, e) ← processAll options e rest
    pure (first :: more, e)

/-- A row cut into pieces of `size`, the last of which may be shorter. `fuel` bounds their number. -/
def batchesOf {α : Type} (size : Nat) : Nat → List α → List (List α)
  | 0, _ => []
  | _ + 1, [] => []
  | fuel + 1, xs => xs.take size :: batchesOf size fuel (xs.drop size)

/-- A row cut into pieces. -/
def batches {α : Type} (size : Nat) (xs : List α) : List (List α) := batchesOf size xs.length xs

/-- Work on batches until none is left or the run is told to stop; answers also whether it was. -/
def processBatches (options : RunOptions) :
    Enforcer → List (List String) → Procedure (List FileOutcome × Bool × Enforcer)
  | e, [] => pure ([], false, e)
  | e, batch :: rest => do
    if ← Procedure.request .isAborted then pure ([], true, e)
    else
      let (here, e) ← processAll options e batch
      let (more, aborted, e) ← processBatches options e rest
      pure (here ++ more, aborted, e)

/-- Enforce the policy. -/
def run (e : Enforcer) (target : Target) (options : RunOptions) :
    Procedure (Except EnforceFault Outcome × Enforcer) := do
  let started ← Procedure.request .uptime
  match ← e.filesOf target with
  | .error fault => pure (.error fault, e)
  | .ok files =>
    let (outcomes, aborted, e) ←
      processBatches options e (batches e.project.config.concurrency files)
    let stopped ← Procedure.request .uptime
    let start : Stats := { filesTotal := files.length, elapsedMs := stopped - started, aborted }
    pure (.ok (.ofFiles start outcomes), e)

end Enforcer

end LogHygiene
