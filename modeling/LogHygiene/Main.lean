import LogHygiene.CommandLine.Run
import LogHygiene.Json.Reader
import LogHygiene.World

/-!
# The command

The words behind the command say what to do (`CommandLine.Options`). The project comes on standard
input: a JSON object from paths to texts, which becomes the disk of a `World`. What the run shows goes to
standard output, what it complains of to standard error, and the exit code is that of the run.

**No file is touched.** A run is carried out in a world made of values, and what fixes would write is
part of the outcome that it shows. So the command can be tried on any project, and does the same each
time.
-/

set_option autoImplicit false

namespace LogHygiene.CommandLine

/-- Why a command line asks for no run, in words. -/
def Refusal.message : Refusal → String
  | missingValue => "an option lacks its value"
  | repeated => "an option is given twice"
  | unknownOption => "there is no such option"
  | unneededValue => "an option takes no value"
  | help => "usage: logsweep [--fix] [--dry-run] [--clear-cache] [-v] [--root R] [-c FILE] [-o FILE] [PATTERN]..."
  | version => "logsweep"

/-- A disk with the files of a project in its top directory. Fields that hold no text are no files. -/
def projectDisk (fields : List (String × Json)) : Disk :=
  fields.foldl (fun d (path, value) =>
    match value with
    | .str text =>
      let parent := "/".intercalate (Path.parts path).dropLast
      let d := (if parent == "" then .ok d else d.makeDirectory parent).toOption.getD d
      (d.overwrite path (Bytes.ofText text)).toOption.getD d
    | _ => d) {}

/-- The world in which a run on a project is carried out, if the text describes a project. -/
def projectWorld? (text : String) : Option World :=
  match Json.ofText? text with
  | some (.obj fields) => some { disk := projectDisk fields }
  | _ => none

/-- All lines of an input, behind those read before. -/
partial def readLines (input : IO.FS.Stream) (before : String) : IO String := do
  let line ← input.getLine
  if line == "" then pure before else readLines input (before ++ line)

/-- Show what a run left behind. -/
def Transcript.report (t : Transcript) : IO UInt32 := do
  (← IO.getStdout).putStr t.output
  (← IO.getStderr).putStr t.complaints
  match t.ending with
  | .ok code => pure (UInt32.ofNat code)
  | .error fault => do
    IO.eprintln s!"Error: {fault.message}"
    pure (UInt32.ofNat exitError)

/-- Carry out what the words of a command line ask for. -/
def execute (words : List String) : IO UInt32 := do
  match Options.ofWords words with
  | .error refusal => do
    IO.eprintln refusal.message
    pure (if refusal == .help || refusal == .version then 0 else UInt32.ofNat exitError)
  | .ok options =>
    match projectWorld? (← readLines (← IO.getStdin) "") with
    | none => (refused "standard input holds no project").report
    | some world => (world.carryOut (run options false)).1.report

end LogHygiene.CommandLine

/-- The command. -/
def main (words : List String) : IO UInt32 := LogHygiene.CommandLine.execute words
