import LogHygiene.Config.Settings
import LogHygiene.Disk.Fault
import LogHygiene.Text.Blank
import LogHygiene.Text.Utf8

/-!
# What an outside program says about a text

The program accepts a text by leaving with status zero before its time is up. Everything else is a
refusal, and the report names the command, how it ended and the start of what it complained about.
-/

set_option autoImplicit false

namespace LogHygiene

/-- How a program ended. -/
inductive Ending where
  | status (code : Nat)
  | signal (number : Nat)
  deriving DecidableEq, Repr, Inhabited

namespace Ending

/-- The names of the signals, from number one upwards. -/
def signalNames : List String :=
  ["SIGHUP", "SIGINT", "SIGQUIT", "SIGILL", "SIGTRAP", "SIGABRT", "SIGBUS", "SIGFPE", "SIGKILL",
   "SIGUSR1", "SIGSEGV", "SIGUSR2", "SIGPIPE", "SIGALRM", "SIGTERM", "SIGSTKFLT", "SIGCHLD",
   "SIGCONT", "SIGSTOP", "SIGTSTP", "SIGTTIN", "SIGTTOU", "SIGURG", "SIGXCPU", "SIGXFSZ",
   "SIGVTALRM", "SIGPROF", "SIGWINCH", "SIGIO", "SIGPWR", "SIGSYS"]

/-- The ending in words. -/
def words : Ending → String
  | status code => "exit status: " ++ toString code
  | signal n =>
    "signal: " ++ toString n ++
      (match signalNames[n - 1]? with
        | some name => " (" ++ name ++ ")"
        | none => "")

end Ending

/-- What a program that was started did. -/
structure ProgramRun where
  ending : Ending
  complaint : Bytes
  deriving DecidableEq, Repr, Inhabited

/-- How an attempt to run a program went. -/
inductive Attempt where
  | finished (run : ProgramRun)
  | notStarted (fault : FileFault)
  | outOfTime
  | cutOff (fault : FileFault)
  deriving DecidableEq, Repr, Inhabited

/-- Why a text is not accepted. -/
inductive CheckFault where
  | notStarted (command : String) (fault : FileFault)
  | outOfTime (command : String) (timeoutMs : Nat)
  | refused (command : String) (ending : Ending) (complaint : String)
  | cutOff (command : String) (fault : FileFault)
  deriving DecidableEq, Repr, Inhabited

namespace SyntaxCheck

/-- A command and its arguments as one line. -/
def line (c : SyntaxCheck) : String := " ".intercalate (c.command :: c.args)

/-- How many characters of a complaint are reported. -/
def maxComplaint : Nat := 500

/-- The start of a text, with dots behind it if it is cut. -/
def shorten (limit : Nat) (cs : List Char) : List Char :=
  if cs.length ≤ limit then cs else cs.take limit ++ "...".toList

/-- A complaint as it is reported. -/
def complaintText (complaint : Bytes) : String :=
  String.ofList (shorten maxComplaint
    (Text.trimWhile Text.isBlank (complaint.glyphs.map Glyph.char)))

/-- What an attempt to run the program says about the text it was given. -/
def verdict (c : SyntaxCheck) : Attempt → Except CheckFault Unit
  | .notStarted fault => .error (.notStarted c.line fault)
  | .outOfTime => .error (.outOfTime c.line c.timeoutMs)
  | .cutOff fault => .error (.cutOff c.line fault)
  | .finished run =>
    if run.ending == .status 0 then .ok ()
    else .error (.refused c.line run.ending (complaintText run.complaint))

end SyntaxCheck

/-- A number of milliseconds in words: seconds with the digits they need from one second upwards. -/
def millisecondsWords (ms : Nat) : String :=
  if ms < 1000 then toString ms ++ "ms"
  else
    let digits := (toString (1000 + ms % 1000)).toList.drop 1
    let kept := (digits.reverse.dropWhile (· == '0')).reverse
    toString (ms / 1000) ++ (if kept.isEmpty then "" else "." ++ String.ofList kept) ++ "s"

/-- The fault in words. -/
def CheckFault.message : CheckFault → String
  | notStarted command fault => "failed to start " ++ command ++ ": " ++ fault.message
  | outOfTime command ms => command ++ " timed out after " ++ millisecondsWords ms
  | refused command ending complaint =>
    command ++ " exited with " ++ ending.words ++ ": " ++ complaint
  | cutOff command fault => "i/o error talking to " ++ command ++ ": " ++ fault.message

end LogHygiene
