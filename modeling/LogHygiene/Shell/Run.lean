import LogHygiene.Shell.Script
import LogHygiene.SyntaxCheck.Verdict
import LogHygiene.Text.Utf8

/-!
# What a shell does

Running a script turns what can be read into what is written, takes time, and ends in a number or by a
signal. The commands are the few that checks use; a command that is none of them is reported as not
found, as a shell does.
-/

set_option autoImplicit false

namespace LogHygiene.Shell

/-- A shell at work. -/
structure Session where
  input : Bytes := []
  output : Bytes := []
  complaint : Bytes := []
  /-- milliseconds spent asleep -/
  elapsed : Nat := 0
  /-- how the last command ended -/
  status : Nat := 0
  /-- how the shell ended, if it did -/
  ended : Option Ending := none
  deriving DecidableEq, Repr, Inhabited

/-- Where the two things that are written go. -/
structure Sinks where
  output : Sink := .output
  complaint : Sink := .complaint
  deriving DecidableEq, Repr, Inhabited

namespace Sinks

/-- Send something elsewhere. -/
def redirect (s : Sinks) (r : Redirect) : Sinks :=
  let target := match r.sink with
    | .output => s.output
    | .complaint => s.complaint
    | .nowhere => .nowhere
  if r.isComplaint then { s with complaint := target } else { s with output := target }

end Sinks

/-- The number of the shell that runs the whole script. -/
def processNumber : String := "4242"

namespace Session

/-- Write to a sink. -/
def write (s : Session) (sink : Sink) (bytes : Bytes) : Session :=
  match sink with
  | .output => { s with output := s.output ++ bytes }
  | .complaint => { s with complaint := s.complaint ++ bytes }
  | .nowhere => s

/-- End a command with a number. -/
def ending (s : Session) (status : Nat) : Session := { s with status }

/-- End a command with yes or no. -/
def answering (s : Session) (yes : Bool) : Session := s.ending (if yes then 0 else 1)

/-- Complain and end a command with a number. -/
def complaining (s : Session) (sinks : Sinks) (words : String) (status : Nat) : Session :=
  (s.write sinks.complaint (Bytes.ofText (words ++ "\n"))).ending status

/-- End the shell with a number. -/
def exiting (s : Session) (status : Nat) : Session :=
  { s with status := status % 256, ended := some (.status (status % 256)) }

end Session

/-- The milliseconds that a number of seconds stands for. -/
def milliseconds? (seconds : String) : Option Nat :=
  let cs := seconds.toList
  let whole := cs.takeWhile Char.isDigit
  let fraction := match cs.dropWhile Char.isDigit with
    | [] => some []
    | '.' :: ds => if ds.all Char.isDigit then some ds else none
    | _ => none
  let value (ds : List Char) : Nat := ds.foldl (fun n c => n * 10 + (c.toNat - '0'.toNat)) 0
  match fraction with
  | some ds =>
    if whole.isEmpty && ds.isEmpty then none
    else some (value whole * 1000 + value ((ds ++ "000".toList).take 3))
  | none => none

/-- The lines of a text of bytes, without their ends. -/
def linesOf (bytes : Bytes) : List Bytes :=
  match bytes.splitOn 10 with
  | [] => []
  | ls => if ls.getLast? == some [] then ls.dropLast else ls

/-- The number of a signal, given by number or by name. -/
def signal? (name : String) : Option Nat :=
  match name.toNat? with
  | some n => some n
  | none =>
    let full := if name.startsWith "SIG" then name else "SIG" ++ name
    (Ending.signalNames.idxOf? full).map (· + 1)

/-- What `test` says about its words, if it understands them. -/
def test? : List String → Option Bool
  | [] => some false
  | ["!", a] => some (a == "")
  | ["-n", a] => some (a != "")
  | ["-z", a] => some (a == "")
  | [a] => some (a != "")
  | [a, "=", b] => some (a == b)
  | [a, "!=", b] => some (a != b)
  | [a, "-eq", b] => do pure ((← a.toInt?) == (← b.toInt?))
  | [a, "-ne", b] => do pure ((← a.toInt?) != (← b.toInt?))
  | [a, "-lt", b] => do pure ((← a.toInt?) < (← b.toInt?))
  | [a, "-le", b] => do pure ((← a.toInt?) ≤ (← b.toInt?))
  | [a, "-gt", b] => do pure ((← b.toInt?) < (← a.toInt?))
  | [a, "-ge", b] => do pure ((← b.toInt?) ≤ (← a.toInt?))
  | "!" :: rest => (test? rest).map (!·)
  | _ => none

/-- Search the lines that can be read for a text. -/
def grep (s : Session) (sinks : Sinks) (quiet inverted : Bool) (text : String) : Session :=
  let found := (linesOf s.input).filter fun l =>
    (Bytes.indexOf? (Bytes.ofText text) l).isSome != inverted
  let s := { s with input := [] }
  let s := if quiet then s else s.write sinks.output (found.flatMap (· ++ [10]))
  s.answering (!found.isEmpty)

/-- What the commands that are programs of their own do; none for a command that there is not. -/
def program? (s : Session) (sinks : Sinks) (name : String) (args : List String) : Option Session :=
  match name with
  | "true" => some (s.ending 0)
  | "false" => some (s.ending 1)
  | "cat" => some (({ s with input := [] }.write sinks.output s.input).ending 0)
  | "echo" =>
    let (args, end_) := match args with
      | "-n" :: args => (args, "")
      | args => (args, "\n")
    some ((s.write sinks.output (Bytes.ofText (" ".intercalate args ++ end_))).ending 0)
  | "sleep" =>
    match args.mapM milliseconds? with
    | some (ms :: more) =>
      some ({ s with elapsed := s.elapsed + more.foldl (· + ·) ms }.ending 0)
    | _ => some (s.complaining sinks "sleep: invalid time interval" 1)
  | "test" =>
    match test? args with
    | some yes => some (s.answering yes)
    | none => some (s.ending 2)
  | "[" =>
    match if args.getLast? == some "]" then test? args.dropLast else none with
    | some yes => some (s.answering yes)
    | none => some (s.ending 2)
  | "grep" =>
    match args with
    | ["-q", t] => some (grep s sinks true false t)
    | ["-qv", t] => some (grep s sinks true true t)
    | ["-vq", t] => some (grep s sinks true true t)
    | ["-v", t] => some (grep s sinks false true t)
    | [t] => some (grep s sinks false false t)
    | _ => some (s.ending 2)
  | _ => none

/-- What the commands that the shell carries out itself do. -/
def builtin? (s : Session) (name : String) (args : List String) : Option Session :=
  match name with
  | ":" => some (s.ending 0)
  | "exit" =>
    match args with
    | [] => some (s.exiting s.status)
    | n :: _ => some (s.exiting (n.toNat?.getD 2))
  | "kill" =>
    let (number, targets) := match args with
      | "-s" :: n :: ts => (signal? n, ts)
      | n :: ts =>
        if n.startsWith "-" then (signal? (String.ofList (n.toList.drop 1)), ts)
        else (some 15, n :: ts)
      | [] => (none, [])
    match number with
    | some number =>
      if targets.contains processNumber && number != 0 then
        some { s with ended := some (.signal number) }
      else some (s.answering (targets.contains processNumber))
    | none => some (s.ending 2)
  | _ => none

/-- Leave a part of a script that is a shell of its own: that it was left is over, but a signal to the
whole shell is not. -/
def Session.leave (s : Session) : Session :=
  match s.ended with
  | some (.status n) => { s with ended := none, status := n }
  | _ => s

mutual

/-- The words that a word stands for, and the shell afterwards. -/
def expand : Nat → Session → List Piece → List Char → Bool → Session × List String
  | 0, s, _, word, some_ => (s, if some_ then [String.ofList word] else [])
  | _ + 1, s, [], word, some_ => (s, if some_ then [String.ofList word] else [])
  | n + 1, s, p :: rest, word, some_ =>
    match p with
    | .text cs => expand n s rest (word ++ cs) true
    | .processId => expand n s rest (word ++ processNumber.toList) true
    | .lastStatus => expand n s rest (word ++ (toString s.status).toList) true
    | .written script inQuotes =>
      let inner := (runScript n { s with output := [] } {} script).leave
      let text := (Bytes.glyphs (inner.output.reverse.dropWhile (· == 10)).reverse).map Glyph.char
      let s := { inner with output := s.output }
      if inQuotes then expand n s rest (word ++ text) true
      else
        let parts := (text.splitOnP (fun c => c == ' ' || c == '\t' || c == '\n')).filter (!·.isEmpty)
        match parts.reverse with
        | [] => expand n s rest word some_
        | last :: before =>
          match before.reverse with
          | [] => expand n s rest (word ++ last) true
          | first :: middle =>
            let (s, words) := expand n s rest last true
            (s, String.ofList (word ++ first) :: middle.map String.ofList ++ words)

/-- The words of a command. -/
def expandAll : Nat → Session → List (List Piece) → Session × List String
  | 0, s, _ => (s, [])
  | _ + 1, s, [] => (s, [])
  | n + 1, s, w :: rest =>
    let (s, here) := expand n s w [] false
    let (s, more) := expandAll n s rest
    (s, here ++ more)

/-- Run a script. -/
def runScript : Nat → Session → Sinks → Script → Session
  | 0, s, _, _ => s
  | n + 1, s, sinks, script =>
    if s.ended.isSome then s
    else match script with
      | .nothing => s
      | .command words redirects =>
        let (s, words) := expandAll n s words
        let sinks := redirects.foldl Sinks.redirect sinks
        match words with
        | [] => s
        | name :: args =>
          match (builtin? s name args).or (program? s sinks name args) with
          | some s => s
          | none => s.complaining sinks ("sh: 1: " ++ name ++ ": not found") 127
      | .group isApart body redirects =>
        let s := runScript n s (redirects.foldl Sinks.redirect sinks) body
        if isApart then s.leave else s
      | .pipe first second =>
        let before := runScript n { s with output := [] } { sinks with output := .output } first
        let before := before.leave
        (runScript n { before with input := before.output, output := s.output } sinks second).leave
      | .negate body =>
        let s := runScript n s sinks body
        if s.ended.isSome then s else s.answering (s.status != 0)
      | .both first second =>
        let s := runScript n s sinks first
        if s.status == 0 then runScript n s sinks second else s
      | .either first second =>
        let s := runScript n s sinks first
        if s.status == 0 then s else runScript n s sinks second
      | .andThen first second => runScript n (runScript n s sinks first) sinks second

end

/-- Run a text as a script. -/
def runText (s : Session) (text : String) : Session :=
  match Script.ofText? text with
  | some script => runScript (8 * text.length + 16) s {} script
  | none => s.complaining {} "sh: 1: Syntax error" 2

/-- Run a program with arguments over an input; none if there is no such program. -/
def launch? (command : String) (args : List String) (input : Bytes) : Option Session :=
  let name := (["/bin/", "/usr/bin/"].findSome? fun dir =>
    if command.startsWith dir then some (String.ofList (command.toList.drop dir.length)) else none).getD
      command
  let s : Session := { input }
  if name == "sh" then
    match args with
    | [] => some (runText { s with input := [] } ((input.text?).getD ""))
    | "-c" :: text :: _ => some (runText s text)
    | _ => some (s.complaining {} "sh: 0: cannot open script" 2)
  else program? s {} name args

/-- Run the program of a check over a text. -/
def attempt (c : SyntaxCheck) (source : Bytes) : Attempt :=
  match launch? c.command c.args source with
  | none => .notStarted .notFound
  | some s =>
    if s.elapsed ≥ c.timeoutMs then .outOfTime
    else .finished ⟨s.ended.getD (.status s.status), s.complaint⟩

end LogHygiene.Shell
