/-!
# Shell scripts

The scripts that checks are written in are short: simple commands with words and redirections, joined by
`;`, `&&`, `||`, `|` and `!`, grouped by brackets. Words may be quoted and may hold what another script
writes. `Script.ofText?` reads them; a script that goes beyond this is not read.
-/

set_option autoImplicit false

namespace LogHygiene.Shell

/-- Where something that is written goes. -/
inductive Sink where
  | output
  | complaint
  | nowhere
  deriving DecidableEq, Repr, Inhabited

/-- Which of the two things a command writes is sent elsewhere, and where. -/
structure Redirect where
  isComplaint : Bool
  sink : Sink
  deriving DecidableEq, Repr, Inhabited

mutual

/-- A part of a word. -/
inductive Piece where
  | text (s : List Char)
  /-- what a script writes; between quotes it stays one word -/
  | written (script : Script) (inQuotes : Bool)
  /-- the number of the running shell -/
  | processId
  /-- how the last command ended -/
  | lastStatus

/-- A script. -/
inductive Script where
  | nothing
  | command (words : List (List Piece)) (redirects : List Redirect)
  | group (isApart : Bool) (body : Script) (redirects : List Redirect)
  | pipe (first second : Script)
  | negate (s : Script)
  | both (first second : Script)
  | either (first second : Script)
  | andThen (first second : Script)

end

instance : Inhabited Script := ⟨.nothing⟩
instance : Inhabited Piece := ⟨.processId⟩

namespace Script

/-- The text behind blanks. -/
def skipBlanks (cs : List Char) : List Char := cs.dropWhile (fun c => c == ' ' || c == '\t')

/-- The text behind blanks, line ends and comments. -/
def skipLines : Nat → List Char → List Char
  | 0, cs => cs
  | n + 1, cs =>
    match skipBlanks cs with
    | '\n' :: rest => skipLines n rest
    | '#' :: rest => skipLines n (rest.dropWhile (· != '\n'))
    | cs => cs

/-- Characters that end a word. -/
def endsWord (c : Char) : Bool := [' ', '\t', '\n', ';', '&', '|', '<', '>', '(', ')'].contains c

/-- Words that do not start a simple command. -/
def reserved : List String :=
  ["if", "then", "else", "elif", "fi", "do", "done", "case", "esac", "while", "until", "for", "\x7b",
   "\x7d", "!"]

/-- A redirection at the front of a text. -/
def redirect? (cs : List Char) : Option (Redirect × List Char) :=
  let (isComplaint, rest) := match cs with
    | '2' :: '>' :: rest => (true, some rest)
    | '1' :: '>' :: rest => (false, some rest)
    | '>' :: rest => (false, some rest)
    | _ => (false, none)
  match rest with
  | none => none
  | some rest =>
    match rest with
    | '&' :: '1' :: rest => some (⟨isComplaint, .output⟩, rest)
    | '&' :: '2' :: rest => some (⟨isComplaint, .complaint⟩, rest)
    | rest =>
      let rest := match rest with | '>' :: rest => rest | rest => rest
      let target := skipBlanks rest
      let name := target.takeWhile (!endsWord ·)
      if name == "/dev/null".toList then
        some (⟨isComplaint, .nowhere⟩, target.dropWhile (!endsWord ·))
      else if name == "/dev/stderr".toList then
        some (⟨isComplaint, .complaint⟩, target.dropWhile (!endsWord ·))
      else if name == "/dev/stdout".toList then
        some (⟨isComplaint, .output⟩, target.dropWhile (!endsWord ·))
      else none

/-- Redirections at the front of a text. -/
def redirects : Nat → List Char → List Redirect × List Char
  | 0, cs => ([], cs)
  | n + 1, cs =>
    match redirect? (skipBlanks cs) with
    | some (r, rest) =>
      let (more, rest) := redirects n rest
      (r :: more, rest)
    | none => ([], cs)

mutual

/-- The parts of a text between double quotes, up to the closing one. -/
def quotedParts? : Nat → List Char → Option (List Piece × List Char)
  | 0, _ => none
  | _ + 1, [] => none
  | _ + 1, '"' :: rest => some ([.text []], rest)
  | n + 1, '\\' :: c :: rest => do
    let kept := if ['"', '\\', '$', '\x60'].contains c then [c] else ['\\', c]
    let (more, rest) ← quotedParts? n rest
    pure (.text kept :: more, rest)
  | n + 1, '$' :: rest => do
    let (p, rest) ← dollar? n true rest
    let (more, rest) ← quotedParts? n rest
    pure (p :: more, rest)
  | n + 1, c :: rest => do
    let (more, rest) ← quotedParts? n rest
    pure (.text [c] :: more, rest)

/-- What a dollar sign and the text behind it stand for. -/
def dollar? : Nat → Bool → List Char → Option (Piece × List Char)
  | 0, _, _ => none
  | n + 1, inQuotes, cs =>
    match cs with
    | '$' :: rest => some (.processId, rest)
    | '?' :: rest => some (.lastStatus, rest)
    | '(' :: rest => do
      let (s, rest) ← list? n rest
      match skipLines (rest.length + 1) rest with
      | ')' :: rest => pure (.written s inQuotes, rest)
      | _ => none
    | rest => some (.text ['$'], rest)

/-- The parts of a word. -/
def word? : Nat → List Char → Option (List Piece × List Char)
  | 0, _ => none
  | _ + 1, [] => some ([], [])
  | n + 1, c :: rest =>
    if endsWord c then some ([], c :: rest)
    else do
      let (parts, rest) ← match c with
        | '\'' =>
          match rest.dropWhile (· != '\'') with
          | _ :: after => some ([Piece.text (rest.takeWhile (· != '\''))], after)
          | [] => none
        | '"' => quotedParts? n rest
        | '\\' =>
          match rest with
          | e :: rest => some ([.text [e]], rest)
          | [] => some ([.text ['\\']], [])
        | '$' => do
          let (p, rest) ← dollar? n false rest
          pure ([p], rest)
        | c => some ([.text [c]], rest)
      let (more, rest) ← word? n rest
      pure (parts ++ more, rest)

/-- The words and redirections of a simple command. -/
def words? : Nat → List Char → Option (List (List Piece) × List Redirect × List Char)
  | 0, _ => none
  | n + 1, cs =>
    let cs := skipBlanks cs
    match redirect? cs with
    | some (r, rest) => do
      let (ws, rs, rest) ← words? n rest
      pure (ws, r :: rs, rest)
    | none =>
      match cs with
      | [] => some ([], [], [])
      | c :: _ =>
        if endsWord c || c == '#' then
          some ([], [], if c == '#' then cs.dropWhile (· != '\n') else cs)
        else do
          let (w, rest) ← word? n cs
          let (ws, rs, rest) ← words? n rest
          pure (w :: ws, rs, rest)

/-- A command. -/
def command? : Nat → List Char → Option (Script × List Char)
  | 0, _ => none
  | n + 1, cs =>
    match skipBlanks cs with
    | '(' :: rest => do
      let (s, rest) ← list? n rest
      match skipLines (rest.length + 1) rest with
      | ')' :: rest =>
        let (rs, rest) := redirects n rest
        pure (.group true s rs, rest)
      | _ => none
    | '\x7b' :: ' ' :: rest => do
      let (s, rest) ← list? n rest
      match skipLines (rest.length + 1) rest with
      | '\x7d' :: rest =>
        let (rs, rest) := redirects n rest
        pure (.group false s rs, rest)
      | _ => none
    | cs =>
      if reserved.contains (String.ofList (cs.takeWhile (!endsWord ·))) then none
      else do
        let (ws, rs, rest) ← words? n cs
        if ws.isEmpty && rs.isEmpty then none else pure (.command ws rs, rest)

/-- Commands joined by bars, perhaps with a sign in front that turns the result round. -/
def pipeline? : Nat → List Char → Option (Script × List Char)
  | 0, _ => none
  | n + 1, cs =>
    match skipBlanks cs with
    | '!' :: ' ' :: rest => do
      let (s, rest) ← pipeline? n rest
      pure (.negate s, rest)
    | cs => do
      let (first, rest) ← command? n cs
      match skipBlanks rest with
      | '|' :: '|' :: _ => pure (first, rest)
      | '|' :: rest => do
        let (second, rest) ← pipeline? n (skipLines (rest.length + 1) rest)
        pure (.pipe first second, rest)
      | _ => pure (first, rest)

/-- Pipelines behind a first one, joined from the left. -/
def chain? : Nat → Script → List Char → Option (Script × List Char)
  | 0, _, _ => none
  | n + 1, first, cs =>
    match skipBlanks cs with
    | '&' :: '&' :: rest => do
      let (s, rest) ← pipeline? n (skipLines (rest.length + 1) rest)
      chain? n (.both first s) rest
    | '|' :: '|' :: rest => do
      let (s, rest) ← pipeline? n (skipLines (rest.length + 1) rest)
      chain? n (.either first s) rest
    | _ => some (first, cs)

/-- Commands one after another, up to the end of the text or of the group. -/
def list? : Nat → List Char → Option (Script × List Char)
  | 0, _ => none
  | n + 1, cs =>
    match skipLines (cs.length + 1) cs with
    | [] => some (.nothing, [])
    | ')' :: rest => some (.nothing, ')' :: rest)
    | '\x7d' :: rest => some (.nothing, '\x7d' :: rest)
    | cs => do
      let (first, rest) ← pipeline? n cs
      let (first, rest) ← chain? n first rest
      match skipBlanks rest with
      | ';' :: rest => do
        let (more, rest) ← list? n rest
        pure (.andThen first more, rest)
      | '\n' :: rest => do
        let (more, rest) ← list? n rest
        pure (.andThen first more, rest)
      | rest => pure (first, rest)

end

/-- The script that a text spells. -/
def ofText? (text : String) : Option Script :=
  let cs := text.toList
  match list? (4 * cs.length + 8) cs with
  | some (s, []) => some s
  | _ => none

end Script

end LogHygiene.Shell
