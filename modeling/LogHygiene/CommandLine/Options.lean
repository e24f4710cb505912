/-!
# What a command line asks for

Words of a command line are options, values of options or patterns. An option with a value takes the
word behind it, or what is written directly behind it; a letter option may be followed by further
letters in one word. Behind `--` every word is a pattern. No option but the count of `-v` may be given
twice.

**Values are settled late.** An option that waits for a value is looked at again when the next option
or pattern is met, or at the end. So of two faults the one that shows is not always the one that
comes first: a word that is no option at all is refused before the option in front of it is settled.
-/

set_option autoImplicit false

namespace LogHygiene.CommandLine

/-- What a run is asked to do. -/
structure Options where
  /-- patterns that take the place of the configured ones, if there are any -/
  patterns : List String := []
  root : String := "."
  config : Option String := none
  /-- where the outcome is written instead of being shown -/
  output : Option String := none
  fix : Bool := false
  dryRun : Bool := false
  clearCache : Bool := false
  /-- how often more detail was asked for -/
  verbosity : Nat := 0
  deriving DecidableEq, Repr, Inhabited

/-- Whether files are to be fixed. Only planning fixes counts as fixing. -/
def Options.wantsFixes (o : Options) : Bool := o.fix || o.dryRun

/-- How much is logged at a verbosity. -/
def logFilter : Nat → String
  | 0 => "warn"
  | 1 => "info"
  | 2 => "debug"
  | _ => "trace"

/-- The greatest verbosity that is counted. -/
def maxVerbosity : Nat := 255

/-- Why a command line asks for no run. -/
inductive Refusal where
  | missingValue
  | repeated
  | unknownOption
  | unneededValue
  /-- help was asked for -/
  | help
  /-- the version was asked for -/
  | version
  deriving DecidableEq, Repr, Inhabited

/-- An option that takes a value. -/
inductive Slot where
  | root
  | config
  | output
  deriving DecidableEq, Repr, Inhabited

/-- An option that stands alone. -/
inductive Switch where
  | fix
  | dryRun
  | clearCache
  | verbose
  | help
  | version
  deriving DecidableEq, Repr, Inhabited

/-- An option. -/
inductive Flag where
  | slot (s : Slot)
  | switch (s : Switch)
  deriving DecidableEq, Repr, Inhabited

/-- The option with a long name. -/
def Flag.ofLong? (name : String) : Option Flag :=
  match name with
  | "root" => some (.slot .root)
  | "config" => some (.slot .config)
  | "output" => some (.slot .output)
  | "fix" => some (.switch .fix)
  | "dry-run" => some (.switch .dryRun)
  | "clear-cache" => some (.switch .clearCache)
  | "verbose" => some (.switch .verbose)
  | "help" => some (.switch .help)
  | "version" => some (.switch .version)
  | _ => none

/-- The option with a letter. -/
def Flag.ofLetter? (letter : Char) : Option Flag :=
  match letter with
  | 'c' => some (.slot .config)
  | 'o' => some (.slot .output)
  | 'v' => some (.switch .verbose)
  | 'h' => some (.switch .help)
  | 'V' => some (.switch .version)
  | _ => none

/-- What was read of a command line. -/
structure Draft where
  options : Options := {}
  /-- the options that must not come again -/
  given : List Flag := []
  /-- an option that is not settled, with its value if that was read -/
  pending : Option (Slot × Option String) := none
  deriving DecidableEq, Repr, Inhabited

namespace Draft

/-- Note an option that may come only once. -/
def once (d : Draft) (flag : Flag) (options : Options) : Except Refusal Draft :=
  if d.given.contains flag then .error .repeated
  else .ok { d with options, given := flag :: d.given }

/-- Give an option its value. No value is empty. -/
def put (d : Draft) (slot : Slot) (value : String) : Except Refusal Draft := do
  let d ← d.once (.slot slot) (match slot with
    | .root => { d.options with root := value }
    | .config => { d.options with config := some value }
    | .output => { d.options with output := some value })
  if value == "" then .error .missingValue else .ok d

/-- Settle the option that waits, if one does. -/
def settle (d : Draft) : Except Refusal Draft :=
  match d.pending with
  | none => .ok d
  | some (_, none) => .error .missingValue
  | some (slot, some value) => { d with pending := none }.put slot value

/-- Take in an option that stands alone. -/
def turnOn (d : Draft) (s : Switch) : Except Refusal Draft := do
  let d ← d.settle
  match s with
  | .fix => d.once (.switch s) { d.options with fix := true }
  | .dryRun => d.once (.switch s) { d.options with dryRun := true }
  | .clearCache => d.once (.switch s) { d.options with clearCache := true }
  | .verbose =>
    pure { d with options :=
      { d.options with verbosity := min maxVerbosity (d.options.verbosity + 1) } }
  | .help => .error .help
  | .version => .error .version

/-- Take in an option that takes a value, with the value if it is written directly behind. -/
def fill (d : Draft) (slot : Slot) (value : Option String) : Except Refusal Draft := do
  let d ← d.settle
  match value with
  | some v => d.put slot v
  | none => pure { d with pending := some (slot, none) }

/-- Take in a pattern. -/
def addPattern (d : Draft) (pattern : String) : Except Refusal Draft := do
  let d ← d.settle
  pure { d with options := { d.options with patterns := d.options.patterns ++ [pattern] } }

/-- Take in the text of a word behind two dashes. -/
def readLong (d : Draft) (word : List Char) : Except Refusal Draft :=
  let value : Option String := match word.dropWhile (· != '=') with
    | _ :: v => some (String.ofList v)
    | [] => none
  match Flag.ofLong? (String.ofList (word.takeWhile (· != '='))), value with
  | none, _ => .error .unknownOption
  | some (.slot s), value => d.fill s value
  | some (.switch _), some _ => .error .unneededValue
  | some (.switch s), none => d.turnOn s

/-- Take in the letters of a word behind one dash. -/
def readLetters (d : Draft) : List Char → Except Refusal Draft
  | [] => .ok d
  | c :: rest =>
    match Flag.ofLetter? c with
    | none => .error .unknownOption
    | some (.switch s) =>
      match d.turnOn s with
      | .ok d => d.readLetters rest
      | .error r => .error r
    | some (.slot s) =>
      match rest with
      | [] => d.fill s none
      | '=' :: value => d.fill s (some (String.ofList value))
      | value => d.fill s (some (String.ofList value))

/-- Take in a word that is no option. -/
def readWord (d : Draft) (word : String) : Except Refusal Draft :=
  match d.pending with
  | some (slot, none) => .ok { d with pending := some (slot, some word) }
  | _ => d.addPattern word

/-- Take in words. -/
def read (d : Draft) : List String → Except Refusal Draft
  | [] => d.settle
  | word :: rest =>
    let step : Except Refusal Draft := match word.toList with
      | '-' :: '-' :: name => d.readLong name
      | ['-'] => d.readWord word
      | '-' :: letters => d.readLetters letters
      | _ => d.readWord word
    if word == "--" then rest.foldlM addPattern d >>= settle
    else match step with
      | .ok d => d.read rest
      | .error r => .error r

end Draft

/-- What the words of a command line ask for. -/
def Options.ofWords (words : List String) : Except Refusal Options :=
  (Draft.read {} words).map Draft.options

end LogHygiene.CommandLine
