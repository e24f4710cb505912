import LogHygiene.Mismatch
import LogHygiene.Number.Double
import LogHygiene.Yaml.Document

/-!
# Reading values out of a YAML document

A `Reader` reads one value at a place in a document and answers with the place after it. What may stand
there is decided by what is wanted: every scalar can be read as a text, but only a plain one can be a
number or a truth value, and nothing at all is an empty sequence or an empty record.

**A mismatch is placed by the innermost reader that sees it.** Its place is a mark and a trail of field
names and indices; a mismatch that no reader has placed yet, such as a field that is missing, gets the
place of the record it belongs to.
-/

set_option autoImplicit false

namespace LogHygiene.Yaml

/-- A step from a value to a part of it. -/
inductive Step where
  | field (name : String)
  | item (index : Nat)
  /-- a part whose key is no scalar of its own -/
  | unnamed
  deriving DecidableEq, Repr, Inhabited

/-- The way from the top of a document to a value, last step first. -/
abbrev Trail := List Step

/-- A trail in words; the top is a dot. -/
def Trail.words : Trail → String
  | [] => "."
  | .item n :: up => Trail.words up ++ "[" ++ toString n ++ "]"
  | .field name :: up => (if up.isEmpty then "" else Trail.words up ++ ".") ++ name
  | .unnamed :: up => (if up.isEmpty then "" else Trail.words up ++ ".") ++ "?"

/-- Why a text cannot be read. -/
inductive Issue where
  | mismatch (m : Mismatch) (place : Option (Mark × Trail))
  | fault (f : Fault)
  | endOfText
  | severalDocuments
  deriving DecidableEq, Repr, Inhabited

namespace Issue

/-- Give a place to a mismatch that has none. -/
def placedAt (mark : Mark) (trail : Trail) : Issue → Issue
  | mismatch m none => mismatch m (some (mark, trail))
  | other => other

/-- The issue in words. -/
def message : Issue → String
  | mismatch m none => m.message
  | mismatch m (some (mark, trail)) =>
    (if trail.isEmpty then "" else trail.words ++ ": ") ++ m.message ++ mark.suffix
  | fault f => f.message
  | endOfText => "EOF while parsing a value"
  | severalDocuments =>
    "deserializing from YAML containing more than one document is not supported"

end Issue

/-! ## What a scalar is -/

/-- Whether a text is a null. -/
def isNull (s : String) : Bool := ["null", "Null", "NULL", "~"].contains s

/-- The truth value that a text spells. -/
def bool? (s : String) : Option Bool :=
  if ["true", "True", "TRUE"].contains s then some true
  else if ["false", "False", "FALSE"].contains s then some false
  else none

/-- The digits of a number in some base. -/
def digits? (base : Nat) (cs : List Char) : Option Nat :=
  if cs.isEmpty then none
  else (cs.mapM fun c => (hexDigit? c).filter (· < base)).map
    fun ds => ds.foldl (fun n d => n * base + d) 0

/-- Whether a number has a zero in front, which makes a text of it. -/
def hasNeedlessZero (cs : List Char) : Bool :=
  let ds := match cs with
    | '-' :: ds => ds
    | '+' :: ds => ds
    | ds => ds
  match ds with
  | '0' :: rest => !rest.isEmpty && rest.all Char.isDigit
  | _ => false

/-- What stands behind the mark of a base. -/
def based? : List Char → Option (Nat × List Char)
  | '0' :: 'x' :: ds => some (16, ds)
  | '0' :: 'o' :: ds => some (8, ds)
  | '0' :: 'b' :: ds => some (2, ds)
  | _ => none

/-- The natural number that a text spells. -/
def natural? (cs : List Char) : Option Nat :=
  let ds := match cs with | '+' :: ds => ds | ds => ds
  let starts (ds : List Char) : Bool := match ds with
    | '+' :: _ => true
    | '-' :: _ => true
    | _ => false
  let inBase : Option Nat := match based? ds with
    | some (base, ds) => digits? base ds
    | none => none
  inBase.or (if starts ds || hasNeedlessZero cs then none else digits? 10 ds)

/-- The number with a minus in front that a text spells, without the minus. -/
def negative? (cs : List Char) : Option Nat :=
  match cs with
  | '-' :: ds =>
    let inBase : Option Nat := match based? ds with
      | some (base, ds) => digits? base ds
      | none => none
    inBase.or (if hasNeedlessZero cs then none else digits? 10 ds)
  | _ => none

/-- The number with a fraction that a text spells, as it is named in messages. -/
def real? (cs : List Char) : Option String :=
  let s := String.ofList cs
  let (plus, ds) := match cs with | '+' :: ds => (true, ds) | ds => (false, ds)
  let signed := match ds with | '+' :: _ => true | '-' :: _ => true | _ => false
  if plus && signed then none
  else if [".inf", ".Inf", ".INF"].contains (String.ofList ds) then some "inf"
  else if ["-.inf", "-.Inf", "-.INF"].contains s then some "-inf"
  else if [".nan", ".NaN", ".NAN"].contains s then some "NaN"
  else ((Decimal.ofChars? ds).bind Double.ofDecimal?).map (Double.render .positional)

/-- What a number is called, if a text spells one. -/
def integerFound? (cs : List Char) : Option Found :=
  match natural? cs, negative? cs with
  | some n, _ =>
    if n < Nat.pow 2 64 then some (.integer n)
    else if n < Nat.pow 2 128 then some (.wide n "u128") else none
  | none, some n =>
    if n ≤ Nat.pow 2 63 then some (.integer (-n))
    else if n ≤ Nat.pow 2 127 then some (.wide (-n) "i128") else none
  | none, none => none

/-- What a plain text without a tag is. -/
def plainFound (s : String) : Found :=
  if s == "" || isNull s then .kind "unit value"
  else match bool? s with
    | some b => .bool b
    | none =>
      match integerFound? s.toList with
      | some found => found
      | none =>
        match if hasNeedlessZero s.toList then none else real? s.toList with
        | some x => .real x
        | none => .text s

/-- The tag that the standard gives to a kind of scalar. -/
def standardTag (kind : String) : String := "tag:yaml.org,2002:" ++ kind

/-- What is wrong with a scalar that is not what was expected. -/
def scalarMismatch (tag : Option String) (s : String) (style : Style) (expected : String) :
    Mismatch :=
  let is (found : Option Found) (kind : String) : Mismatch := match found with
    | some found => .wrongType found expected
    | none => .wrongValue (.text s) kind
  match tag with
  | some t =>
    if t == standardTag "bool" then is ((bool? s).map .bool) "a boolean"
    else if t == standardTag "int" then is (integerFound? s.toList) "an integer"
    else if t == standardTag "float" then is ((real? s.toList).map .real) "a float"
    else if t == standardTag "null" then
      is (if isNull s then some (.kind "unit value") else none) "null"
    else if t.startsWith "!" && style == .plain then .wrongType (plainFound s) expected
    else .wrongType (.text s) expected
  | none =>
    if style == .plain then .wrongType (plainFound s) expected else .wrongType (.text s) expected

/-- What is wrong with an event that is not what was expected. -/
def eventIssue (e : Event) (expected : String) : Issue :=
  match e with
  | .scalar tag s style => .mismatch (scalarMismatch tag s style expected) none
  | .sequenceStart _ => .mismatch (.wrongType (.kind "sequence") expected) none
  | .mappingStart _ => .mismatch (.wrongType (.kind "map") expected) none
  | _ => .endOfText

/-! ## Readers -/

/-- Reads a value at a place, given the way there. -/
def Reader (α : Type) := Document → Trail → Nat → Except Issue (α × Nat)

namespace Reader

variable {α β : Type}

/-- The event at a place. -/
def eventAt (d : Document) (pos : Nat) : Except Issue (Event × Mark) :=
  match d.events[pos]?, d.fault with
  | some e, _ => .ok e
  | none, some f => .error (.fault f)
  | none, none => .error .endOfText

/-- Where the event at a place really stands: a reference stands for what it refers to. -/
def follow (d : Document) (pos : Nat) (e : Event) : Nat :=
  match e with
  | .alias number => (d.targets.lookup number).getD pos
  | _ => pos

/-- Read what the event at a place stands for; behind a reference reading goes on at once. -/
def atEvent (read : Event → Mark → Nat → Document → Trail → Except Issue (α × Nat)) : Reader α :=
  fun d trail pos => do
    let (e, _) ← eventAt d pos
    let here := follow d pos e
    let (e', mark) ← eventAt d here
    match read e' mark here d trail with
    | .ok (a, after) => .ok (a, if here == pos then after else pos + 1)
    | .error issue => .error (issue.placedAt mark trail)

/-- A text. -/
def text (expected : String) : Reader String := atEvent fun e _ here _ _ =>
  match e with
  | .scalar _ s _ => .ok (s, here + 1)
  | other => .error (eventIssue other expected)

/-- Whether a scalar can be something else than a text: it is plain, or a block with the tag for it. -/
def isBare (tag : Option String) (style : Style) (kind : String) : Bool :=
  style == .plain || (style == .literal && tag == some (standardTag kind))

/-- A truth value. -/
def bool : Reader Bool := atEvent fun e _ here _ _ =>
  let refused := Except.error (eventIssue e "a boolean")
  match e with
  | .scalar tag s style =>
    match if isBare tag style "bool" then bool? s else none with
    | some b => .ok (b, here + 1)
    | none => refused
  | _ => refused

/-- A natural number of 64 bits. -/
def natural (expected : String) : Reader Nat := atEvent fun e _ here _ _ =>
  let refused := Except.error (eventIssue e expected)
  match e with
  | .scalar tag s style =>
    match if isBare tag style "int" then (natural? s.toList).filter (· < Nat.pow 2 64) else none with
    | some n => .ok (n, here + 1)
    | none => refused
  | _ => refused

/-- Whether an event stands for nothing at all. -/
def isNothing : Event → Bool
  | .void => true
  | .scalar _ s style => s == "" && style == .plain
  | _ => false

/-- The items of a sequence from here on. -/
def items (read : Reader α) (d : Document) (trail : Trail) :
    Nat → Nat → Nat → Except Issue (List α × Nat)
  | 0, _, pos => .ok ([], pos)
  | n + 1, index, pos => do
    let (e, _) ← eventAt d pos
    match e with
    | .sequenceEnd => pure ([], pos + 1)
    | _ => do
      let (a, pos) ← read d (.item index :: trail) pos
      let (more, pos) ← items read d trail n (index + 1) pos
      pure (a :: more, pos)

/-- A sequence. -/
def list (read : Reader α) : Reader (List α) := atEvent fun e _ here d trail =>
  match e with
  | .sequenceStart _ => items read d trail (d.events.size + 1) 0 (here + 1)
  | other =>
    if isNothing other then .ok ([], here + 1) else .error (eventIssue other "a sequence")

/-- A value, or nothing. -/
def optional (read : Reader α) : Reader (Option α) := fun d trail pos => do
  let (e, _) ← eventAt d pos
  let here := follow d pos e
  let after (n : Nat) : Nat := if here == pos then n else pos + 1
  let (e, _) ← eventAt d here
  let isSome ← match e with
    | .scalar tag s style =>
      if style != .plain then pure true
      else match tag with
        | some t =>
          if t != standardTag "null" then pure true
          else if isNull s then pure false
          else throw (.mismatch (.wrongValue (.text s) "null") none)
        | none => pure (s != "" && !isNull s)
    | .void => pure false
    | _ => pure true
  if isSome then do
    let (a, n) ← read d trail here
    pure (some a, after n)
  else pure (none, after (here + 1))

/-- The rest of a tag that names a choice. -/
def choiceTag? (tag : Option String) : Option String :=
  match tag with
  | some t =>
    match t.toList with
    | '!' :: rest => some (if rest.isEmpty then t else String.ofList rest)
    | _ => none
  | none => none

/-- One of several values, each of which has a name. The name is a scalar, or a tag on nothing. -/
def oneOf [Inhabited α] (all : List α) (label : α → String) : Reader α := fun d trail pos => do
  let names := all.map label
  let pick (name : String) : Except Issue α :=
    match all.find? (fun a => label a == name) with
    | some a => .ok a
    | none => .error (.mismatch (.unknownVariant name names) none)
  let (e, _) ← eventAt d pos
  let here := follow d pos e
  let (e, mark) ← eventAt d here
  let after := if here == pos then here + 1 else pos + 1
  let placed (r : Except Issue α) : Except Issue α := r.mapError (·.placedAt mark trail)
  let tagged (name : String) (rest : Except Issue Unit) : Except Issue (α × Nat) := do
    let a ← pick name
    let _ ← rest.mapError (·.placedAt mark trail)
    pure (a, after)
  let refused (kind : String) : Except Issue (α × Nat) := do
    let a ← placed (.error (.mismatch (.wrongType (.kind kind) "a YAML tag starting with '!'") none))
    pure (a, after)
  match e with
  | .scalar tag s style =>
    match choiceTag? tag with
    | some name =>
      tagged name (if style == .plain && (s == "" || isNull s) then .ok ()
        else .error (.mismatch (.wrongValue (.text s) "null") none))
    | none => do
      let a ← placed (pick s)
      pure (a, after)
  | .sequenceStart tag =>
    match choiceTag? tag with
    | some name => tagged name (.error (eventIssue e "unit"))
    | none => refused "sequence"
  | .mappingStart tag =>
    match choiceTag? tag with
    | some name => tagged name (.error (eventIssue e "unit"))
    | none => refused "map"
  | _ => throw .endOfText

/-- The fields of a record from here on. `read` tells how the field with a given name is read into
the record so far. -/
def fields (names : List String) (read : String → α → Reader α) (d : Document) (trail : Trail) :
    Nat → List String → α → Nat → Except Issue (α × Nat)
  | 0, _, a, pos => .ok (a, pos)
  | n + 1, seen, a, pos => do
    let (e, _) ← eventAt d pos
    match e with
    | .mappingEnd => pure (a, pos + 1)
    | _ => do
      let (name, after) ← text "field identifier" d trail pos
      let (_, mark) ← eventAt d (follow d pos e)
      if !names.contains name then
        throw (.mismatch (.unknownField name names) (some (mark, trail)))
      if seen.contains name then throw (.mismatch (.duplicateField name) none)
      let step : Step := match e with | .scalar _ s _ => .field s | _ => .unnamed
      let (a, pos) ← read name a d (step :: trail) after
      fields names read d trail n (name :: seen) a pos

/-- A record, read field by field into `start` and then finished. -/
def record (expected : String) (names : List String) (start : α) (read : String → α → Reader α)
    (finish : α → Except Mismatch β) : Reader β := atEvent fun e _ here d trail => do
  let (a, pos) ← match e with
    | .mappingStart _ => fields names read d trail (d.events.size + 1) [] start (here + 1)
    | other =>
      if isNothing other then .ok (start, here + 1) else .error (eventIssue other expected)
  match finish a with
  | .ok b => pure (b, pos)
  | .error m => throw (.mismatch m none)

/-- Read a value and use it if it is there. -/
def into (read : Reader β) (use : β → α) (otherwise : α) : Reader α := fun d trail pos => do
  let (b, pos) ← optional read d trail pos
  pure (match b with | some b => use b | none => otherwise, pos)

/-- Read a text as a whole. -/
def run (read : Reader α) (source : String) : Except Issue α :=
  let (d, more) := firstDocument source.toList
  match read d [] 0, d.fault with
  | .error issue, _ => .error issue
  | .ok _, some f => .error (.fault f)
  | .ok (a, _), none => if more then .error .severalDocuments else .ok a

end Reader

end LogHygiene.Yaml
