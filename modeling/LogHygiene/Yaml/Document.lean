import LogHygiene.Yaml.Token

/-!
# Documents of a YAML text

A document is a row of **events**: scalars, and the beginnings and ends of sequences and mappings, in
the order of the text. A text that breaks off still has the events in front of the fault, and they are
kept together with it: what a document says wrong in front of a fault is told before the fault is.

**References point into the row.** A name is given to the event it stands at, and a reference is
replaced by what stands from there on. Names are counted as they are given, but a name that is given
again does not raise the count, so the next new name takes over the number of one given before it.
-/

set_option autoImplicit false

namespace LogHygiene.Yaml

/-- A piece of a document. -/
inductive Event where
  /-- what stands at the name with this number -/
  | alias (number : Nat)
  | scalar (tag : Option String) (text : String) (style : Style)
  | sequenceStart (tag : Option String)
  | sequenceEnd
  | mappingStart (tag : Option String)
  | mappingEnd
  /-- a document without anything in it -/
  | void
  deriving DecidableEq, Repr, Inhabited

/-- A document. -/
structure Document where
  events : Array (Event × Mark)
  /-- where the names stand, as numbers of events -/
  targets : List (Nat × Nat)
  fault : Option Fault
  deriving Inhabited

/-- A text whose documents are being read. -/
structure Composer where
  tokens : List Token
  /-- the fault behind the last token -/
  fault : Option Fault
  events : Array (Event × Mark)
  /-- names and their numbers -/
  names : List (String × Nat)
  targets : List (Nat × Nat)
  /-- handles of tags and what they stand for -/
  handles : List (String × String)
  deriving Inhabited

/-- A step that may meet a fault; the events before it stay. -/
abbrev Compose := ExceptT Fault (StateM Composer)

namespace Compose

/-- The handles that need no directive. -/
def defaultHandles : List (String × String) := [("!", "!"), ("!!", "tag:yaml.org,2002:")]

/-- The next token. -/
def peek : Compose Token := do
  let s ← get
  match s.tokens, s.fault with
  | t :: _, _ => pure t
  | [], some f => throw f
  | [], none => pure ⟨.streamEnd, .start, .start⟩

/-- Past the next token. -/
def skip : Compose Unit := modify fun s => { s with tokens := s.tokens.drop 1 }

/-- A fault at a place. -/
def fail {α : Type} (problem : Problem) (place : Mark) (context : Option (Activity × Mark)) :
    Compose α :=
  throw (.grammar problem place context)

/-- Add an event. -/
def emit (e : Event) (mark : Mark) : Compose Unit :=
  modify fun s => { s with events := s.events.push (e, mark) }

/-- An empty scalar. -/
def emptyScalar (mark : Mark) : Compose Unit := emit (.scalar none "" .plain) mark

/-- Give the name to the event that comes next. -/
def giveName : Option String → Compose Unit
  | none => pure ()
  | some name => modify fun s =>
    let number := s.names.length
    { s with
      names := (name, number) :: s.names.filter (fun (n, _) => n != name)
      targets := (number, s.events.size) :: s.targets.filter (fun (n, _) => n != number) }

/-- What stands in front of a node. -/
structure Properties where
  anchor : Option String
  tag : Option (String × String × Mark)
  start : Mark

/-- Read a name and a tag, in any order. -/
def properties : Compose Properties := do
  let first ← peek
  match first.lexeme with
  | .anchor name => do
    skip
    let second ← peek
    match second.lexeme with
    | .tag handle suffix => do
      skip
      pure ⟨some name, some (handle, suffix, second.start), first.start⟩
    | _ => pure ⟨some name, none, first.start⟩
  | .tag handle suffix => do
    skip
    let second ← peek
    match second.lexeme with
    | .anchor name => do
      skip
      pure ⟨some name, some (handle, suffix, first.start), first.start⟩
    | _ => pure ⟨none, some (handle, suffix, first.start), first.start⟩
  | _ => pure ⟨none, none, first.start⟩

/-- The tag that a handle and a suffix stand for. -/
def resolveTag (p : Properties) : Compose (Option String) := do
  match p.tag with
  | none => pure none
  | some (handle, suffix, place) =>
    if handle == "" then pure (some suffix)
    else match (← get).handles.lookup handle with
      | some lead => pure (some (lead ++ suffix))
      | none =>
        fail (.met "undefined tag handle") place (some (.parsing "a node", p.start))

/-- What a node stands in: tells which nodes may stand there and how faults are worded. -/
structure Place where
  inBlock : Bool
  /-- dashes at the column of the key open a sequence -/
  afterKey : Bool

/-- An entry of a block sequence. -/
def blockPlace : Place := ⟨true, false⟩

/-- A key or a value of a block mapping. -/
def mappingPlace : Place := ⟨true, true⟩

/-- A part of a flow collection. -/
def flowPlace : Place := ⟨false, false⟩

/-- A node of which only its name or its tag is there. -/
def bare (p : Properties) (tag : Option String) (place : Place) (t : Token) : Compose Unit := do
  if p.anchor.isSome || tag.isSome then
    giveName p.anchor
    emit (.scalar tag "" .plain) p.start
  else
    fail (.missing "node content") t.start
      (some (.parsing (if place.inBlock then "a block node" else "a flow node"), p.start))

mutual

/-- A node. -/
def node : Nat → Place → Compose Unit
  | 0, _ => pure ()
  | n + 1, place => do
    let first ← peek
    match first.lexeme with
    | .alias name => do
      match (← get).names.lookup name with
      | none => throw (.unknownAnchor first.start)
      | some number =>
        skip
        emit (.alias number) first.start
    | _ => do
      let p ← properties
      let tag ← resolveTag p
      let t ← peek
      match t.lexeme with
      | .blockEntry => do
        if place.afterKey then
          giveName p.anchor
          emit (.sequenceStart tag) p.start
          indentlessEntries n
        else bare p tag place t
      | .scalar text style => do
        skip
        giveName p.anchor
        emit (.scalar (tag.filter (· != "!")) text style) p.start
      | .flowSequenceStart => do
        skip
        giveName p.anchor
        emit (.sequenceStart tag) p.start
        flowEntries n t.start true
      | .flowMappingStart => do
        skip
        giveName p.anchor
        emit (.mappingStart tag) p.start
        flowPairs n t.start true
      | .blockSequenceStart => do
        if place.inBlock then
          skip
          giveName p.anchor
          emit (.sequenceStart tag) p.start
          blockEntries n t.start
        else bare p tag place t
      | .blockMappingStart => do
        if place.inBlock then
          skip
          giveName p.anchor
          emit (.mappingStart tag) p.start
          blockPairs n t.start
        else bare p tag place t
      | _ => bare p tag place t

/-- A node, or an empty scalar at `mark` where one of `closers` comes next. -/
def nodeOrEmpty : Nat → Place → List Lexeme → Mark → Compose Unit
  | 0, _, _, _ => pure ()
  | n + 1, place, closers, mark => do
    if closers.contains (← peek).lexeme then emptyScalar mark else node n place

/-- The entries of a block sequence that began at `began`. -/
def blockEntries : Nat → Mark → Compose Unit
  | 0, _ => pure ()
  | n + 1, began => do
    let t ← peek
    match t.lexeme with
    | .blockEntry => do
      skip
      nodeOrEmpty n blockPlace [.blockEntry, .blockEnd] t.stop
      blockEntries n began
    | .blockEnd => do
      skip
      emit .sequenceEnd t.start
    | _ => fail (.missing "'-' indicator") t.start (some (.parsing "a block collection", began))

/-- The entries of a sequence whose dashes stand at the column of its key. -/
def indentlessEntries : Nat → Compose Unit
  | 0 => pure ()
  | n + 1 => do
    let t ← peek
    match t.lexeme with
    | .blockEntry => do
      skip
      nodeOrEmpty n blockPlace [.blockEntry, .key, .value, .blockEnd] t.stop
      indentlessEntries n
    | _ => emit .sequenceEnd t.start

/-- The pairs of a block mapping that began at `began`. -/
def blockPairs : Nat → Mark → Compose Unit
  | 0, _ => pure ()
  | n + 1, began => do
    let t ← peek
    match t.lexeme with
    | .key => do
      skip
      nodeOrEmpty n mappingPlace [.key, .value, .blockEnd] t.stop
      blockValue n
      blockPairs n began
    | .blockEnd => do
      skip
      emit .mappingEnd t.start
    | _ => fail (.missing "key") t.start (some (.parsing "a block mapping", began))

/-- The value of a pair of a block mapping. -/
def blockValue : Nat → Compose Unit
  | 0 => pure ()
  | n + 1 => do
    let t ← peek
    match t.lexeme with
    | .value => do
      skip
      nodeOrEmpty n mappingPlace [.key, .value, .blockEnd] t.stop
    | _ => emptyScalar t.start

/-- The entries of a flow sequence that began at `began`. -/
def flowEntries : Nat → Mark → Bool → Compose Unit
  | 0, _, _ => pure ()
  | n + 1, began, first => do
    let t ← peek
    if t.lexeme == .flowSequenceEnd then
      skip
      emit .sequenceEnd t.start
    else
      if !first then
        if t.lexeme == .flowEntry then skip
        else
          fail (.missing "',' or ']'") t.start (some (.parsing "a flow sequence", began))
      let t ← peek
      match t.lexeme with
      | .key => do
        skip
        emit (.mappingStart none) t.start
        flowPairEntry n
        flowEntries n began false
      | .flowSequenceEnd => do
        skip
        emit .sequenceEnd t.start
      | _ => do
        node n flowPlace
        flowEntries n began false

/-- A pair that is an entry of a flow sequence. A key that is left out takes the sign after it along. -/
def flowPairEntry : Nat → Compose Unit
  | 0 => pure ()
  | n + 1 => do
    let t ← peek
    if [Lexeme.value, .flowEntry, .flowSequenceEnd].contains t.lexeme then
      skip
      emptyScalar t.stop
    else node n flowPlace
    let t ← peek
    if t.lexeme == .value then
      skip
      nodeOrEmpty n flowPlace [.flowEntry, .flowSequenceEnd] (← peek).start
    else emptyScalar t.start
    emit .mappingEnd (← peek).start

/-- The pairs of a flow mapping that began at `began`. -/
def flowPairs : Nat → Mark → Bool → Compose Unit
  | 0, _, _ => pure ()
  | n + 1, began, first => do
    let t ← peek
    if t.lexeme == .flowMappingEnd then
      skip
      emit .mappingEnd t.start
    else
      if !first then
        if t.lexeme == .flowEntry then skip
        else
          fail (.missing "',' or '\x7d'") t.start (some (.parsing "a flow mapping", began))
      let t ← peek
      match t.lexeme with
      | .key => do
        skip
        nodeOrEmpty n flowPlace [.value, .flowEntry, .flowMappingEnd] (← peek).start
        flowValue n
        flowPairs n began false
      | .flowMappingEnd => do
        skip
        emit .mappingEnd t.start
      | _ => do
        node n flowPlace
        emptyScalar (← peek).start
        flowPairs n began false

/-- The value of a pair of a flow mapping. -/
def flowValue : Nat → Compose Unit
  | 0 => pure ()
  | n + 1 => do
    let t ← peek
    match t.lexeme with
    | .value => do
      skip
      nodeOrEmpty n flowPlace [.flowEntry, .flowMappingEnd] (← peek).start
    | _ => emptyScalar t.start

end

/-- What directives said so far. -/
structure Directives where
  version : Bool
  handles : List (String × String)

/-- The directives in front of a document. -/
def directives : Nat → Directives → Compose Directives
  | 0, d => pure d
  | n + 1, d => do
    let t ← peek
    match t.lexeme with
    | .versionDirective major minor => do
      if d.version then fail (.met "duplicate %YAML directive") t.start none
      else if major != 1 || (minor != 1 && minor != 2) then
        fail (.met "incompatible YAML document") t.start none
      else
        skip
        directives n { d with version := true }
    | .tagDirective handle lead => do
      if (d.handles.lookup handle).isSome then
        fail (.met "duplicate %TAG directive") t.start none
      else
        skip
        directives n { d with handles := d.handles ++ [(handle, lead)] }
    | _ => pure d

/-- Past lines that mark the end of a document. -/
def skipDocumentEnds : Nat → Compose Unit
  | 0 => pure ()
  | n + 1 => do
    if (← peek).lexeme == .documentEnd then
      skip
      skipDocumentEnds n

/-- Use the handles of directives and, behind them, the usual ones. -/
def useHandles (given : List (String × String)) : Compose Unit :=
  modify fun s => { s with handles := given ++ defaultHandles }

/-- Whether nothing can stand in a document in front of a token. -/
def endsDocument : Lexeme → Bool
  | .versionDirective _ _ | .tagDirective _ _ | .documentStart | .documentEnd | .streamEnd => true
  | _ => false

/-- A document; answers `false` where the text has no more. -/
def document (budget : Nat) (first : Bool) : Compose Bool := do
  if !first then skipDocumentEnds budget
  let t ← peek
  let implicitly := first && match t.lexeme with
    | .versionDirective _ _ | .tagDirective _ _ | .documentStart | .streamEnd => false
    | _ => true
  if implicitly then
    useHandles []
    node budget blockPlace
  else if t.lexeme == .streamEnd then return false
  else
    let d ← directives budget ⟨false, []⟩
    useHandles d.handles
    let t ← peek
    if t.lexeme != .documentStart then
      fail (.missing "<document start>") t.start none
    skip
    let t ← peek
    if endsDocument t.lexeme then emptyScalar t.start else node budget blockPlace
  if (← peek).lexeme == .documentEnd then skip
  return true

end Compose

/-- The first document of a text, and whether the text goes on behind it. -/
def firstDocument (cs : List Char) : Document × Bool :=
  let (ts, fault) := tokens cs
  let budget := 4 * ts.length + 8
  let start : Composer := ⟨ts, fault, #[], [], [], []⟩
  match (Compose.document budget true).run start with
  | (.error f, s) => (⟨s.events, s.targets, some f⟩, false)
  | (.ok false, _) => (⟨#[(.void, .start)], [], none⟩, false)
  | (.ok true, s) =>
    let more := match ((Compose.document budget false).run s).1 with
      | .ok more => more
      | .error _ => true
    (⟨s.events, s.targets, none⟩, more)

end LogHygiene.Yaml
