import LogHygiene.Text.Utf8

/-!
# Globs

A glob is a pattern for whole paths. `?` and `*` stay inside one segment, `**` as a segment of its own
crosses any number of them, `[...]` stands for one byte out of a set, and of `\x7ba,b\x7d` any branch may
match. A pattern is read into tokens once; what it matches is then said token by token, as the places
in a path that can be reached from its start.

**Branches without anything in them do not count.** A group whose branches are all empty is as if it
were not there, and an empty branch beside others cannot be chosen.

Matching is by bytes: `?` is one byte, not one character.
-/

set_option autoImplicit false

namespace LogHygiene

/-- Why a pattern cannot be read. -/
inductive GlobFault where
  | unclosedClass
  | invalidRange (low high : Char)
  | unopenedGroup
  | unclosedGroup
  | danglingEscape
  deriving DecidableEq, Repr, Inhabited

/-- The fault in words. -/
def GlobFault.words : GlobFault → String
  | unclosedClass => "unclosed character class; missing ']'"
  | invalidRange low high => "invalid range; '" ++ low.toString ++ "' > '" ++ high.toString ++ "'"
  | unopenedGroup =>
    "unopened alternate group; missing '\x7b' (maybe escape '\x7d' with '[\x7d]'?)"
  | unclosedGroup =>
    "unclosed alternate group; missing '\x7d' (maybe escape '\x7b' with '[\x7b]'?)"
  | danglingEscape => "dangling '\\'"

namespace Glob

/-- A piece of a pattern. -/
inductive Token where
  | literal (c : Char)
  /-- one byte, no slash -/
  | any
  /-- any number of bytes, no slash -/
  | run
  /-- whole segments at the front, or nothing -/
  | leading
  /-- a slash and everything behind it -/
  | trailing
  /-- a slash, or whole segments between two -/
  | middle
  | oneOf (negated : Bool) (ranges : List (Char × Char))
  | group (branches : List (List Token))
  deriving Repr, Inhabited

/-! ## Reading a pattern -/

/-- An open group: what was read of its last branch, latest first, and the branches before, latest
first. The outermost frame is the pattern itself. -/
structure Frame where
  branch : List Token
  earlier : List (List Token)
  deriving Inhabited

/-- The branches of a group, in order. -/
def Frame.branches (f : Frame) : List (List Token) := (f.branch.reverse :: f.earlier).reverse

/-- Add a token to the last branch. -/
def Frame.push (f : Frame) (t : Token) : Frame := { f with branch := t :: f.branch }

/-- What was read of a set: its ranges, latest first, and whether a dash waits for the end of one. -/
structure Class where
  ranges : List (Char × Char)
  inRange : Bool

/-- Read a set up to its closing bracket. -/
def readClass : Bool → Class → List Char → Except GlobFault (List (Char × Char) × List Char)
  | _, _, [] => .error .unclosedClass
  | first, k, c :: rest =>
    if c == ']' && !first then
      .ok ((if k.inRange then ('-', '-') :: k.ranges else k.ranges).reverse, rest)
    else if c == '-' && !first && !k.inRange then readClass false { k with inRange := true } rest
    else if k.inRange && c != ']' then
      match k.ranges with
      | (low, _) :: more =>
        if c < low then .error (.invalidRange low c)
        else readClass false ⟨(low, c) :: more, false⟩ rest
      | [] => readClass false ⟨[(c, c)], false⟩ rest
    else readClass false ⟨(c, c) :: k.ranges, false⟩ rest

/-- What two stars mean, given the character in front of them, whether a group is open, the tokens
in front (latest first) and what follows; with the tokens in front afterwards and the rest. -/
def readStars (before : Option Char) (inGroup : Bool) (branch : List Token) (rest : List Char) :
    List Token × List Char :=
  let plain := (Token.run :: .run :: branch, rest)
  match branch with
  | [] =>
    match rest with
    | [] => ([.leading], [])
    | '/' :: rest => ([.leading], rest)
    | _ => plain
  | last :: front =>
    let atSegment := before == some '/' || (inGroup && (before == some ',' || before == some '\x7b'))
    if !atSegment then plain
    else
      let settle (t : Token) (rest : List Char) : List Token × List Char :=
        match last with
        | .leading => (.leading :: front, rest)
        | .trailing => (.trailing :: front, rest)
        | _ => (t :: front, rest)
      match rest with
      | [] => settle .trailing []
      | '/' :: more => settle .middle more
      | c :: _ => if inGroup && (c == ',' || c == '\x7d') then settle .trailing rest else plain

/-- Read the rest of a pattern into the open groups, innermost first. -/
def readTokens : Nat → Option Char → List Frame → Frame → List Char →
    Except GlobFault (List Token)
  | 0, _, _, inner, _ => .ok inner.branch.reverse
  | _ + 1, _, outer, inner, [] =>
    if outer.isEmpty then .ok inner.branch.reverse else .error .unclosedGroup
  | n + 1, before, outer, inner, c :: rest =>
    if c == '?' then readTokens n (some c) outer (inner.push .any) rest
    else if c == '*' then
      match rest with
      | '*' :: rest =>
        let (branch, after) := readStars before (!outer.isEmpty) inner.branch rest
        let last := if after.length < rest.length then '/' else '*'
        readTokens n (some last) outer { inner with branch } after
      | rest => readTokens n (some c) outer (inner.push .run) rest
    else if c == '[' then
      let (negated, body) := match rest with
        | '!' :: body => (true, body)
        | '^' :: body => (true, body)
        | body => (false, body)
      match readClass true ⟨[], false⟩ body with
      | .error f => .error f
      | .ok (ranges, rest) =>
        readTokens n (some ']') outer (inner.push (.oneOf negated ranges)) rest
    else if c == '\x7b' then readTokens n (some c) (inner :: outer) ⟨[], []⟩ rest
    else if c == '\x7d' then
      match outer with
      | [] => .error .unopenedGroup
      | around :: outer => readTokens n (some c) outer (around.push (.group inner.branches)) rest
    else if c == ',' && !outer.isEmpty then
      readTokens n (some c) outer ⟨[], inner.branch.reverse :: inner.earlier⟩ rest
    else if c == '\\' then
      match rest with
      | [] => .error .danglingEscape
      | e :: rest => readTokens n (some e) outer (inner.push (.literal e)) rest
    else readTokens n (some c) outer (inner.push (.literal c)) rest

/-- The tokens of a pattern. -/
def ofPattern? (pattern : String) : Except GlobFault (List Token) :=
  readTokens (pattern.length + 1) none [] ⟨[], []⟩ pattern.toList

/-! ## Matching -/

/-- The slash. -/
def slash : UInt8 := 47

/-- The bytes of a character. -/
def bytesOf (c : Char) : Bytes := Bytes.ofText (String.singleton c)

/-- Whether a byte belongs to a range. Of characters with several bytes the inner bytes stand for
themselves, and the range runs from the last byte of its low end to the first of its high end. -/
def inRange (b : UInt8) (range : Char × Char) : Bool :=
  let low := bytesOf range.1
  let high := bytesOf range.2
  if range.1 == range.2 then low.contains b
  else
    low.dropLast.contains b || (high.drop 1).contains b ||
      (low.getLastD 0 ≤ b && b ≤ high.headD 0)

/-- The rests of a path behind each of its slashes. -/
def behindSlashes : Bytes → List Bytes
  | [] => []
  | b :: rest => if b == slash then rest :: behindSlashes rest else behindSlashes rest

/-- The rests of a path that are reached without crossing a slash. -/
def withinSegment : Bytes → List Bytes
  | [] => [[]]
  | b :: rest => if b == slash then [b :: rest] else (b :: rest) :: withinSegment rest

/-- All rests of a path. -/
def tails : Bytes → List Bytes
  | [] => [[]]
  | b :: rest => (b :: rest) :: tails rest

/-- The rests without repetitions; two rests of one path are the same if they are equally long. -/
def distinct (rests : List Bytes) : List Bytes :=
  (rests.foldl (fun (seen : List (Nat × Bytes)) r =>
    let n := r.length
    if seen.any (fun s => s.1 == n) then seen else (n, r) :: seen) []).map (·.2)

mutual

/-- Whether a token stands for nothing at all. -/
def isHollow : Token → Bool
  | .group branches => allHollow branches
  | _ => false

/-- Whether all branches stand for nothing at all. -/
def allHollow : List (List Token) → Bool
  | [] => true
  | b :: rest => isHollowRow b && allHollow rest

/-- Whether a row of tokens stands for nothing at all. -/
def isHollowRow : List Token → Bool
  | [] => true
  | t :: rest => isHollow t && isHollowRow rest

end

mutual

/-- The rests of a path that one token can leave. -/
def restsOf : Token → Bytes → List Bytes
  | .literal c, path =>
    let bs := bytesOf c
    if bs.isPrefixOf path then [path.drop bs.length] else []
  | .any, path =>
    match path with
    | b :: rest => if b == slash then [] else [rest]
    | [] => []
  | .run, path => withinSegment path
  | .leading, path => path :: behindSlashes path
  | .trailing, path =>
    match path with
    | b :: rest => if b == slash then tails rest else []
    | [] => []
  | .middle, path =>
    match path with
    | b :: rest => if b == slash then rest :: behindSlashes rest else []
    | [] => []
  | .oneOf negated ranges, path =>
    match path with
    | b :: rest => if ranges.any (inRange b) != negated then [rest] else []
    | [] => []
  | .group branches, path =>
    if allHollow branches then [path] else distinct (restsOfBranches branches path)

/-- The rests that some branch can leave. -/
def restsOfBranches : List (List Token) → Bytes → List Bytes
  | [], _ => []
  | b :: rest, path =>
    (if isHollowRow b then [] else restsOfRow b [path]) ++ restsOfBranches rest path

/-- The rests that a row of tokens can leave, starting from several places. -/
def restsOfRow : List Token → List Bytes → List Bytes
  | [], paths => paths
  | t :: rest, paths => restsOfRow rest (distinct (paths.flatMap (restsOf t)))

end

/-- Whether tokens match a whole path. The pattern `**` matches every path. -/
def tokensMatch (tokens : List Token) (path : Bytes) : Bool :=
  match tokens with
  | [.leading] => true
  | tokens => (restsOfRow tokens [path]).any List.isEmpty

/-- Whether a pattern matches a path. A pattern that cannot be read matches nothing. -/
def accepts (pattern path : String) : Bool :=
  match ofPattern? pattern with
  | .ok tokens => tokensMatch tokens (Bytes.ofText path)
  | .error _ => false

/-- Whether one of several patterns matches a path. -/
def anyAccepts (patterns : List String) (path : String) : Bool := patterns.any (accepts · path)

/-- The first of several patterns that cannot be read, and why. -/
def firstFault? (patterns : List String) : Option (String × GlobFault) :=
  patterns.findSome? fun p =>
    match ofPattern? p with
    | .error f => some (p, f)
    | .ok _ => none

end Glob

end LogHygiene
