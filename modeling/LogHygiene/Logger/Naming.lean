import LogHygiene.Config.Settings
import LogHygiene.Logger.Identifier
import LogHygiene.Text.Letter

/-!
# Naming a new logger

A file whose logger has to be created gets one under the configured name or, on request, under a name
made from where the file lies: `src/services/auth-service.ts` leads to `servicesAuthServiceLogger`, and
`pkg/db/session.py` to `pkg_db_session_logger`. A name made from a path is used only if the family can
bind it.

**The name is free.** When the file binds the name already, the least number from two upwards that
makes it free is put behind it. Among `n` taken names at most `n` numbered ones are taken, so looking at
`n + 1` numbers is enough.
-/

set_option autoImplicit false

namespace LogHygiene

open Text

namespace Naming

/-- The words of a path segment. -/
def wordsOf (segment : List Char) : List (List Char) :=
  (segment.splitOnP (fun c => c == '-' || c == '_' || c == '.' || c == ' ')).filter (!·.isEmpty)

/-- A word with its first letter capital and the others small. -/
def capitalize : List Char → List Char
  | [] => []
  | c :: rest => upperChar c ++ rest.flatMap lowerChar

/-- Put `_` before each capital and make it small; `before` is what stands in front, turned round. -/
def snakeFrom (before : List Char) : List Char → List Char
  | [] => before.reverse
  | c :: rest =>
    if isUpper c then
      let gap := if before.isEmpty || before.head? == some '_' then before else '_' :: before
      snakeFrom ((lowerChar c).reverse ++ gap) rest
    else snakeFrom (c :: before) rest

/-- A word in small letters, its parts joined by `_`: `AppLog` becomes `app_log`. -/
def snake (word : List Char) : List Char :=
  let cs := snakeFrom [] word
  ((cs.dropWhile (· == '_')).reverse.dropWhile (· == '_')).reverse

/-- The file name up to its first dot; a dot in front does not count. -/
def stemOf : List Char → List Char
  | [] => []
  | c :: rest => if c == '.' then c :: rest else c :: rest.takeWhile (· != '.')

/-- Stems that stand for the directory they are in. -/
def namesDirectory (stem : List Char) : Bool :=
  stem == "index".toList || stem == "__init__".toList

/-- The words that a path offers for a name. -/
def pathWords (stripSegments : List String) (path : String) : Option (List (List Char)) :=
  let segments := (path.toList.splitOn '/').filter (!·.isEmpty)
  segments.getLast?.map fun file =>
    let dirs := segments.dropLast.filter fun d => !stripSegments.contains (String.ofList d)
    let stem := stemOf file
    dirs.flatMap wordsOf ++ (if namesDirectory stem then [] else wordsOf stem)

/-- Join words and a suffix as a family writes names. -/
def joinWords (family : Family) (suffix : String) (first : List Char) (rest : List (List Char)) :
    List Char :=
  match family with
  | .javascript => lower first ++ rest.flatMap capitalize ++ suffix.toList
  | .python =>
    let tail := snake suffix.toList
    let words := (first :: rest).map lower ++ (if tail.isEmpty then [] else [tail])
    ['_'].intercalate words

/-- The name that the path of a file leads to, if it offers a word. -/
def ofPath? (family : Family) (s : FamilySettings) (path : String) : Option String :=
  match pathWords s.stripSegments path with
  | some (first :: rest) => some (String.ofList (joinWords family s.loggerSuffix first rest))
  | _ => none

/-- The name that is used if it is free. -/
def base (family : Family) (s : FamilySettings) (path : String) : String :=
  match s.naming with
  | fixed => s.loggerName
  | module => ((ofPath? family s path).filter family.isIdentifier).getD s.loggerName

/-- `name`, or `name` with the least number from two upwards that is not taken. -/
def free (taken : List String) (name : String) : String :=
  if taken.contains name then
    let numbered := (List.range (taken.length + 1)).map fun n => name ++ toString (n + 2)
    (numbered.find? (!taken.contains ·)).getD name
  else name

end Naming

/-- The name of a new logger in the file at `path`, in which the names `taken` are bound. -/
def newLoggerName (family : Family) (s : FamilySettings) (taken : List String) (path : String) :
    String :=
  Naming.free taken (Naming.base family s path)

end LogHygiene
