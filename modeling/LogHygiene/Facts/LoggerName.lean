import LogHygiene.Text.Letter

/-!
# Names that read like loggers

A name reads like a logger when it starts small and is `log` or `logger` or ends so as a word of its
own. Names of classes start with a capital, and names of factories start with a verb (`getLogger`), so
neither passes.
-/

set_option autoImplicit false

namespace LogHygiene

open Text

/-- Verbs that make a name a factory's. -/
def factoryVerbs : List String := ["get", "create", "make", "build", "new", "setup", "init"]

/-- Whether a verb stands in front of the name as a word of its own. -/
def namesFactory (name : List Char) : Bool :=
  factoryVerbs.any fun verb =>
    verb.toList.isPrefixOf name &&
      match name.drop verb.length with
      | c :: _ => c == '_' || isUpper c
      | [] => false

/-- Whether a name reads like a logger. -/
def looksLikeLogger (name : String) : Bool :=
  let cs := name.toList
  let bare := cs.dropWhile (· == '_')
  match bare with
  | [] => false
  | first :: _ =>
    isLower first && !namesFactory bare &&
      (bare == "log".toList || bare == "logger".toList ||
        ["Logger", "Log", "_logger", "_log"].any (fun s => s.toList.isSuffixOf cs))

end LogHygiene
