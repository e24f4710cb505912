import LogHygiene.Syntax.JavaScript.Literal

/-!
# JavaScript: what can be read, and names of properties

Expressions hold statements and statements hold expressions, so one knot ties all rules. A rule takes
the reader of everything else as an argument and asks it for a `Goal`.
-/

set_option autoImplicit false

namespace LogHygiene.Syntax.JavaScript

/-- What a rule can be asked for. -/
inductive Goal where
  /-- an expression without commas -/
  | expression
  /-- an expression in which no arrow function states the type of its result -/
  | consequence
  /-- expressions parted by commas -/
  | expressions
  /-- an operand of an operator -/
  | operand
  /-- what an assignment or a parameter gives a value to -/
  | pattern
  | type
  | statement
  /-- a declaration where no other statement can stand -/
  | declaration
  /-- statements in braces -/
  | block
  /-- the members of a class in braces -/
  | classBody
  deriving DecidableEq, Repr, Inhabited

/-- The reader of everything else. -/
abbrev Inner := Goal → Rule Node

/-! ## Lists -/

/-- Elements parted by commas up to the closing sign, which is not taken. Places between commas may be
empty. -/
def separated (element : Rule Node) (close : String) : Rule (List Node) := do
  let atEnd : Rule Bool := do
    if ← atSign close then pure true else atSign ","
  let slot : Rule (List Node) := do
    if ← atEnd then pure [] else List.singleton <$> element
  let first ← slot
  let comma ← ahead
  let more ← Rule.many do
    if ← atSign close then pure none
    else
      sign ","
      let ns ← slot
      Rule.row true comma.pos
      pure (some ns)
  pure (first ++ more.flatten)

/-- Elements parted by commas up to the closing sign, which is not taken. A comma may follow the last
element. -/
def listed (element : Rule Node) (close : String) : Rule (List Node) := do
  if ← atSign close then pure []
  else
    let first ← element
    let comma ← ahead
    let more ← Rule.many do
      if ← atSign close then pure none
      else
        sign ","
        if ← atSign close then pure (some [])
        else
          let n ← element
          Rule.row true comma.pos
          pure (some [n])
    pure (first :: more.flatten)

/-- At least one element, as in `listed`. -/
def listedSome (element : Rule Node) (close : String) : Rule (List Node) := do
  let ns ← listed element close
  if ns.isEmpty then element *> Rule.stuck else pure ns

/-- Elements as in `listed`; a comma may also stand alone. -/
def listedLoosely (element : Rule Node) (close : String) : Rule (List Node) := do
  if ← trySign "," then pure [] else listed element close

/-- More elements, each behind a comma, as long as commas come. -/
def furtherParts (element : Rule Node) : Rule (List Node) := do
  let comma ← ahead
  Rule.many do
    if ← trySign "," then
      let n ← element
      Rule.row true comma.pos
      pure (some n)
    else pure none

/-- Elements parted by commas, as long as commas come. -/
def parted (element : Rule Node) : Rule (List Node) := do
  let first ← element
  return first :: (← furtherParts element)

/-- An argument, or an element of an array. -/
def argument (inner : Inner) : Rule Node := do
  let r ← ahead
  if ← trySign "..." then
    let e ← inner .expression
    Rule.phrase .splat r.pos [e]
  else inner .expression

/-- The arguments of a call. -/
def arguments (inner : Inner) : Rule Node := do
  let r ← ahead
  sign "("
  let es ← Rule.enclosed (separated (argument inner) ")")
  sign ")"
  Rule.node .clause r.pos es

/-! ## Names of properties -/

/-- Whether a property could be named here. -/
def startsPropertyName (r : Reading) : Bool :=
  (nameAt r).isSome || ['"', '\'', '[', '#'].contains r.peek || r.peek.isDigit ||
    (r.peek == '.' && r.peekSecond.isDigit)

/-- A name that only the class itself can see. -/
def privateName : Rule Node := do
  let r ← ahead
  match if r.peek == '#' then nameAt r.step else none with
  | some (_, r') =>
    Rule.goTo r'
    Rule.node .expression r.pos []
  | none => Rule.stuckAt r.pos.byte

/-- The name of a property, of the given kind when it is a plain name. -/
def propertyName (inner : Inner) (kind : Kind) : Rule Node := do
  let r ← ahead
  if r.peek == '"' || r.peek == '\'' then stringLiteral
  else if r.peek == '[' then
    sign "["
    let e ← Rule.enclosed (inner .expression)
    sign "]"
    Rule.node .clause r.pos [e]
  else if r.peek == '#' then privateName
  else match numeralEnd r with
    | some r' =>
      Rule.goTo r'
      Rule.node .expression r.pos []
    | none => name kind

/-! ## Words in front of a member -/

/-- The word that stands for all words of its place in the order of modifiers. -/
def modifierClass (w : String) : String :=
  if w == "private" || w == "protected" then "public"
  else if w == "set" || w == "*" then "get"
  else w

/-- The orders in which words can stand in front of a method. -/
def methodOrders (d : Dialect) : List (List String) :=
  if d.types then [["public", "static", "override", "readonly", "async", "get"]]
  else [["static", "async", "get"]]

/-- The orders in which words can stand in front of a method without a body. -/
def signatureOrders : List (List String) :=
  [["public", "static", "override", "readonly", "async", "get"],
   ["public", "abstract", "override", "get"]]

/-- The orders in which words can stand in front of a field. -/
def fieldOrders (d : Dialect) : List (List String) :=
  if d.types then
    [["declare", "public"], ["public", "declare"]].flatMap fun before =>
      [["static", "override", "readonly"], ["abstract", "readonly"], ["readonly", "abstract"],
        ["accessor"]].map (before ++ ·)
  else [["static"]]

/-- Whether words stand in one of the orders. -/
def inOrder (orders : List (List String)) (ws : List String) : Bool :=
  orders.any (fun order => ws.isSublist order)

/-- Words that cannot be the name of a member where they can stand in front of one. -/
def pureModifiers : List String := ["abstract", "accessor"]

/-- Take the words in front of a member. A word is one of them only when the name of the member still
comes behind it; most words can also be that name, and with the line the member would end. -/
def passModifiers (d : Dialect) (orders : List (List String)) : Rule (List String) :=
  Rule.iterate (fun taken => do
    if (← nextChar) == '*' then
      if inOrder orders (taken ++ ["get"]) then
        sign "*"
        pure (some (taken ++ ["get"]))
      else pure none
    else
      let w ← nextWord
      let s ← secondWord
      let more := taken ++ [modifierClass w]
      let starred := s.peek == '*' && inOrder orders (more ++ ["get"])
      let ends ← Rule.onlyIf (!pureModifiers.contains w) (endsBehindWord d.types false)
      if inOrder orders more && (startsPropertyName s || starred) && !ends then
        keyword w
        pure (some more)
      else pure none) []

end LogHygiene.Syntax.JavaScript
