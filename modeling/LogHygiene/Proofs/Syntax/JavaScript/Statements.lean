import LogHygiene.Proofs.Syntax.JavaScript.Expressions
import LogHygiene.Syntax.JavaScript.Mending

/-!
# JavaScript: statements keep to the places of their text

Declarations, imports and statements are in place if the reader of everything else is. All rules are tied by one knot,
and that is in place by induction on its depth, for every dialect at once, since an expression may be read in another
dialect than the one around it. So a whole file is (`keeps_file`), and so is every word that is taken from a broken one
(`keeps_word`).
-/

set_option autoImplicit false
-- The instance for a rule is about as large as the rule.
set_option synthInstance.maxSize 100000

namespace LogHygiene.Syntax.JavaScript

open Reading Rule

variable {source : Bytes}

section

variable (d : Dialect) (inner : JavaScript.Inner) [∀ goal, Keeps source (inner goal)]

/-! ## Declarations -/

instance keeps_classMember : Keeps source (classMember d inner) := by
  unfold classMember
  refine keeps_then fun r => keeps_then fun ds => ?_
  extract_lets demand ended signatures member
  have hdemand : ∀ b, Keeps source (demand b) := fun b => by
    dsimp only [demand]
    infer_instance
  have hended : ∀ mid, Keeps source (ended mid) := fun mid => by
    dsimp only [ended]
    infer_instance
  have hmember : ∀ signed : Here source (Option Node), Keeps source (member signed.1) := by
    intro signed
    dsimp only [member]
    clear_value demand ended signatures
    split
    · rename_i n hsigned
      have : Placed source n := ⟨signed.2 n hsigned⟩
      infer_instance
    · infer_instance
  clear_value member
  infer_instance

instance keeps_classBody : Keeps source (classBody d inner) := by
  unfold classBody
  infer_instance

instance keeps_classDeclaration : Keeps source (classDeclaration d inner) := by
  unfold classDeclaration
  infer_instance

instance keeps_goesOnWithValue : Keeps source (goesOnWithValue d) := by
  unfold goesOnWithValue
  infer_instance

instance keeps_declarator : Keeps source (declarator d inner) := by
  unfold declarator
  infer_instance

instance keeps_variableStatement : Keeps source (variableStatement d inner) := by
  unfold variableStatement
  infer_instance

instance keeps_functionDeclaration : Keeps source (functionDeclaration d inner) := by
  unfold functionDeclaration
  infer_instance

instance keeps_dottedName : Keeps source dottedName := by
  unfold dottedName
  infer_instance

instance keeps_typeAlias : Keeps source (typeAlias d inner) := by
  unfold typeAlias
  infer_instance

instance keeps_interface : Keeps source (interface d inner) := by
  unfold interface
  infer_instance

instance keeps_enumeration : Keeps source (enumeration inner) := by
  unfold enumeration
  infer_instance

instance keeps_moduleDeclaration : Keeps source (moduleDeclaration inner) := by
  unfold moduleDeclaration
  infer_instance

instance keeps_importAlias : Keeps source (importAlias d) := by
  unfold importAlias
  infer_instance

instance keeps_ambient : Keeps source (ambient d inner) := by
  unfold ambient
  infer_instance

/-! ## Imports and exports -/

instance keeps_exchangedName : Keeps source exchangedName := by
  unfold exchangedName
  infer_instance

instance keeps_exchanged (imports : Bool) (kind : Kind) [Placed source kind] :
    Keeps source (exchanged d imports kind) := by
  unfold exchanged
  infer_instance

instance keeps_exchangedNames (imports : Bool) (kind inside : Kind) [Placed source kind] [Placed source inside] :
    Keeps source (exchangedNames d imports kind inside) := by
  unfold exchangedNames
  infer_instance

instance keeps_sourceClause : Keeps source sourceClause := by
  unfold sourceClause
  infer_instance

instance keeps_namespaceImport : Keeps source namespaceImport := by
  unfold namespaceImport
  infer_instance

instance keeps_importClause : Keeps source (importClause d) := by
  unfold importClause
  infer_instance

instance keeps_importAttributes : Keeps source (importAttributes d inner) := by
  unfold importAttributes
  infer_instance

instance keeps_importRequire : Keeps source (importRequire d) := by
  unfold importRequire
  infer_instance

instance keeps_importStatement : Keeps source (importStatement d inner) := by
  unfold importStatement
  infer_instance

instance keeps_exportedDeclaration : Keeps source (exportedDeclaration d inner) := by
  unfold exportedDeclaration
  infer_instance

instance keeps_exportRest : Keeps source (exportRest d inner) := by
  unfold exportRest
  infer_instance

instance keeps_exportStatement : Keeps source (exportStatement d inner) := by
  unfold exportStatement
  infer_instance

/-! ## Statements -/

instance keeps_condition : Keeps source (condition inner) := by
  unfold condition
  infer_instance

instance keeps_ifStatement : Keeps source (ifStatement inner) := by
  unfold ifStatement
  infer_instance

instance keeps_atCase : Keeps source atCase := by
  unfold atCase
  infer_instance

instance keeps_switchStatement : Keeps source (switchStatement inner) := by
  unfold switchStatement
  infer_instance

instance keeps_loopOver : Keeps source (loopOver d inner) := by
  unfold loopOver
  infer_instance

instance keeps_loopCount : Keeps source (loopCount d inner) := by
  unfold loopCount
  infer_instance

instance keeps_loopOver' : Keeps source (forStatement.loopOver' d inner) := by
  unfold forStatement.loopOver'
  infer_instance

instance keeps_forStatement : Keeps source (forStatement d inner) := by
  unfold forStatement
  infer_instance

instance keeps_doStatement : Keeps source (doStatement d inner) := by
  unfold doStatement
  infer_instance

instance keeps_tryStatement : Keeps source (tryStatement d inner) := by
  unfold tryStatement
  infer_instance

instance keeps_guarded (k : String) : Keeps source (guarded inner k) := by
  unfold guarded
  infer_instance

instance keeps_jump (k : String) : Keeps source (jump d k) := by
  unfold jump
  infer_instance

instance keeps_result (k : String) : Keeps source (result d inner k) := by
  unfold result
  infer_instance

instance keeps_expressionStatement : Keeps source (expressionStatement d inner) := by
  unfold expressionStatement
  infer_instance

instance keeps_labeled : Keeps source (labeled inner) := by
  unfold labeled
  infer_instance

instance keeps_block : Keeps source (block d inner) := by
  unfold block
  infer_instance

instance keeps_statementOrValue (p : Rule Node) [Keeps source p] : Keeps source (statementOrValue d inner p) := by
  unfold statementOrValue
  infer_instance

instance keeps_isNamed : Keeps source (isNamed d) := by
  unfold isNamed
  infer_instance

instance keeps_declarationOrValue (p : Rule Node) [Keeps source p] : Keeps source (declarationOrValue d inner p) := by
  unfold declarationOrValue
  infer_instance

instance keeps_typedStatement (w : String) : Keeps source (typedStatement d inner w) := by
  unfold typedStatement
  refine keeps_then fun s => ?_
  dsimp only
  split <;> infer_instance

instance keeps_declaration : Keeps source (declaration d inner) := by
  unfold declaration
  infer_instance

instance keeps_statementOf (w : String) : Keeps source (statementOf d inner w) := by
  unfold statementOf
  refine keeps_then fun s => ?_
  dsimp only
  split <;> infer_instance

instance keeps_statement : Keeps source (statement d inner) := by
  unfold statement
  infer_instance

end

/-- Whatever is read at any depth keeps to the places of its text, in every dialect. -/
instance keeps_read (d : Dialect) (n : Nat) (goal : Goal) : Keeps source (read d n goal) := by
  induction n generalizing d goal with
  | zero => exact keeps_stuck
  | succ n ih =>
    unfold read
    cases goal <;> infer_instance

/-- A file keeps to the places of its text. -/
instance keeps_file (d : Dialect) : Keeps source (file d) := by
  unfold file
  dsimp only
  infer_instance

/-! ## Words of broken text -/

instance keeps_word : Keeps source word := by
  unfold word
  refine keeps_then fun r => keeps_then fun _ => ?_
  split
  rename_i kind after hword
  have : Placed source after := by
    split at hword <;> obtain ⟨-, rfl⟩ := Prod.mk.inj hword
    · exact Placed.snd_of_eq_some ‹nameAt r.1 = some _›
    · exact Placed.of_eq_some ‹numeralEnd r.1 = some _›
    · infer_instance
    · infer_instance
  infer_instance

end LogHygiene.Syntax.JavaScript
