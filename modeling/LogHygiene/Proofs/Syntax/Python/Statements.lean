import LogHygiene.Proofs.Syntax.Python.Expressions
import LogHygiene.Syntax.Python.Mending

/-!
# Python: statements keep to the places of their text

A simple statement is in place because its expressions are, a compound one because the statements in its blocks are, and
the knot that ties them again is, by induction on the depth of blocks. So a whole file is (`keeps_file`), and so is
every word that is taken from a broken one (`keeps_word`).
-/

set_option autoImplicit false
-- The instance for a rule is about as large as the rule.
set_option synthInstance.maxSize 100000

namespace LogHygiene.Syntax.Python

open Reading Rule

variable {source : Bytes}

instance keeps_inner (goal : Goal) (e : LineEnd) : Keeps source (inner goal e) := by
  unfold inner
  exact keeps_of_reading fun r => inferInstance

instance keeps_whole_expression (e : LineEnd) : Keeps source (whole e) := by
  unfold whole
  infer_instance

instance keeps_wholeAfterWord : Keeps source wholeAfterWord := by
  unfold wholeAfterWord
  infer_instance

instance keeps_expressions (e : LineEnd) : Keeps source (expressions e) := by
  unfold expressions
  infer_instance

/-! ## Assignments -/

instance keeps_targetOf (start : Position) (es : List Node) (comma : Bool) [Placed source start]
    [hes : Placed source es] : Keeps source (targetOf start es comma) := by
  have hpattern : ∀ (r : Reading) (n : Node) [Placed source n], Keeps source (match toPattern r.budget n with
      | some p => pure p
      | none => Rule.stuck : Rule Node) := by
    intro r n _
    split
    · rename_i p hp
      have : Placed source p := .of_eq_some hp
      infer_instance
    · infer_instance
  unfold targetOf
  dsimp only
  refine keeps_then fun r => ?_
  split
  · exact keeps_then fun n => hpattern r.1 n.1
  · split
    · rename_i n
      have : Placed source n := ⟨hes.within n (List.mem_singleton_self n)⟩
      exact keeps_then fun n => hpattern r.1 n.1
    · exact keeps_then fun n => hpattern r.1 n.1

instance keeps_atEquals : Keeps source atEquals := by
  unfold atEquals
  infer_instance

instance keeps_assignable (n : Nat) : Keeps source (assignable n) := by
  induction n with
  | zero => exact keeps_stuck
  | succ n ih =>
    unfold assignable
    refine keeps_then fun _ => keeps_then fun start => ?_
    extract_lets given
    have hgiven : Keeps source given := by
      refine keeps_then fun _ => keeps_then fun start => keeps_then fun x => ?_
      obtain ⟨⟨ns, comma⟩, hns, -⟩ := x
      have : Placed source ns := ⟨hns⟩
      dsimp only
      split
      · rename_i n hpair
        obtain ⟨rfl, -⟩ := Prod.mk.inj hpair
        have : Placed source n := ⟨hns n (List.mem_singleton_self n)⟩
        infer_instance
      · rename_i hpair
        obtain ⟨rfl, -⟩ := Prod.mk.inj hpair
        infer_instance
    refine keeps_then fun yields => ?_
    split
    · infer_instance
    · refine keeps_then fun es => keeps_then fun r => ?_
      dsimp only
      split
      · infer_instance
      · refine keeps_then fun equals => ?_
        split
        · infer_instance
        · split <;> infer_instance

instance keeps_expressionStatement : Keeps source expressionStatement := by
  unfold expressionStatement
  infer_instance

/-! ## Imports -/

instance keeps_dottedName (e : LineEnd) : Keeps source (dottedName e) := by
  unfold dottedName
  infer_instance

instance keeps_importName (e : LineEnd) : Keeps source (importName e) := by
  unfold importName
  infer_instance

instance keeps_importNames (e : LineEnd) : Keeps source (importNames e) := by
  unfold importNames
  infer_instance

instance keeps_importList : Keeps source importList := by
  unfold importList
  infer_instance

instance keeps_sourceModule : Keeps source sourceModule := by
  unfold sourceModule
  infer_instance

instance keeps_importStatement : Keeps source importStatement := by
  unfold importStatement
  infer_instance

instance keeps_importFromStatement : Keeps source importFromStatement := by
  unfold importFromStatement
  infer_instance

/-! ## Simple statements -/

instance keeps_keywordStatement (k : String) (body : Rule (List Node)) [Keeps source body] :
    Keeps source (keywordStatement k body) := by
  unfold keywordStatement
  infer_instance

instance keeps_optionalExpressions : Keeps source optionalExpressions := by
  unfold optionalExpressions
  infer_instance

instance keeps_names : Keeps source names := by
  unfold names
  infer_instance

instance keeps_requiredExpressions : Keeps source requiredExpressions := by
  unfold requiredExpressions
  infer_instance

instance keeps_raiseBody : Keeps source raiseBody := by
  unfold raiseBody
  infer_instance

instance keeps_printBody : Keeps source printBody := by
  unfold printBody
  infer_instance

instance keeps_execBody : Keeps source execBody := by
  unfold execBody
  infer_instance

instance keeps_typeBody : Keeps source typeBody := by
  unfold typeBody
  infer_instance

instance keeps_complete : Keeps source complete := by
  unfold complete
  infer_instance

instance keeps_simpleStatement : Keeps source simpleStatement := by
  unfold simpleStatement
  refine keeps_then fun w => ?_
  dsimp only
  split <;> infer_instance

instance keeps_simpleStatements : Keeps source simpleStatements := by
  unfold simpleStatements
  infer_instance

/-! ## Blocks -/

instance placed_passComment? (n : Nat) (r : Reading) [Placed source r] : Placed source (passComment? n r) := by
  induction n generalizing r with
  | zero => exact placed_none
  | succ n ih =>
    unfold passComment?
    split
    · rename_i r' hfault
      have : Placed source r' := .of_eq_some hfault
      infer_instance
    · split
      · infer_instance
      · split
        · infer_instance
        · split
          · infer_instance
          · split <;> infer_instance

instance placed_passBlockComments (n : Nat) (r : Reading) [Placed source r] :
    Placed source (passBlockComments n r) := by
  induction n generalizing r with
  | zero => exact placed_pair true r
  | succ n ih =>
    unfold passBlockComments
    split
    · infer_instance
    · split
      · rename_i r' hcomment
        have : Placed source r' := .of_eq_some hcomment
        infer_instance
      · infer_instance

instance keeps_blockEnds : Keeps source blockEnds := by
  refine ⟨fun r hr => ?_⟩
  have : Placed source r := ⟨hr⟩
  have hpassed : Placed source (passBlockComments r.budget r) := inferInstance
  exact ⟨trivial, hpassed.within.2⟩

instance keeps_leaveBlock : Keeps source leaveBlock := by
  unfold leaveBlock
  infer_instance

section

variable (statement : Statements) [Keeps source statement]

instance keeps_indented : Keeps source (indented statement) := by
  unfold indented
  infer_instance

instance keeps_passLineComments : Keeps source passLineComments := by
  unfold passLineComments
  infer_instance

instance keeps_block (first : Statements) [Keeps source first] : Keeps source (block first statement) := by
  unfold block
  dsimp only
  infer_instance

instance keeps_suite : Keeps source (suite statement) := by
  unfold suite
  infer_instance

instance keeps_goesOn (k : String) : Keeps source (goesOn k) := by
  refine ⟨fun r hr => ?_⟩
  unfold goesOn
  split
  · exact ⟨trivial, hr⟩
  · exact (keeps_atKeyword .bracketed k).within r hr

instance keeps_part (k : String) (heading : Rule (List Node)) [Keeps source heading] :
    Keeps source (part statement k heading) := by
  unfold part
  infer_instance

instance keeps_optionalPart (k : String) (heading : Rule (List Node)) [Keeps source heading] :
    Keeps source (optionalPart statement k heading) := by
  unfold optionalPart
  infer_instance

/-! ## Compound statements -/

instance keeps_condition : Keeps source condition := by
  unfold condition
  infer_instance

instance keeps_exceptHeading : Keeps source exceptHeading := by
  unfold exceptHeading
  infer_instance

instance keeps_exceptGroupHeading : Keeps source exceptGroupHeading := by
  unfold exceptGroupHeading
  infer_instance

instance keeps_atExceptGroup : Keeps source atExceptGroup := by
  unfold atExceptGroup
  infer_instance

instance keeps_ifStatement : Keeps source (ifStatement statement) := by
  unfold ifStatement
  infer_instance

instance keeps_whileStatement : Keeps source (whileStatement statement) := by
  unfold whileStatement
  infer_instance

instance keeps_forStatement (start : Position) [Placed source start] : Keeps source (forStatement statement start) := by
  unfold forStatement
  infer_instance

instance keeps_tryStatement : Keeps source (tryStatement statement) := by
  unfold tryStatement
  infer_instance

instance keeps_withItems : Keeps source withItems := by
  unfold withItems
  infer_instance

instance keeps_withStatement (start : Position) [Placed source start] :
    Keeps source (withStatement statement start) := by
  unfold withStatement
  infer_instance

instance keeps_typeParameters : Keeps source typeParameters := by
  unfold typeParameters
  infer_instance

instance keeps_functionDefinition (start : Position) [Placed source start] :
    Keeps source (functionDefinition statement start) := by
  unfold functionDefinition
  infer_instance

instance keeps_classDefinition : Keeps source (classDefinition statement) := by
  unfold classDefinition
  infer_instance

instance keeps_caseClause : Keeps source (caseClause statement) := by
  unfold caseClause
  infer_instance

instance keeps_matchStatement : Keeps source (matchStatement statement) := by
  unfold matchStatement
  infer_instance

instance keeps_asyncStatement : Keeps source (asyncStatement statement) := by
  unfold asyncStatement
  refine keeps_then fun start => keeps_then fun isAsync => keeps_then fun w => ?_
  dsimp only
  split <;> infer_instance

instance keeps_decoratedDefinition : Keeps source (decoratedDefinition statement) := by
  unfold decoratedDefinition
  infer_instance

instance keeps_statementLine : Keeps source (statementLine statement) := by
  unfold statementLine
  refine keeps_then fun r => keeps_then fun back => ?_
  dsimp only
  split
  · split
    · infer_instance
    · refine keeps_then fun _ => keeps_then fun w => ?_
      split <;> infer_instance
  · split
    · infer_instance
    · refine keeps_then fun w => ?_
      split <;> infer_instance

end

instance keeps_statements (n : Nat) : Keeps source (statements n) := by
  induction n with
  | zero => exact keeps_stuck
  | succ n ih => exact keeps_statementLine (statements n)

/-- A file keeps to the places of its text. -/
instance keeps_file : Keeps source file := by
  unfold file
  infer_instance

/-! ## Words of broken text -/

instance keeps_word : Keeps source word := by
  unfold word
  refine keeps_then fun r => keeps_then fun _ => ?_
  split
  rename_i kind after hword
  have : Placed source after := by
    split at hword <;> obtain ⟨-, rfl⟩ := Prod.mk.inj hword
    · exact Placed.snd_of_eq_some ‹openingAt r.1 = some _›
    · exact Placed.snd_of_eq_some ‹nameAt r.1 = some _›
    · exact Placed.of_eq_some ‹numberEnd r.1 = some _›
    · infer_instance
    · infer_instance
  infer_instance

end LogHygiene.Syntax.Python
