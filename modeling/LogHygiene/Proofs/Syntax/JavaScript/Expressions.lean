import LogHygiene.Proofs.Syntax.JavaScript.Types
import LogHygiene.Syntax.JavaScript.Expression

/-!
# JavaScript: expressions keep to the places of their text

An operand grows by what follows it, and each step takes its places from the operand and from what was read. So does a
pattern that was read as a value first: it is the same node with another kind.
-/

set_option autoImplicit false
-- The instance for a rule is about as large as the rule.
set_option synthInstance.maxSize 100000

namespace LogHygiene.Syntax.JavaScript

open Reading Rule

variable {source : Bytes}

instance : Placing Operand := ⟨fun source o => o.node.Within source⟩

instance placed_operandNode (o : Operand) [h : Placed source o] : Placed source o.node := ⟨h.within⟩

instance placed_operand (node : Node) (whole : Bool) [h : Placed source node] :
    Placed source ({ node, whole } : Operand) := ⟨h.within⟩

section

variable (d : Dialect) (inner : JavaScript.Inner) [∀ goal, Keeps source (inner goal)]

/-! ## Functions and classes -/

instance keeps_couldBeObject : Keeps source (couldBeObject d) := by
  unfold couldBeObject
  infer_instance

instance keeps_arrowBody : Keeps source (arrowBody d inner) := by
  unfold arrowBody
  infer_instance

instance keeps_arrowFunction (start : Position) [Placed source start] : Keeps source (arrowFunction d inner start) := by
  unfold arrowFunction
  infer_instance

instance keeps_functionExpression : Keeps source (functionExpression d inner) := by
  unfold functionExpression
  infer_instance

instance keeps_typedBase : Keeps source (typedBase inner) := by
  unfold typedBase
  infer_instance

instance keeps_heritage : Keeps source (heritage d inner) := by
  unfold heritage
  infer_instance

instance keeps_classExpression : Keeps source (classExpression d inner) := by
  unfold classExpression
  infer_instance

/-! ## Literals with parts -/

instance keeps_objectEntry : Keeps source (objectEntry d inner) := by
  unfold objectEntry
  infer_instance

instance keeps_objectLiteral : Keeps source (objectLiteral d inner) := by
  unfold objectLiteral
  infer_instance

instance keeps_arrayLiteral : Keeps source (arrayLiteral inner) := by
  unfold arrayLiteral
  infer_instance

instance keeps_asPattern (n : Node) [Placed source n] : Keeps source (asPattern n) := by
  unfold asPattern
  infer_instance

instance keeps_literalOrPattern (literal : Rule Node) [Keeps source literal] :
    Keeps source (literalOrPattern inner literal) := by
  unfold literalOrPattern
  infer_instance

instance keeps_parenthesized : Keeps source (parenthesized d inner) := by
  unfold parenthesized
  refine keeps_then fun r => keeps_then fun _ => ?_
  have hinside : Keeps source (do
      let start ← begin
      let first ← inner .expression
      match ← furtherParts (inner .expression) with
      | [] => return first :: (← annotation d inner)
      | more => List.singleton <$> Rule.phrase .expression start (first :: more) : Rule (List Node)) := by
    refine keeps_then fun start => keeps_then fun first => keeps_then fun more => ?_
    split
    · infer_instance
    · infer_instance
  infer_instance

instance keeps_parenthesizedOrArrow : Keeps source (parenthesizedOrArrow d inner) := by
  unfold parenthesizedOrArrow
  infer_instance

instance keeps_typeAssertion : Keeps source (typeAssertion inner) := by
  unfold typeAssertion
  infer_instance

/-! ## Operands -/

instance keeps_endsValue : Keeps source endsValue := by
  unfold endsValue
  infer_instance

instance keeps_valueTypeArguments : Keeps source (valueTypeArguments inner) := by
  unfold valueTypeArguments
  infer_instance

instance keeps_callOf (n : Node) [Placed source n] (types : List Node) [Placed source types] :
    Keeps source (callOf inner n types) := by
  unfold callOf
  infer_instance

instance keeps_trailer (o : Operand) [Placed source o] : Keeps source (trailer d inner o) := by
  unfold trailer
  infer_instance

instance keeps_construction (atom : Rule Node) [Keeps source atom] (n : Nat) :
    Keeps source (construction d inner atom n) := by
  induction n with
  | zero => exact keeps_stuck
  | succ n ih =>
    unfold construction
    dsimp only
    refine keeps_then fun r => keeps_then fun _ => keeps_then fun target => keeps_unless (keeps_then fun imports => ?_)
    split
    · infer_instance
    · infer_instance

instance keeps_missingOperand : Keeps source missingOperand := by
  unfold missingOperand
  infer_instance

instance keeps_wordAtom (atom : Rule Node) [Keeps source atom] : Keeps source (wordAtom d inner atom) := by
  unfold wordAtom
  refine keeps_then fun r => keeps_then fun w => keeps_then fun s => ?_
  refine keeps_unless ?_
  split <;> infer_instance

instance keeps_atom (n : Nat) : Keeps source (atom d inner n) := by
  induction n with
  | zero => exact keeps_stuck
  | succ n ih =>
    unfold atom
    refine keeps_then fun start => keeps_then fun r => ?_
    dsimp only
    split
    case h_11 =>
      split
      · rename_i r' hend
        have : Placed source r' := .of_eq_some hend
        infer_instance
      · infer_instance
    all_goals infer_instance

instance keeps_assigned (n : Node) [Placed source n] : Keeps source (assigned inner n) := by
  unfold assigned
  refine keeps_then fun r => ?_
  dsimp only
  refine keeps_unless (keeps_then fun equals => keeps_unless (keeps_unless ?_))
  split <;> infer_instance

instance keeps_countingSign : Keeps source countingSign := by
  unfold countingSign
  infer_instance

instance keeps_extended (first : Operand) [Placed source first] : Keeps source (extended d inner first) := by
  unfold extended
  infer_instance

instance keeps_completed (first : Operand) [Placed source first] : Keeps source (completed d inner first) := by
  unfold completed
  infer_instance

instance keeps_firstOperand : Keeps source (firstOperand d inner) := by
  unfold firstOperand
  infer_instance

instance keeps_yieldExpression : Keeps source (yieldExpression d inner) := by
  unfold yieldExpression
  infer_instance

instance keeps_disposed : Keeps source (disposed d inner) := by
  unfold disposed
  infer_instance

instance keeps_operand : Keeps source (operand d inner) := by
  unfold operand
  infer_instance

/-! ## Operators -/

instance keeps_joiningSign : Keeps source joiningSign := by
  unfold joiningSign
  infer_instance

instance keeps_castType : Keeps source (castType inner) := by
  unfold castType
  infer_instance

instance keeps_cast : Keeps source (cast d inner) := by
  unfold cast
  infer_instance

instance keeps_joined (start : Position) (ns : List Node) [Placed source start] [hns : Placed source ns] :
    Keeps source (joined start ns) := by
  unfold joined
  split
  · rename_i n
    have : Placed source n := ⟨hns.within n (List.mem_singleton_self n)⟩
    infer_instance
  · infer_instance

instance keeps_joinedBySigns : Keeps source (joinedBySigns inner) := by
  unfold joinedBySigns
  infer_instance

instance keeps_chain (start : Position) [Placed source start] (ns : List Node) [Placed source ns] :
    Keeps source (chain d inner start ns) := by
  unfold chain
  infer_instance

instance keeps_atQuestion : Keeps source atQuestion := by
  unfold atQuestion
  infer_instance

instance keeps_firstAnswer : Keeps source (firstAnswer d inner) := by
  unfold firstAnswer
  infer_instance

instance keeps_expression : Keeps source (expression d inner) := by
  unfold expression
  infer_instance

instance keeps_expressions : Keeps source (expressions inner) := by
  unfold expressions
  refine keeps_then fun start => keeps_then fun ns => ?_
  split
  · rename_i n hns
    have : Placed source n := ⟨ns.2 n (hns ▸ List.mem_singleton_self n)⟩
    infer_instance
  · infer_instance

end

end LogHygiene.Syntax.JavaScript
