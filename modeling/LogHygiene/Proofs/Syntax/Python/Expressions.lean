import LogHygiene.Proofs.Syntax.Python.Words
import LogHygiene.Syntax.Python.Expression

/-!
# Python: expressions keep to the places of their text

Each rule is in place if the reader of inner expressions is, and so is the knot that ties them, by induction on its
depth (`keeps_read`).
-/

set_option autoImplicit false
-- The instance for a rule is about as large as the rule.
set_option synthInstance.maxSize 100000

namespace LogHygiene.Syntax.Python

open Reading Rule

variable {source : Bytes}

/-! ## Lists in brackets -/

section

variable (element : Rule Node) [Keeps source element]

instance keeps_furtherElements (e : LineEnd) (stop : Rule Bool) [Keeps source stop] :
    Keeps source (furtherElements element e stop) := by
  unfold furtherElements
  infer_instance

instance keeps_looseElements (e : LineEnd) : Keeps source (looseElements element e) := by
  unfold looseElements
  dsimp only
  infer_instance

instance keeps_elements (close : String) : Keeps source (elements element close) := by
  unfold elements
  infer_instance

end

instance keeps_atFor (e : LineEnd) : Keeps source (atFor e) := by
  unfold atFor
  refine keeps_then fun r => ?_
  split
  · rename_i cs r' hname
    have : Placed source r' := .snd_of_eq_some hname
    infer_instance
  · infer_instance

section

variable (inner : Python.Inner) [∀ goal e, Keeps source (inner goal e)]

instance keeps_whole (e : LineEnd) : Keeps source (inner.whole e) := by
  unfold Inner.whole
  infer_instance

instance keeps_targets (e : LineEnd) : Keeps source (targets inner e) := by
  unfold targets
  dsimp only
  infer_instance

instance keeps_forClause : Keeps source (forClause inner) := by
  unfold forClause
  infer_instance

instance keeps_comprehension : Keeps source (comprehension inner) := by
  unfold comprehension
  infer_instance

instance keeps_yieldExpression (e : LineEnd) : Keeps source (yieldExpression inner e) := by
  unfold yieldExpression
  infer_instance

instance keeps_spreadable : Keeps source (spreadable inner) := by
  unfold spreadable
  dsimp only
  infer_instance

instance keeps_elementOf : Keeps source (elementOf inner) := by
  unfold elementOf
  infer_instance

instance keeps_element : Keeps source (element inner) := by
  unfold element
  infer_instance

/-! ## Types and parameters -/

instance keeps_typesInBrackets (type : Rule Node) [Keeps source type] : Keeps source (typesInBrackets type) := by
  unfold typesInBrackets
  infer_instance

instance keeps_bounded (type : Rule Node) [Keeps source type] (e : LineEnd) (n : Nat) :
    Keeps source (bounded type e n) := by
  induction n with
  | zero => exact keeps_stuck
  | succ n ih =>
    unfold bounded
    infer_instance

instance keeps_typeUpTo (n : Nat) (e : LineEnd) : Keeps source (typeUpTo inner n e) := by
  induction n generalizing e with
  | zero => exact keeps_stuck
  | succ n ih =>
    unfold typeUpTo
    dsimp only
    infer_instance

instance keeps_freeType (e : LineEnd) : Keeps source (freeType inner e) := by
  unfold freeType
  exact keeps_of_reading fun r => inferInstance

instance keeps_typeExpression (e : LineEnd) : Keeps source (typeExpression inner e) := by
  unfold typeExpression
  exact keeps_of_reading fun r => inferInstance

instance keeps_tupleParameter : Keeps source (tupleParameter inner) := by
  unfold tupleParameter
  infer_instance

instance keeps_restParameter (e : LineEnd) : Keeps source (restParameter inner e) := by
  unfold restParameter
  infer_instance

instance keeps_parameter (typed : Bool) (e : LineEnd) : Keeps source (parameter inner typed e) := by
  unfold parameter
  dsimp only
  infer_instance

instance keeps_parameters (typed : Bool) (e : LineEnd) (close : String) :
    Keeps source (parameters inner typed e close) := by
  unfold parameters
  infer_instance

instance keeps_lambdaExpression (choice : Bool) (e : LineEnd) : Keeps source (lambdaExpression inner choice e) := by
  unfold lambdaExpression
  infer_instance

/-! ## Atoms -/

instance keeps_round (e : LineEnd) : Keeps source (round inner e) := by
  unfold round
  infer_instance

instance keeps_square (e : LineEnd) : Keeps source (square inner e) := by
  unfold square
  infer_instance

instance keeps_spreadEntries : Keeps source (spreadEntries inner) := by
  unfold spreadEntries
  infer_instance

instance keeps_entryOf (key : Node) [Placed source key] : Keeps source (entryOf inner key) := by
  unfold entryOf
  infer_instance

instance keeps_entry : Keeps source (entry inner) := by
  unfold entry
  infer_instance

instance keeps_braced (e : LineEnd) : Keeps source (braced inner e) := by
  unfold braced
  dsimp only
  infer_instance

instance keeps_argument : Keeps source (argument inner) := by
  unfold argument
  infer_instance

instance keeps_arguments (calls : Bool) (e : LineEnd) : Keeps source (arguments inner calls e) := by
  unfold arguments
  dsimp only
  infer_instance

instance keeps_subscript : Keeps source (subscript inner) := by
  unfold subscript
  dsimp only
  refine keeps_then fun start => keeps_then fun sliced => ?_
  -- with a bound before the colon or without one, what comes behind is the same
  split
  all_goals
    refine keeps_then fun first => keeps_then fun colon => ?_
    split
    · infer_instance
    · split
      · rename_i n hfirst
        have : Placed source n := ⟨first.2 n (hfirst ▸ List.mem_singleton_self n)⟩
        infer_instance
      · infer_instance

instance keeps_trailer (e : LineEnd) (n : Node) [Placed source n] : Keeps source (trailer inner e n) := by
  unfold trailer
  dsimp only
  infer_instance

instance keeps_embedded : Keeps source (embedded inner) := by
  unfold embedded
  infer_instance

instance keeps_atom (e : LineEnd) : Keeps source (atom inner e) := by
  unfold atom
  refine keeps_then fun r => ?_
  dsimp only
  split
  · infer_instance
  · split
    · infer_instance
    · split
      · rename_i r' hend
        have : Placed source r' := .of_eq_some hend
        infer_instance
      · infer_instance

instance keeps_partOf (e : LineEnd) (n : Node) [Placed source n] : Keeps source (partOf inner e n) := by
  unfold partOf
  dsimp only
  infer_instance

instance keeps_operand (e : LineEnd) : Keeps source (operand inner e) := by
  unfold operand
  dsimp only
  infer_instance

/-! ## Operators -/

instance keeps_joiningSign (e : LineEnd) : Keeps source (joiningSign e) := by
  unfold joiningSign
  refine keeps_then fun r => ?_
  split <;> infer_instance

instance keeps_operator (e : LineEnd) : Keeps source (operator e) := by
  unfold operator
  dsimp only
  infer_instance

instance keeps_side (choice : Bool) (e : LineEnd) : Keeps source (side inner choice e) := by
  unfold side
  infer_instance

instance keeps_joinedOperands (choice : Bool) (e : LineEnd) : Keeps source (joinedOperands inner choice e) := by
  unfold joinedOperands
  infer_instance

instance keeps_expression (choice : Bool) (e : LineEnd) : Keeps source (expression inner choice e) := by
  unfold expression
  dsimp only
  infer_instance

end

/-- Expressions of any depth keep to the places of their text. -/
instance keeps_read (n : Nat) (goal : Goal) (e : LineEnd) : Keeps source (read n goal e) := by
  induction n generalizing goal e with
  | zero => exact keeps_stuck
  | succ n ih =>
    cases goal with
    | expression choice => exact keeps_expression (read n) choice e
    | operand => exact keeps_operand (read n) e

end LogHygiene.Syntax.Python
