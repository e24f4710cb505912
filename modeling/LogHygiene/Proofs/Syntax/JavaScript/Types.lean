import LogHygiene.Proofs.Syntax.JavaScript.Words
import LogHygiene.Syntax.JavaScript.Markup

/-!
# JavaScript: patterns, types and elements keep to the places of their text

Each rule is in place if the reader of everything else is. What is read in two ways, as the entry of a pattern whose
brackets may belong to its name, is in place in both.
-/

set_option autoImplicit false
-- The instance for a rule is about as large as the rule.
set_option synthInstance.maxSize 100000

namespace LogHygiene.Syntax.JavaScript

open Reading Rule

variable {source : Bytes}

/-! ## Lists -/

section

variable (element : Rule Node) [Keeps source element]

instance keeps_separated (close : String) : Keeps source (separated element close) := by
  unfold separated
  infer_instance

instance keeps_listed (close : String) : Keeps source (listed element close) := by
  unfold listed
  infer_instance

instance keeps_listedSome (close : String) : Keeps source (listedSome element close) := by
  unfold listedSome
  infer_instance

instance keeps_listedLoosely (close : String) : Keeps source (listedLoosely element close) := by
  unfold listedLoosely
  infer_instance

instance keeps_furtherParts : Keeps source (furtherParts element) := by
  unfold furtherParts
  infer_instance

instance keeps_parted : Keeps source (parted element) := by
  unfold parted
  infer_instance

end

instance keeps_privateName : Keeps source privateName := by
  unfold privateName
  refine keeps_then fun r => ?_
  split
  · rename_i r' hname
    split at hname
    · have : Placed source r' := .snd_of_eq_some hname
      infer_instance
    · exact absurd hname (by simp)
  · infer_instance

instance keeps_passModifiers (d : Dialect) (orders : List (List String)) : Keeps source (passModifiers d orders) := by
  unfold passModifiers
  infer_instance

instance keeps_atOptionalPart : Keeps source atOptionalPart := by
  unfold atOptionalPart
  infer_instance

instance keeps_memberOf (n : Node) [Placed source n] : Keeps source (memberOf n) := by
  unfold memberOf
  infer_instance

instance keeps_atBrackets : Keeps source atBrackets := by
  unfold atBrackets
  infer_instance

section

variable (d : Dialect) (inner : JavaScript.Inner) [∀ goal, Keeps source (inner goal)]

instance keeps_argument : Keeps source (argument inner) := by
  unfold argument
  infer_instance

instance keeps_arguments : Keeps source (arguments inner) := by
  unfold arguments
  infer_instance

instance keeps_propertyName (kind : Kind) : Keeps source (propertyName inner kind) := by
  unfold propertyName
  refine keeps_then fun r => ?_
  iterate 3
    split
    · infer_instance
  split
  · rename_i r' hend
    have : Placed source r' := .of_eq_some hend
    infer_instance
  · infer_instance

/-! ## Patterns -/

instance keeps_elementOf (n : Node) [Placed source n] : Keeps source (elementOf inner n) := by
  unfold elementOf
  infer_instance

instance keeps_part (n : Node) [Placed source n] : Keeps source (part d inner n) := by
  unfold part
  infer_instance

instance keeps_withStandard (n : Node) [Placed source n] : Keeps source (withStandard inner n) := by
  unfold withStandard
  infer_instance

instance keeps_patternEntry : Keeps source (patternEntry inner) := by
  unfold patternEntry
  refine keeps_then fun r => ?_
  dsimp only
  split <;> infer_instance

instance keeps_destructured : Keeps source (destructured inner) := by
  unfold destructured
  infer_instance

instance keeps_binding : Keeps source (binding inner) := by
  unfold binding
  infer_instance

instance keeps_target : Keeps source (target d inner) := by
  unfold target
  infer_instance

instance keeps_pattern : Keeps source (pattern d inner) := by
  unfold pattern
  infer_instance

/-! ## Types -/

instance keeps_typeArguments : Keeps source (typeArguments inner) := by
  unfold typeArguments
  infer_instance

instance keeps_typeParameter : Keeps source (typeParameter inner) := by
  unfold typeParameter
  infer_instance

instance keeps_typeParameters : Keeps source (typeParameters inner) := by
  unfold typeParameters
  infer_instance

instance keeps_annotated (type : Rule Node) [Keeps source type] : Keeps source (annotated d type) := by
  unfold annotated
  infer_instance

instance keeps_annotation : Keeps source <| annotation d inner := by
  unfold annotation
  infer_instance

instance keeps_initializer : Keeps source (initializer inner) := by
  unfold initializer
  infer_instance

instance keeps_decoration : Keeps source (decoration d inner) := by
  unfold decoration
  infer_instance

instance keeps_decorators : Keeps source (decorators d inner) := by
  unfold decorators
  infer_instance

instance keeps_passParameterModifiers : Keeps source passParameterModifiers := by
  unfold passParameterModifiers
  infer_instance

instance keeps_parameter : Keeps source (parameter d inner) := by
  unfold parameter
  infer_instance

instance keeps_parameters : Keeps source (parameters d inner) := by
  unfold parameters
  infer_instance

instance keeps_resultType : Keeps source (resultType inner) := by
  unfold resultType
  infer_instance

instance keeps_signature : Keeps source (signature d inner) := by
  unfold signature
  infer_instance

instance keeps_atTypeEnd : Keeps source atTypeEnd := by
  unfold atTypeEnd
  infer_instance

instance keeps_memberEnd : Keeps source (memberEnd d) := by
  unfold memberEnd
  infer_instance

instance keeps_indexSignature : Keeps source (indexSignature inner) := by
  unfold indexSignature
  dsimp only
  refine keeps_then fun r => keeps_then fun minus => keeps_then fun plus => ?_
  -- the mark behind the key is one of some words, and words hold no places
  split
  · refine keeps_then fun _ => keeps_then fun _ => keeps_then fun inside => keeps_then fun _ => keeps_then fun s => ?_
    split <;> infer_instance
  · refine keeps_then fun _ => keeps_then fun _ => keeps_then fun inside => keeps_then fun _ => keeps_then fun s => ?_
    split <;> infer_instance

instance keeps_namedMember : Keeps source (namedMember d inner) := by
  unfold namedMember
  infer_instance

instance keeps_atExport : Keeps source atExport := by
  unfold atExport
  infer_instance

instance keeps_bracedType : Keeps source (bracedType d inner) := by
  unfold bracedType
  infer_instance

instance keeps_tupleElement : Keeps source (tupleElement inner) := by
  unfold tupleElement
  infer_instance

instance keeps_functionType : Keeps source (functionType d inner) := by
  unfold functionType
  infer_instance

instance keeps_dottedWords : Keeps source dottedWords := by
  unfold dottedWords
  infer_instance

instance keeps_namedType : Keeps source (namedType inner) := by
  unfold namedType
  dsimp only
  refine keeps_then fun r => keeps_then fun words => ?_
  split
  · rename_i n hwords
    have : Placed source n := ⟨words.2 n (hwords ▸ List.mem_singleton_self n)⟩
    infer_instance
  · infer_instance

instance keeps_importedType : Keeps source (importedType inner) := by
  unfold importedType
  infer_instance

instance keeps_queried (n : Node) [Placed source n] : Keeps source (queried inner n) := by
  unfold queried
  extract_lets start close element
  have hstart : Placed source start := placed_start n
  have helement : Keeps source element := by
    refine keeps_then fun _ => keeps_then fun c => ?_
    split
    · infer_instance
    · refine keeps_then fun r => ?_
      split
      · rename_i r' hend
        have : Placed source r' := .of_eq_some hend
        infer_instance
      · infer_instance
  clear_value element
  infer_instance

instance keeps_typeQuery : Keeps source (typeQuery inner) := by
  unfold typeQuery
  infer_instance

instance keeps_typeAtom : Keeps source (typeAtom d inner) := by
  unfold typeAtom
  refine keeps_then fun r => ?_
  dsimp only
  -- by the sign that comes first, and behind these by the number or the word
  iterate 8 refine keeps_unless ?_
  split
  · refine keeps_then fun _ => keeps_then fun s => ?_
    split
    · rename_i s' hend
      have : Placed source s' := .of_eq_some hend
      infer_instance
    · infer_instance
  split
  · rename_i s hend
    have : Placed source s := .of_eq_some hend
    infer_instance
  · refine keeps_then fun w => ?_
    split <;> infer_instance

instance keeps_typeTrailer (n : Node) [Placed source n] : Keeps source (typeTrailer inner n) := by
  unfold typeTrailer
  infer_instance

instance keeps_tryJoint : Keeps source tryJoint := by
  unfold tryJoint
  infer_instance

instance keeps_typeExpression : Keeps source (typeExpression d inner) := by
  unfold typeExpression
  infer_instance

/-! ## Elements -/

instance placed_endOfEntity (p : Char → Bool) (most : Nat) (r : Reading) [Placed source r] :
    Placed source (endOfEntity p most r) := by
  unfold endOfEntity
  dsimp only
  infer_instance

instance placed_entityEnd (r : Reading) [Placed source r] : Placed source (entityEnd r) := by
  unfold entityEnd
  dsimp only
  infer_instance

instance placed_passQuoted (quote : Char) (n : Nat) (r : Reading) [Placed source r] :
    Placed source (passQuoted quote n r) := by
  induction n generalizing r with
  | zero => exact placed_none
  | succ n ih =>
    unfold passQuoted
    split
    · infer_instance
    · split
      · infer_instance
      · split
        · split
          · rename_i s hend
            have : Placed source s := .of_eq_some hend
            infer_instance
          · infer_instance
        · infer_instance

instance keeps_quotedText : Keeps source quotedText := by
  unfold quotedText
  refine keeps_then fun r => ?_
  split
  · rename_i s hend
    have : Placed source s := .of_eq_some hend
    infer_instance
  · infer_instance

instance keeps_hyphenated (kind : Kind) : Keeps source (hyphenated kind) := by
  unfold hyphenated
  refine keeps_then fun r => ?_
  split
  · infer_instance
  · rename_i cs r' hname
    have : Placed source r' := .snd_of_eq_some hname
    dsimp only
    infer_instance

instance keeps_spacedName (kind : Kind) : Keeps source (spacedName kind) := by
  unfold spacedName
  infer_instance

instance keeps_tagName : Keeps source tagName := by
  unfold tagName
  refine keeps_then fun r => ?_
  split
  · rename_i r' hname
    have : Placed source r' := .snd_of_eq_some hname
    infer_instance
  · infer_instance

instance keeps_embedded : Keeps source (embedded inner) := by
  unfold embedded
  infer_instance

instance keeps_tagAttribute (element : Rule Node) [Keeps source element] :
    Keeps source (tagAttribute inner element) := by
  unfold tagAttribute
  infer_instance

instance keeps_content (element : Rule Node) [Keeps source element] : Keeps source (content inner element) := by
  unfold content
  refine @keeps_rowOf _ _ _ _ (keeps_then fun here => ?_)
  extract_lets behindFault s later
  have hs : Placed source s := by
    dsimp only [s]
    infer_instance
  have hlater : ∀ u, Keeps source (later u) := by
    intro u
    refine keeps_then fun now => ?_
    split
    · rename_i r' hfault
      have : Placed source r' := .of_eq_some hfault
      infer_instance
    · rename_i s' _ hend
      have : Placed source s' := .of_eq_some hend
      infer_instance
    · infer_instance
  clear_value later
  infer_instance

instance keeps_closingTag : Keeps source closingTag := by
  unfold closingTag
  infer_instance

instance keeps_element (n : Nat) : Keeps source (element d inner n) := by
  induction n with
  | zero => exact keeps_stuck
  | succ n ih =>
    unfold element
    dsimp only
    infer_instance

end

end LogHygiene.Syntax.JavaScript
