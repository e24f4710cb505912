import LogHygiene.Proofs.Syntax.Rules
import LogHygiene.Syntax.JavaScript.Literal

/-!
# JavaScript: words keep to the places of their text

Blanks and comments are passed glyph by glyph, also those of a web page, and a word ends where its last glyph does. What
a statement ends with when its semicolon is missing is found out by looking ahead, and looking ahead makes no places.
-/

set_option autoImplicit false
-- The instance for a rule is about as large as the rule.
set_option synthInstance.maxSize 100000

namespace LogHygiene.Syntax.JavaScript

open Reading Rule

variable {source : Bytes}

/-! ## Comments and blanks -/

theorem ahead_afterBlockComment {rest : List Glyph} {q : Position} : ∀ {gs : List Glyph} {p : Position},
    Ahead source p gs → afterBlockComment gs p = some (rest, q) → Ahead source q rest
  | [], _, _, hend => absurd hend (by simp [afterBlockComment])
  | [_], _, _, hend => absurd hend (by simp [afterBlockComment])
  | a :: b :: gs, p, h, hend => by
    rw [afterBlockComment] at hend
    split at hend
    · cases hend
      exact h.next.next
    · exact ahead_afterBlockComment h.next hend

instance placed_passComment? (r : Reading) [Placed source r] : Placed source (passComment? r) := by
  unfold passComment?
  split
  · infer_instance
  · dsimp only
    split
    · refine ⟨fun r' hr' => ?_⟩
      obtain ⟨⟨rest, pos⟩, hend, rfl⟩ := Option.map_eq_some_iff.mp hr'
      have : Placed source { r with rest, pos } :=
        ⟨{ inPlace r with ahead := ahead_afterBlockComment (inPlace (r.steps 2)).ahead hend }⟩
      exact (placed_withTrivia { r with rest, pos } .comment r.pos).within
    · infer_instance

instance placed_passMarkupComment? (r : Reading) [Placed source r] : Placed source (passMarkupComment? r) := by
  unfold passMarkupComment?
  infer_instance

instance placed_passTriviaUpTo (fresh : Bool) (n : Nat) (r : Reading) [hr : Placed source r] :
    Placed source (passTriviaUpTo fresh n r) := by
  induction n generalizing r with
  | zero => exact hr
  | succ n ih =>
    unfold passTriviaUpTo
    split
    · rename_i r' hfault
      have : Placed source r' := .of_eq_some hfault
      infer_instance
    · split
      · exact hr
      · split
        · infer_instance
        · split
          · rename_i r' hcomment
            have : Placed source r' := .of_eq_some hcomment
            infer_instance
          · split
            · rename_i r' hcomment
              have : Placed source r' := .of_eq_some hcomment
              infer_instance
            · exact hr

instance keeps_ahead : Keeps source ahead := by
  refine ⟨fun r hr => ?_⟩
  have : Placed source r := ⟨hr⟩
  exact ⟨inPlace (if r.lacksName then r.gap else passTriviaUpTo false r.budget r), hr⟩

instance keeps_begin : Keeps source begin := by
  unfold begin
  dsimp only
  infer_instance

/-! ## Names and signs -/

instance placed_passNameEscape? (r : Reading) [Placed source r] : Placed source (passNameEscape? r) := by
  unfold passNameEscape?
  dsimp only
  infer_instance

instance placed_passName (n : Nat) (r : Reading) [hr : Placed source r] : Placed source (passName n r) := by
  induction n generalizing r with
  | zero => exact hr
  | succ n ih =>
    unfold passName
    split
    · exact hr
    · split
      · infer_instance
      · split
        · rename_i r' hescape
          have : Placed source r' := .of_eq_some hescape
          infer_instance
        · exact hr

instance placed_nameAt (r : Reading) [Placed source r] : Placed source (nameAt r) := by
  unfold nameAt
  split
  · infer_instance
  · dsimp only
    infer_instance

instance keeps_stuckAhead {α : Type} [Placing α] : Keeps source (stuckAhead : Rule α) := by
  unfold stuckAhead
  infer_instance

instance keeps_nextChar : Keeps source nextChar := by
  unfold nextChar
  infer_instance

instance keeps_nextWord : Keeps source nextWord := by
  unfold nextWord
  refine keeps_then fun r => ?_
  split <;> infer_instance

instance keeps_secondWord : Keeps source secondWord := by
  unfold secondWord
  refine keeps_then fun r => keeps_then fun back => ?_
  split
  · rename_i r' hname
    have : Placed source r' := .snd_of_eq_some hname
    infer_instance
  · infer_instance

instance keeps_givenName (kind : Kind) : Keeps source (givenName kind) := by
  unfold givenName
  refine keeps_then fun here => keeps_then fun r => ?_
  split
  · rename_i cs r' hname
    have : Placed source r' := .snd_of_eq_some hname
    infer_instance
  · infer_instance

instance keeps_nameBefore (signs : List String) (kind : Kind) : Keeps source (nameBefore signs kind) := by
  unfold nameBefore
  refine keeps_then fun r => ?_
  split
  · rename_i r' hmissing
    have : Placed source r' := .of_eq_some hmissing
    infer_instance
  · infer_instance

instance keeps_name (kind : Kind) : Keeps source (name kind) := keeps_nameBefore [] kind

instance keeps_keyword (k : String) : Keeps source (keyword k) := by
  unfold keyword
  refine keeps_then fun r => ?_
  split
  · rename_i cs r' hname
    have : Placed source r' := .snd_of_eq_some hname
    infer_instance
  · infer_instance

instance keeps_atKeyword (k : String) : Keeps source (atKeyword k) := by
  unfold atKeyword
  infer_instance

instance keeps_tryKeyword (k : String) : Keeps source (tryKeyword k) := by
  unfold tryKeyword
  infer_instance

instance keeps_atSign (s : String) : Keeps source (atSign s) := by
  unfold atSign
  infer_instance

instance keeps_sign (s : String) : Keeps source (sign s) := by
  unfold sign
  refine keeps_then fun r => ?_
  split
  · infer_instance
  · refine keeps_then fun here => ?_
    split
    · rename_i r' hmissing
      have : Placed source r' := .of_eq_some hmissing
      infer_instance
    · infer_instance

instance keeps_trySign (s : String) : Keeps source (trySign s) := by
  unfold trySign
  infer_instance

instance keeps_closes (s : String) : Keeps source (closes s) := by
  unfold closes
  infer_instance

instance keeps_atEquals : Keeps source atEquals := by
  unfold atEquals
  infer_instance

/-! ## Semicolons -/

instance keeps_endsHere (typed mid : Bool) : Keeps source (endsHere typed mid) := by
  unfold endsHere
  infer_instance

instance keeps_endsBehindWord (typed mid : Bool) : Keeps source (endsBehindWord typed mid) := by
  unfold endsBehindWord
  refine keeps_then fun back => keeps_then fun r => ?_
  split
  · rename_i r' hname
    have : Placed source r' := .snd_of_eq_some hname
    infer_instance
  · infer_instance

instance keeps_semicolonUpTo (typed mid : Bool) (n : Nat) : Keeps source (semicolonUpTo typed mid n) := by
  induction n with
  | zero => exact keeps_stuck
  | succ n ih =>
    unfold semicolonUpTo
    refine keeps_then fun r => ?_
    dsimp only
    split
    · infer_instance
    · split
      · rename_i r' hcomment
        have : Placed source r' := .of_eq_some hcomment
        infer_instance
      · infer_instance

instance keeps_semicolon (d : Dialect) (mid : Bool) : Keeps source (semicolon d mid) := by
  unfold semicolon
  exact keeps_of_reading fun r => inferInstance

/-! ## Numbers -/

instance placed_passDigits (isDigit : Char → Bool) (n : Nat) (r : Reading) [hr : Placed source r] :
    Placed source (passDigits isDigit n r) := by
  induction n generalizing r with
  | zero => exact hr
  | succ n ih =>
    unfold passDigits
    infer_instance

instance placed_digitsEnd (isDigit : Char → Bool) (r : Reading) [Placed source r] :
    Placed source (digitsEnd isDigit r) := by
  unfold digitsEnd
  infer_instance

instance placed_passPower (r : Reading) [Placed source r] : Placed source (passPower r) := by
  unfold passPower
  dsimp only
  infer_instance

instance placed_passLarge (r : Reading) [Placed source r] : Placed source (passLarge r) := by
  unfold passLarge
  infer_instance

instance placed_numeralEnd (r : Reading) [Placed source r] : Placed source (numeralEnd r) := by
  unfold numeralEnd
  dsimp only
  split
  · rename_i s hcoded
    have : Placed source s := by
      split at hcoded
      · obtain ⟨isDigit, -, hs⟩ := Option.bind_eq_some_iff.mp hcoded
        exact Placed.of_eq_some hs
      · exact absurd hcoded (by simp)
    infer_instance
  · infer_instance

/-! ## Strings -/

instance placed_passEscape? (r : Reading) [Placed source r] : Placed source (passEscape? r) := by
  unfold passEscape?
  dsimp only
  split <;> infer_instance

instance placed_passString (quote : Char) (n : Nat) (r : Reading) [Placed source r] :
    Placed source (passString quote n r) := by
  induction n generalizing r with
  | zero => exact placed_none
  | succ n ih =>
    unfold passString
    split <;> infer_instance

instance placed_passLine (r : Reading) [Placed source r] : Placed source (passLine r) := by
  unfold passLine
  infer_instance

instance keeps_unclosed {α : Type} [Placing α] (opening : Reading) [Placed source opening] :
    Keeps source (unclosed opening : Rule α) := by
  unfold unclosed
  dsimp only
  infer_instance

instance keeps_stringLiteral : Keeps source stringLiteral := by
  unfold stringLiteral
  refine keeps_then fun r => ?_
  dsimp only
  refine keeps_then fun _ => ?_
  split
  · rename_i r' hend
    have : Placed source r' := .of_eq_some hend
    infer_instance
  · infer_instance

/-! ## Templates and regular expressions -/

instance placed_passTemplate (n : Nat) (r : Reading) [hr : Placed source r] : Placed source (passTemplate n r) := by
  induction n generalizing r with
  | zero => exact placed_none
  | succ n ih =>
    unfold passTemplate
    split <;> infer_instance

instance keeps_template (expressions : Rule Node) [Keeps source expressions] : Keeps source (template expressions) := by
  have hpart : ∀ r : Here source Reading, Keeps source (do
      let here ← Rule.reading
      match passTemplate here.budget here with
      | none => Rule.stuckAt (r.1.pos.byte + 1)
      | some s =>
        if here.pos != s.pos then Rule.take here s
        if s.peek == '\x60' then pure none
        else
          Rule.take s (s.steps 2)
          let e ← Rule.enclosed expressions
          sign "\x7d"
          return some [← Rule.node .clause s.pos [e]] : Rule (Option (List Node))) := by
    intro r
    refine keeps_then fun here => ?_
    split
    · infer_instance
    · rename_i s hend
      have : Placed source s := .of_eq_some hend
      infer_instance
  unfold template
  infer_instance

instance placed_passPattern (n : Nat) (inClass : Bool) (r : Reading) [Placed source r] :
    Placed source (passPattern n inClass r) := by
  induction n generalizing inClass r with
  | zero => exact placed_none
  | succ n ih =>
    unfold passPattern
    split
    · infer_instance
    · infer_instance
    · split <;> infer_instance
    · infer_instance
    · infer_instance
    · infer_instance
    · infer_instance

instance keeps_regularExpression : Keeps source regularExpression := by
  unfold regularExpression
  refine keeps_then fun r => keeps_then fun _ => ?_
  split
  · rename_i s hend
    have : Placed source s := .of_eq_some hend
    infer_instance
  · infer_instance

end LogHygiene.Syntax.JavaScript
