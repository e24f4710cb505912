import LogHygiene.Proofs.Syntax.Rules
import LogHygiene.Syntax.Python.CasePattern

/-!
# Python: words keep to the places of their text

What stands between words is passed glyph by glyph, with a piece of trivia for each comment on the way, and a word ends
where its last glyph does. Numbers, strings and patterns of a `case` are made of such steps, so each of their rules is
in place because the rules that it is put together of are.
-/

set_option autoImplicit false
-- The instance for a rule is about as large as the rule.
set_option synthInstance.maxSize 100000

namespace LogHygiene.Syntax.Python

open Reading Rule

variable {source : Bytes}

instance : Placeless Opening := { within := fun _ _ => True, within_all := fun _ _ => trivial }

/-! ## Blanks -/

instance placed_passTriviaUpTo (lines : Bool) (n : Nat) (r : Reading) [hr : Placed source r] :
    Placed source (passTriviaUpTo lines n r) := by
  induction n generalizing lines r with
  | zero => exact hr
  | succ n ih =>
    unfold passTriviaUpTo
    split
    · rename_i r' hfault
      have : Placed source r' := .of_eq_some hfault
      infer_instance
    · split
      · exact hr
      · infer_instance

instance placed_passTrivia (lines : Bool) (r : Reading) [Placed source r] : Placed source (passTrivia lines r) := by
  unfold passTrivia
  infer_instance

instance keeps_ahead (e : LineEnd) : Keeps source (ahead e) := by
  refine ⟨fun r hr => ?_⟩
  have : Placed source r := ⟨hr⟩
  unfold ahead
  split
  · exact ⟨inPlace r.gap, hr⟩
  · cases e with
    | ends => exact ⟨inPlace (passTrivia false r), hr⟩
    | bracketed => exact ⟨inPlace (passTrivia true r), hr⟩
    | passed =>
      dsimp only
      split
      · exact keeps_stuck.within r hr
      · exact ⟨inPlace (passTrivia true r), hr⟩

instance keeps_cross : Keeps source cross := by
  unfold cross
  infer_instance

instance keeps_startOf (e : LineEnd) : Keeps source (startOf e) := by
  unfold startOf
  infer_instance

instance keeps_nextChar (e : LineEnd) : Keeps source (nextChar e) := by
  unfold nextChar
  infer_instance

/-! ## Names and signs -/

instance placed_nameAt (r : Reading) [Placed source r] : Placed source (nameAt r) := by
  unfold nameAt
  dsimp only
  split
  · infer_instance
  · infer_instance

instance keeps_nextWord (e : LineEnd) : Keeps source (nextWord e) := by
  unfold nextWord
  refine keeps_then fun r => ?_
  split <;> infer_instance

instance keeps_stuckAhead {α : Type} [Placing α] (e : LineEnd) : Keeps source (stuckAhead e : Rule α) := by
  unfold stuckAhead
  infer_instance

instance keeps_givenName (e : LineEnd) : Keeps source (givenName e) := by
  unfold givenName
  refine keeps_then fun here => keeps_then fun r => ?_
  split
  · rename_i cs r' hname
    have : Placed source r' := .snd_of_eq_some hname
    infer_instance
  · infer_instance

instance keeps_nameBefore (signs : List String) (e : LineEnd) : Keeps source (nameBefore signs e) := by
  unfold nameBefore
  refine keeps_then fun r => ?_
  split
  · rename_i r' hmissing
    have : Placed source r' := .of_eq_some hmissing
    infer_instance
  · infer_instance

instance keeps_name (e : LineEnd) : Keeps source (name e) := keeps_nameBefore [] e

instance keeps_keyword (e : LineEnd) (k : String) : Keeps source (keyword e k) := by
  unfold keyword
  refine keeps_then fun r => ?_
  split
  · rename_i cs r' hname
    have : Placed source r' := .snd_of_eq_some hname
    infer_instance
  · infer_instance

instance keeps_atKeyword (e : LineEnd) (k : String) : Keeps source (atKeyword e k) := by
  unfold atKeyword
  infer_instance

instance keeps_tryKeyword (e : LineEnd) (k : String) : Keeps source (tryKeyword e k) := by
  unfold tryKeyword
  infer_instance

instance keeps_atSign (e : LineEnd) (s : String) : Keeps source (atSign e s) := by
  unfold atSign
  infer_instance

instance keeps_sign (e : LineEnd) (s : String) : Keeps source (sign e s) := by
  unfold sign
  refine keeps_then fun r => ?_
  split
  · infer_instance
  · refine keeps_then fun here => ?_
    split
    · rename_i r' hmissing
      have : Placed source r' := .of_eq_some hmissing
      infer_instance
    · infer_instance

instance keeps_trySign (e : LineEnd) (s : String) : Keeps source (trySign e s) := by
  unfold trySign
  infer_instance

instance keeps_atLineEnd : Keeps source atLineEnd := by
  unfold atLineEnd
  dsimp only
  infer_instance

instance keeps_lineEnd : Keeps source lineEnd := by
  unfold lineEnd
  infer_instance

/-! ## Numbers and strings -/

instance placed_passCoded (isDigit : Char → Bool) (n : Nat) (r : Reading) [hr : Placed source r] :
    Placed source (passCoded isDigit n r) := by
  induction n generalizing r with
  | zero => exact hr
  | succ n ih =>
    unfold passCoded
    infer_instance

instance placed_passDigits (n : Nat) (r : Reading) [hr : Placed source r] : Placed source (passDigits n r) := by
  induction n generalizing r with
  | zero => exact hr
  | succ n ih =>
    unfold passDigits
    infer_instance

instance placed_passExponent (r : Reading) [Placed source r] : Placed source (passExponent r) := by
  unfold passExponent
  dsimp only
  infer_instance

instance placed_passLetter (letters : List Char) (r : Reading) [Placed source r] :
    Placed source (passLetter letters r) := by
  unfold passLetter
  infer_instance

instance placed_numberEnd (r : Reading) [Placed source r] : Placed source (numberEnd r) := by
  unfold numberEnd
  dsimp only
  split
  · rename_i s hcoded
    have : Placed source s := by
      split at hcoded
      · obtain ⟨isDigit, -, hs⟩ := Option.bind_eq_some_iff.mp hcoded
        split at hs
        · exact absurd hs (by simp)
        · exact Option.some.inj hs ▸ inferInstance
      · exact absurd hcoded (by simp)
    infer_instance
  · infer_instance

instance placed_openingAt (r : Reading) [Placed source r] : Placed source (openingAt r) := by
  unfold openingAt
  dsimp only
  infer_instance

instance keeps_atString (e : LineEnd) : Keeps source (atString e) := by
  unfold atString
  infer_instance

instance placed_passNamedEscape (r : Reading) [Placed source r] : Placed source (passNamedEscape r) := by
  unfold passNamedEscape
  dsimp only
  infer_instance

instance placed_passEscape (o : Opening) (r : Reading) [Placed source r] : Placed source (passEscape o r) := by
  unfold passEscape
  dsimp only
  split
  · infer_instance
  · split
    · rename_i s hescape
      exact Placed.of_eq_some hescape
    · infer_instance

section

variable (expression : Rule Node) [hexpression : Keeps source expression]

/-- What stands between braces in a formatted string and the format behind its colon hold one another. -/
theorem keeps_interpolation_formatSpec (n : Nat) :
    Keeps source (interpolation expression n) ∧ Keeps source (formatSpec expression n) := by
  induction n with
  | zero => exact ⟨keeps_stuck, keeps_stuck⟩
  | succ n ih =>
    obtain ⟨hinside, hformat⟩ := ih
    constructor
    · unfold interpolation
      dsimp only
      infer_instance
    · unfold formatSpec
      refine @keeps_many _ _ _ _ (keeps_then fun r => ?_)
      split <;> infer_instance

instance keeps_interpolation (n : Nat) : Keeps source (interpolation expression n) :=
  (keeps_interpolation_formatSpec expression n).1

instance keeps_stringStep (o : Opening) (start : Nat) (x : Bool × List Node) [hx : Placed source x] :
    Keeps source (stringStep expression o start x) := by
  obtain ⟨fresh, children⟩ := x
  have : Placed source children := ⟨hx.within.2⟩
  unfold stringStep
  refine keeps_then fun r => ?_
  split <;> infer_instance

instance keeps_stringLiteral (e : LineEnd) : Keeps source (stringLiteral expression e) := by
  unfold stringLiteral
  refine keeps_then fun r => ?_
  split
  · infer_instance
  · rename_i o inside hopening
    have : Placed source inside := .snd_of_eq_some hopening
    infer_instance

instance keeps_strings (e : LineEnd) : Keeps source (strings expression e) := by
  unfold strings
  infer_instance

instance keeps_pattern (e : LineEnd) : Keeps source (pattern expression e) := by
  unfold pattern
  infer_instance

end

/-- What a list is read as item by item was read from its items. -/
theorem exists_of_mem_mapM {α β : Type} {f : α → Option β} {xs : List α} {ys : List β} {y : β}
    (h : xs.mapM f = some ys) (hy : y ∈ ys) : ∃ x ∈ xs, f x = some y := by
  induction xs generalizing ys with
  | nil =>
    obtain rfl := Option.some.inj h
    exact absurd hy List.not_mem_nil
  | cons x xs ih =>
    rw [List.mapM_cons] at h
    obtain ⟨first, hfirst, h⟩ := Option.bind_eq_some_iff.mp h
    obtain ⟨later, hlater, h⟩ := Option.bind_eq_some_iff.mp h
    obtain rfl := Option.some.inj h
    rcases List.mem_cons.mp hy with rfl | hy
    · exact ⟨x, List.mem_cons_self, hfirst⟩
    · obtain ⟨z, hz, hzy⟩ := ih hlater hy
      exact ⟨z, List.mem_cons_of_mem _ hz, hzy⟩

/-- A value that counts as a pattern stands where it stands. -/
theorem within_toPattern : ∀ {n : Nat} {value p : Node}, value.Within source → toPattern n value = some p →
    p.Within source
  | 0, _, _, _, h => absurd h (by simp [toPattern])
  | n + 1, .mk kind role span children, p, hvalue, h => by
    -- either the node stays, or it has another kind and patterns for children
    have hinside : ∀ k : Kind, k.isFree = true → (children.mapM (toPattern n)).map (.mk k role span) = some p →
        p.Within source := by
      intro k hfree hk
      obtain ⟨ps, hps, rfl⟩ := Option.map_eq_some_iff.mp hk
      refine .mk hvalue.start hvalue.stop (.of_isFree hfree) fun c hc => ?_
      obtain ⟨d, hd, hdc⟩ := exists_of_mem_mapM hps hc
      exact within_toPattern (hvalue.children d hd) hdc
    unfold toPattern at h
    dsimp only at h
    split at h
    · exact Option.some.inj h ▸ hvalue
    · exact Option.some.inj h ▸ hvalue
    · exact Option.some.inj h ▸ hvalue
    · split at h
      · exact Option.some.inj h ▸ hvalue
      · exact absurd h (by simp)
    · exact hinside _ rfl h
    · exact hinside _ rfl h
    · exact hinside _ rfl h
    · exact hinside _ rfl h
    · exact absurd h (by simp)

instance placed_toPattern (n : Nat) (value : Node) [hvalue : Placed source value] : Placed source (toPattern n value) :=
  ⟨fun _ h => within_toPattern hvalue.within h⟩

/-! ## Patterns of a case -/

instance keeps_casePatterns (one : Rule (List Node)) (close : String) [Keeps source one] :
    Keeps source (casePatterns one close) := by
  unfold casePatterns
  infer_instance

instance keeps_caseNumber (e : LineEnd) : Keeps source (caseNumber e) := by
  unfold caseNumber
  dsimp only
  have hnumber : Keeps source (do
      let r ← ahead e
      match numberEnd r with
      | some r' => Rule.take r r'
      | none => Rule.stuckAt r.pos.byte : Rule Unit) := by
    refine keeps_then fun r => ?_
    split
    · rename_i r' hend
      have : Placed source r' := .of_eq_some hend
      infer_instance
    · infer_instance
  infer_instance

section

variable (inside : PatternRule) [hinside : ∀ named, Keeps source (inside named)]

instance keeps_caseEntry : Keeps source (caseEntry inside) := by
  unfold caseEntry
  infer_instance

variable (embedded : Rule Node) [Keeps source embedded]

instance keeps_closedPattern (e : LineEnd) : Keeps source (closedPattern embedded inside e) := by
  unfold closedPattern
  infer_instance

instance keeps_alternatives (e : LineEnd) (named : Bool) : Keeps source (alternatives embedded inside e named) := by
  unfold alternatives
  dsimp only
  infer_instance

end

instance keeps_nestedPattern (embedded : Rule Node) [Keeps source embedded] (n : Nat) (named : Bool) :
    Keeps source (nestedPattern embedded n named) := by
  induction n generalizing named with
  | zero => exact keeps_stuck
  | succ n ih => exact keeps_alternatives (nestedPattern embedded n) embedded .bracketed named

instance keeps_casePattern (embedded : Rule Node) [Keeps source embedded] : Keeps source (casePattern embedded) := by
  unfold casePattern
  infer_instance

end LogHygiene.Syntax.Python
