import LogHygiene.Proofs.Syntax.Places

/-!
# Rules keep to the places of their text

A rule of a grammar is put together of a few others that look at the reading, take a word or finish a node. That a rule
`p` makes up no place is said by `Keeps source p`: from a reading within the source it leads to one within it, with a
result in place, and where it is stuck, what had been put together by then is in place as well.

A node that a rule makes starts where the rule says. Whether a call starts with what it calls can be seen from the text
of the rule, by the children that it lists (`Begins`).

The instances follow the ways in which rules are put together, so what they leave to say about a grammar is one
instance for each of its rules.
-/

set_option autoImplicit false

namespace LogHygiene.Syntax

/-- What a reading ends with is within the source. -/
def Outcome.Within {α : Type} [Placing α] (source : Bytes) : Outcome α → Prop
  | .done a r => Placing.within source a ∧ r.Within source
  | .stuck e => e.Within source

/-- A rule makes up no places: from a reading within the source it leads to what is within it. -/
class Keeps {α : Type} [Placing α] (source : Bytes) (p : Rule α) : Prop where
  within : ∀ r : Reading, r.Within source → (p r).Within source

namespace Rule

variable {source : Bytes} {α β γ : Type} [Placing α] [Placing β] [Placing γ]

instance keeps_pure (a : α) [ha : Placed source a] : Keeps source (pure a : Rule α) := ⟨fun _ hr => ⟨ha.within, hr⟩⟩

/-- A rule that looks at the reading first. -/
theorem keeps_of_reading {p : Reading → Rule α} (h : ∀ r : Here source Reading, Keeps source (p r.1)) :
    Keeps source (fun r => p r r : Rule α) := ⟨fun r hr => (h ⟨r, hr⟩).within r hr⟩

instance keeps_bind (p : Rule α) (f : α → Rule β) [hp : Keeps source p]
    [hf : ∀ a : Here source α, Keeps source (f a.1)] : Keeps source (p >>= f) := by
  refine ⟨fun r hr => ?_⟩
  have hfirst := hp.within r hr
  change Outcome.Within source (match p r with
    | .done a r' => f a r'
    | .stuck e => .stuck e)
  cases hread : p r with
  | stuck e =>
    rw [hread] at hfirst
    exact hfirst
  | done a r' =>
    rw [hread] at hfirst
    exact (hf ⟨a, hfirst.1⟩).within r' hfirst.2

/-- One step, and what comes behind it. -/
theorem keeps_then {p : Rule α} {f : α → Rule β} [Keeps source p] (h : ∀ a : Here source α, Keeps source (f a.1)) :
    Keeps source (p >>= f) := keeps_bind p f

/-- A pair is looked at in its parts. -/
instance (priority := high) keeps_bind_pair (p : Rule (α × β)) (f : α × β → Rule γ) [hp : Keeps source p]
    [hf : ∀ (a : Here source α) (b : Here source β), Keeps source (f (a.1, b.1))] : Keeps source (p >>= f) :=
  @keeps_bind source (α × β) γ _ _ p f hp fun x => hf ⟨x.1.1, x.2.1⟩ ⟨x.1.2, x.2.2⟩

/-- What may be there or not is looked at in both cases. -/
instance (priority := high) keeps_bind_option (p : Rule (Option α)) (f : Option α → Rule β) [hp : Keeps source p]
    [hnone : Keeps source (f none)] [hsome : ∀ a : Here source α, Keeps source (f (some a.1))] :
    Keeps source (p >>= f) := by
  refine @keeps_bind source (Option α) β _ _ p f hp fun o => ?_
  obtain ⟨o, ho⟩ := o
  cases o with
  | none => exact hnone
  | some a => exact hsome ⟨a, ho a rfl⟩

instance keeps_map (f : α → β) (p : Rule α) [hp : Keeps source p] [hf : ∀ a : Here source α, Placed source (f a.1)] :
    Keeps source (f <$> p) :=
  keeps_bind p fun a => pure (f a)

instance keeps_seqRight (p : Rule α) (q : Rule β) [hp : Keeps source p] [hq : Keeps source q] :
    Keeps source (p *> q) :=
  keeps_bind p fun _ => q

instance keeps_ite {c : Prop} [Decidable c] (p q : Rule α) [hp : Keeps source p] [hq : Keeps source q] :
    Keeps source (if c then p else q) := by
  split
  · exact hp
  · exact hq

/-- One case of several, and what is left to do without it. -/
theorem keeps_unless {c : Prop} [Decidable c] {p q : Rule α} [Keeps source p] (hq : Keeps source q) :
    Keeps source (if c then p else q) := keeps_ite p q

instance keeps_stuckAt (offset : Nat) : Keeps source (stuckAt offset : Rule α) :=
  ⟨fun _ hr => hr.furthest.further (hr.edge offset)⟩

instance keeps_stuck : Keeps source (stuck : Rule α) := ⟨fun _ hr => hr.furthest.further (hr.edge _)⟩

instance keeps_orElse (p q : Rule α) [hp : Keeps source p] [hq : Keeps source q] : Keeps source (p <|> q) := by
  refine ⟨fun r hr => ?_⟩
  have hfirst := hp.within r hr
  change Outcome.Within source (match p r with
    | .done a r' => .done a r'
    | .stuck e => q { r with furthest := r.furthest.further e })
  cases hread : p r with
  | stuck e =>
    rw [hread] at hfirst
    exact hq.within _ { hr with furthest := hr.furthest.further hfirst }
  | done a r' =>
    rw [hread] at hfirst
    exact hfirst

instance keeps_orElseAsFar (p q : Rule α) [hp : Keeps source p] [hq : Keeps source q] :
    Keeps source (orElseAsFar p q) := by
  refine ⟨fun r hr => ?_⟩
  have hfirst := hp.within r hr
  have hsecond := hq.within r hr
  unfold orElseAsFar
  cases hread : p r with
  | done a r' =>
    rw [hread] at hfirst
    exact hfirst
  | stuck e =>
    rw [hread] at hfirst
    cases hread' : q r with
    | stuck e' =>
      rw [hread'] at hsecond
      exact Edge.Within.further hsecond hfirst
    | done a r' =>
      rw [hread'] at hsecond
      exact ⟨hsecond.1, { hsecond.2 with furthest := hsecond.2.furthest.further hfirst }⟩

instance keeps_reading : Keeps source reading := ⟨fun _ hr => ⟨hr, hr⟩⟩

instance keeps_goTo (r : Reading) [Placed source r] : Keeps source (goTo r) := by
  have hr : r.Within source := Reading.inPlace r
  exact ⟨fun _ hold => ⟨trivial, { hr with furthest := hr.furthest.further hold.furthest }⟩⟩

instance keeps_within (enclosed : Bool) (p : Rule α) [hp : Keeps source p] : Keeps source (within enclosed p) := by
  refine ⟨fun r hr => ?_⟩
  have hinside := hp.within { r with enclosed } { hr with }
  unfold Rule.within
  cases hread : p { r with enclosed } with
  | stuck e =>
    rw [hread] at hinside
    exact hinside
  | done a r' =>
    rw [hread] at hinside
    exact ⟨hinside.1, { hinside.2 with }⟩

instance keeps_enclosed (p : Rule α) [Keeps source p] : Keeps source (enclosed p) := keeps_within true p

instance keeps_exposed (p : Rule α) [Keeps source p] : Keeps source (exposed p) := keeps_within false p

instance keeps_require (b : Bool) : Keeps source (require b) := by
  unfold require
  infer_instance

instance keeps_onlyIf (b : Bool) (p : Rule Bool) [Keeps source p] : Keeps source (onlyIf b p) := by
  unfold onlyIf
  infer_instance

instance keeps_optional (p : Rule α) [Keeps source p] : Keeps source (optional p) := by
  unfold optional
  infer_instance

instance keeps_manyUpTo (p : Rule (Option α)) (n : Nat) [Keeps source p] : Keeps source (manyUpTo p n) := by
  induction n with
  | zero => exact keeps_stuck
  | succ n ih =>
    unfold manyUpTo
    infer_instance

instance keeps_many (p : Rule (Option α)) [Keeps source p] : Keeps source (many p) :=
  ⟨fun r hr => (keeps_manyUpTo p r.budget).within r hr⟩

instance keeps_iterateUpTo (p : α → Rule (Option α)) (n : Nat) (a : α) [hp : ∀ a : Here source α, Keeps source (p a.1)]
    [ha : Placed source a] : Keeps source (iterateUpTo p n a) := by
  induction n generalizing a with
  | zero => exact keeps_stuck
  | succ n ih =>
    unfold iterateUpTo
    have hstep : Keeps source (p a) := hp ⟨a, ha.within⟩
    refine @keeps_bind_option source _ _ _ _ _ _ hstep inferInstance fun a' => ih a'.1

instance keeps_iterate (p : α → Rule (Option α)) (a : α) [∀ a : Here source α, Keeps source (p a.1)]
    [Placed source a] : Keeps source (iterate p a) :=
  ⟨fun r hr => (keeps_iterateUpTo p r.budget a).within r hr⟩

/-- A rule that pushes a node takes note of it and of nothing else. -/
theorem keeps_push {p : Reading → Node} (h : ∀ r : Reading, r.Within source → (p r).Within source) :
    Keeps source (fun r => .done () (r.push (p r)) : Rule Unit) :=
  ⟨fun r hr => ⟨trivial, hr.push (h r hr)⟩⟩

instance keeps_take (r after : Reading) [Placed source r] [Placed source after] : Keeps source (take r after) := by
  have hr : r.Within source := Reading.inPlace r
  have hafter : after.Within source := Reading.inPlace after
  have hword : Keeps source (fun now => .done () (now.push (.mk .token .none ⟨r.pos, after.pos⟩ [])) : Rule Unit) :=
    keeps_push fun _ _ => .leaf hr.ahead.here hafter.ahead.here
  exact keeps_bind (goTo after) fun _ => fun now =>
    .done () (now.push (.mk .token .none ⟨r.pos, after.pos⟩ []))

/-! ### Nodes -/

/-- A node of the kind that starts here and has these children begins with the part that it should. -/
class Begins (source : Bytes) (kind : Kind) (start : Position) (children : List Node) : Prop where
  headed : ∀ stop, (Node.mk kind .none ⟨start, stop⟩ children).Headed

instance begins_free (kind : Kind) (start : Position) (children : List Node) [hkind : Placed source kind] :
    Begins source kind start children := ⟨fun _ => .of_isFree hkind.within⟩

instance begins_leaf (kind : Kind) (start : Position) : Begins source kind start [] := ⟨fun _ => .of_leaf⟩

/-- What begins with a node in some part has that node in the part. -/
theorem child?_front (kind : Kind) (span : Span) (n : Node) (r : Role) (more : List Node) :
    (Node.mk kind .none span (n.withRole r :: more)).child? r = some (n.withRole r) :=
  List.find?_cons_of_pos (by cases n; simp [Node.withRole, Node.role])

theorem start_withRole (n : Node) (r : Role) : (n.withRole r).start = n.start := by
  cases n
  rfl

instance begins_call (n : Node) (more : List Node) :
    Begins source .call n.span.start (n.withRole .callee :: more) where
  headed stop := {
    call := fun _ callee hcallee => by
      obtain rfl := Option.some.inj ((child?_front _ _ n _ more).symm.trans hcallee)
      exact start_withRole n _
    member := fun h => absurd h (by simp [Node.kind]) }

instance begins_call_append (n : Node) (more rest : List Node) :
    Begins source .call n.span.start (n.withRole .callee :: more ++ rest) := begins_call n (more ++ rest)

/-- A call without anything that is called. -/
instance begins_call_arguments (start : Position) (ns : List Node) :
    Begins source .call start (ns.map (·.withRole .arguments)) where
  headed stop := {
    call := fun _ callee hcallee => by
      have hrole := List.find?_some hcallee
      obtain ⟨n, -, rfl⟩ := List.mem_map.mp (List.mem_of_find?_eq_some hcallee)
      cases n
      exact absurd hrole (by simp [Node.withRole, Node.role])
    member := fun h => absurd h (by simp [Node.kind]) }

instance begins_member (n : Node) (more : List Node) :
    Begins source .member n.span.start (n.withRole .object :: more) where
  headed stop := {
    call := fun h => absurd h (by simp [Node.kind])
    member := fun _ object hobject => by
      obtain rfl := Option.some.inj ((child?_front _ _ n _ more).symm.trans hobject)
      exact start_withRole n _ }

section

variable (kind : Kind) (start : Position) (children : List Node) [hbegins : Begins source kind start children]
  [hstart : Placed source start] [hchildren : Placed source children]

include hbegins hstart hchildren

theorem keeps_gathered (grows : Bool) : Keeps source (fun r =>
    let n : Node := .mk kind .none ⟨start, r.pos⟩ children
    .done n (r.gather grows start [n]) : Rule Node) := by
  refine ⟨fun r hr => ?_⟩
  have hn : (Node.mk kind .none ⟨start, r.pos⟩ children).Within source :=
    .mk hstart.within hr.ahead.here (hbegins.headed r.pos) hchildren.within
  exact ⟨hn, hr.gather (by simpa using hn) _ _⟩

instance keeps_node : Keeps source (node kind start children) := keeps_gathered kind start children false

instance keeps_phrase : Keeps source (phrase kind start children) := keeps_gathered kind start children true

end

/-- Which of two rules makes the node depends on what was read. -/
instance keeps_nodeBy {c : Prop} [Decidable c] (p q : Kind → Position → List Node → Rule Node) (kind : Kind)
    (start : Position) (children : List Node) [hp : Keeps source (p kind start children)]
    [hq : Keeps source (q kind start children)] : Keeps source ((if c then p else q) kind start children) := by
  split
  · exact hp
  · exact hq

instance keeps_settle : Keeps source settle := ⟨fun _ hr => ⟨trivial, { hr with pieces := hr.settledPieces }⟩⟩

instance keeps_row (grows : Bool) (start : Position) : Keeps source (row grows start) := by
  refine ⟨fun r hr => ⟨trivial, hr.gather (fun n hn => ?_) grows start⟩⟩
  obtain ⟨p, hp, hn⟩ := List.mem_flatMap.mp hn
  exact (hr.pieces p (List.takeWhile_subset _ (List.mem_reverse.mp hp))).nodes n hn

instance keeps_rowOf (next : Rule (Option (List α))) [Keeps source next] : Keeps source (rowOf next) := by
  unfold rowOf
  infer_instance

instance keeps_missing (kind : Kind) : Keeps source (missing kind) := by
  refine ⟨fun r hr => ?_⟩
  have hn : (Node.mk kind .none ⟨r.pos, r.pos⟩ []).Within source := .leaf hr.ahead.here hr.ahead.here
  exact ⟨hn, hr.push hn⟩

end Rule

end LogHygiene.Syntax
