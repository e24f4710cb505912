import LogHygiene.Proofs.Syntax.Geometry
import LogHygiene.Proofs.Text.Utf8
import LogHygiene.Syntax.Reading

/-!
# Readings keep to the places of their text

A place counts bytes, line ends and bytes behind the last line end, and a reading carries it along glyph by glyph.
What is built on the way takes its places from readings and from other nodes, never from anywhere else. So

> **every place in a tree is one behind some first glyphs of the text** (`Position.Within`),

and of two such places the one with more bytes before it is on a later line, or on the same one and further right
(`Position.Within.before_of_lt`). A call takes the place where it starts from what it calls, and a member from its
object (`Node.Headed`).

`Placed source a` says all this of the value `a`. What it says depends on the kind of value (`Placing`), and for a value
that is put together of others it is found out by instances: places in a list are those in its items, and none is in a
character. So is what every step of a reading does.
-/

set_option autoImplicit false

namespace LogHygiene.Syntax

/-! ## Places of a text -/

/-- The place is behind some first glyphs of the source. -/
def Position.Within (source : Bytes) (p : Position) : Prop :=
  ∃ front, front <+: source.glyphs ∧ front.foldl advance .zero = p

/-- A place comes before another one on an earlier line, or on the same line and further left. -/
def Position.Before (p q : Position) : Prop := p.row < q.row ∨ p.row = q.row ∧ p.column < q.column

namespace Position

theorem Before.trans {p q r : Position} (hpq : p.Before q) (hqr : q.Before r) : p.Before r := by
  unfold Before at *
  omega

theorem before_advance (p : Position) {g : Glyph} (hg : 0 < g.width) : p.Before (p.advance g) := by
  unfold Before advance
  split
  · exact .inl (Nat.lt_succ_self _)
  · exact .inr ⟨rfl, Nat.lt_add_of_pos_right hg⟩

theorem byte_advance (p : Position) (g : Glyph) : (p.advance g).byte = p.byte + g.width := by
  unfold advance
  split <;> rfl

/-- Reading on leads to more bytes, and to later places if there is anything to read. -/
theorem forward_foldl : ∀ {gs : List Glyph} {p : Position}, (∀ g ∈ gs, 0 < g.width) →
    p.byte ≤ (gs.foldl advance p).byte ∧ (gs = [] ∨ p.Before (gs.foldl advance p))
  | [], p, _ => ⟨Nat.le_refl _, .inl rfl⟩
  | g :: gs, p, h => by
    obtain ⟨hg, hgs⟩ := List.forall_mem_cons.mp h
    obtain ⟨hbyte, hbefore⟩ := @forward_foldl gs (p.advance g) hgs
    rw [byte_advance] at hbyte
    refine ⟨Nat.le_trans (Nat.le_add_right _ _) hbyte, .inr ?_⟩
    rcases hbefore with rfl | hbefore
    · exact p.before_advance hg
    · exact (p.before_advance hg).trans hbefore

/-- With more bytes in front of it, a place of a text is a later one. -/
theorem Within.before_of_lt {source : Bytes} {p q : Position} (hp : p.Within source) (hq : q.Within source)
    (hlt : p.byte < q.byte) : p.Before q := by
  obtain ⟨front, hfront, rfl⟩ := hp
  obtain ⟨front', hfront', rfl⟩ := hq
  have hwide : ∀ more, (∃ rest, rest ++ more <+: source.glyphs) → ∀ g ∈ more, 0 < g.width :=
    fun more ⟨rest, hrest⟩ g hg => Bytes.glyphsFrom_width_pos g (hrest.mem (List.mem_append_right rest hg))
  rcases List.prefix_or_prefix_of_prefix hfront hfront' with ⟨more, rfl⟩ | ⟨more, rfl⟩
  · rw [List.foldl_append] at hlt ⊢
    rcases (forward_foldl (hwide more ⟨front, hfront'⟩)).2 with rfl | hbefore
    · exact absurd hlt (Nat.lt_irrefl _)
    · exact hbefore
  · rw [List.foldl_append] at hlt
    exact absurd hlt (Nat.not_lt.mpr (forward_foldl (hwide more ⟨front', hfront⟩)).1)

end Position

/-- Glyphs lead from a place within the source to others within it. -/
def Ahead (source : Bytes) (p : Position) (gs : List Glyph) : Prop :=
  ∀ front, front <+: gs → (front.foldl Position.advance p).Within source

namespace Ahead

variable {source : Bytes} {p : Position} {g : Glyph} {gs : List Glyph}

theorem here (h : Ahead source p gs) : p.Within source := h [] List.nil_prefix

theorem next (h : Ahead source p (g :: gs)) : Ahead source (p.advance g) gs :=
  fun front hfront => h (g :: front) (List.cons_prefix_cons.mpr ⟨rfl, hfront⟩)

theorem top (source : Bytes) : Ahead source .zero source.glyphs := fun front hfront => ⟨front, hfront, rfl⟩

/-- What takes no room stands where its place is. -/
theorem of_widthless (hp : p.Within source) {c : Char} (hc : c ≠ '\n') : Ahead source p [⟨c, 0⟩] := by
  intro front hfront
  rcases List.prefix_cons_iff.mp hfront with rfl | ⟨rest, rfl, hrest⟩
  · exact hp
  · obtain rfl := List.prefix_nil.mp hrest
    have hsame : p.advance ⟨c, 0⟩ = p := by simp [Position.advance, hc]
    rwa [List.foldl_cons, hsame]

theorem runEnd {q : Glyph → Bool} : ∀ {gs : List Glyph} {p : Position}, Ahead source p gs →
    Ahead source (Reading.runEnd q gs p).2 (Reading.runEnd q gs p).1
  | [], _, h => h
  | g :: gs, p, h => by
    rw [Reading.runEnd]
    split
    · exact runEnd h.next
    · exact h

theorem upTo {offset : Nat} : ∀ {gs : List Glyph} {p : Position}, Ahead source p gs →
    Ahead source (Reading.upTo.go offset gs p).2 (Reading.upTo.go offset gs p).1
  | [], _, h => h
  | g :: gs, p, h => by
    rw [Reading.upTo.go]
    split
    · exact h
    · exact upTo h.next

end Ahead

/-! ## What nodes begin with -/

/-- Kinds of nodes that need not begin with a part of theirs: all but calls and members. -/
@[reducible] def Kind.isFree : Kind → Bool
  | call | member => false
  | _ => true

namespace Node

/-- A call begins with what it calls, and a member with its object. -/
structure Headed (n : Node) : Prop where
  call : n.kind = .call → ∀ callee ∈ n.child? .callee, callee.start = n.start
  member : n.kind = .member → ∀ object ∈ n.child? .object, object.start = n.start

section

variable {kind : Kind} {role r : Role} {span : Span} {cs cs' : List Node} {n t : Node}

theorem Headed.of_isFree (h : kind.isFree = true) : (Node.mk kind role span cs).Headed where
  call hcall := absurd (hcall ▸ h : Kind.isFree .call = true) (by decide)
  member hmember := absurd (hmember ▸ h : Kind.isFree .member = true) (by decide)

theorem Headed.of_leaf : (Node.mk kind role span []).Headed where
  call _ _ h := absurd h (by simp [child?, children])
  member _ _ h := absurd h (by simp [child?, children])

/-- Nodes begin alike if their parts do. -/
theorem Headed.congr (h : (Node.mk kind role span cs).Headed)
    (hparts : ∀ r ≠ Role.none, (cs'.find? (·.role == r)).map Node.span = (cs.find? (·.role == r)).map Node.span) :
    (Node.mk kind role span cs').Headed := by
  have hstart : ∀ r ≠ Role.none, ∀ c' ∈ (Node.mk kind role span cs').child? r,
      ∃ c ∈ (Node.mk kind role span cs).child? r, c.start = c'.start := by
    intro r hr c' hc'
    have hspan : (cs.find? (·.role == r)).map Node.span = some c'.span := by
      rw [← hparts r hr]
      exact congrArg (Option.map Node.span) hc'
    obtain ⟨c, hc, hsame⟩ := Option.map_eq_some_iff.mp hspan
    exact ⟨c, hc, congrArg (fun s : Span => s.start.byte) hsame⟩
  constructor
  · intro hkind callee hcallee
    obtain ⟨c, hc, hsame⟩ := hstart .callee (by decide) callee hcallee
    exact hsame ▸ h.call hkind c hc
  · intro hkind object hobject
    obtain ⟨c, hc, hsame⟩ := hstart .object (by decide) object hobject
    exact hsame ▸ h.member hkind c hc

@[simp] theorem role_adopt : (t.adopt n).role = n.role := by
  cases n
  rw [adopt]
  rfl

@[simp] theorem span_adopt : (t.adopt n).span = n.span := by
  cases n
  rw [adopt]
  rfl

/-- What has no part to play changes nothing about where the parts are that others play. -/
theorem find?_adoptAmong (ht : t.role = .none) (hr : r ≠ .none) : ∀ cs : List Node,
    ((adoptAmong t cs).find? (·.role == r)).map Node.span = (cs.find? (·.role == r)).map Node.span := by
  have hskip : ∀ cs : List Node, (t :: cs).find? (·.role == r) = cs.find? (·.role == r) := fun cs =>
    List.find?_cons_of_neg (by simpa [ht] using hr.symm)
  intro cs
  induction cs with
  | nil => rw [adoptAmong, hskip]
  | cons c rest ih =>
    rw [adoptAmong]
    split
    · rw [hskip]
    · split
      · rw [List.find?_cons, List.find?_cons, role_adopt]
        split <;> simp
      · rw [List.find?_cons, List.find?_cons]
        split
        · rfl
        · exact ih

end

/-- A node starts and stops at places of the source, and begins with the part that it should. -/
structure Sited (source : Bytes) (n : Node) : Prop where
  start : n.span.start.Within source
  stop : n.span.stop.Within source
  headed : n.Headed

/-- A node and all nodes in it are sited in the source. -/
def Within (source : Bytes) (n : Node) : Prop := ∀ m ∈ n.preorder, m.Sited source

/-- A tree of the source that plays no part, so that it can be hung into any other one. -/
structure Loose (source : Bytes) (n : Node) : Prop where
  within : n.Within source
  role : n.role = .none

end Node

namespace Node.Within

variable {source : Bytes} {n : Node}

theorem iff_children : n.Within source ↔ n.Sited source ∧ ∀ c ∈ n.children, c.Within source := by
  constructor
  · intro h
    exact ⟨h n n.mem_preorder_self, fun c hc m hm => h m (mem_preorder_of_child hc hm)⟩
  · rintro ⟨hself, hchildren⟩ m hm
    rcases mem_preorder.mp hm with rfl | ⟨c, hc, hm⟩
    · exact hself
    · exact hchildren c hc m hm

theorem mk {kind : Kind} {role : Role} {span : Span} {children : List Node} (hstart : span.start.Within source)
    (hstop : span.stop.Within source) (hheaded : (Node.mk kind role span children).Headed)
    (hchildren : ∀ c ∈ children, c.Within source) : (Node.mk kind role span children).Within source :=
  iff_children.mpr ⟨⟨hstart, hstop, hheaded⟩, hchildren⟩

/-- A node with nothing in it has nothing to begin with. -/
theorem leaf {kind : Kind} {role : Role} {span : Span} (hstart : span.start.Within source)
    (hstop : span.stop.Within source) : (Node.mk kind role span []).Within source :=
  mk hstart hstop .of_leaf (by simp)

theorem sited (h : n.Within source) : n.Sited source := h n n.mem_preorder_self

theorem start (h : n.Within source) : n.span.start.Within source := h.sited.start

theorem stop (h : n.Within source) : n.span.stop.Within source := h.sited.stop

theorem children (h : n.Within source) : ∀ c ∈ n.children, c.Within source := (iff_children.mp h).2

theorem withKind (h : n.Within source) {k : Kind} (hk : k.isFree = true) : (n.withKind k).Within source := by
  cases n
  exact mk h.start h.stop (.of_isFree hk) h.children

/-- The part that a node plays in another one says nothing about its own. -/
theorem withRole (h : n.Within source) (r : Role) : (n.withRole r).Within source := by
  cases n
  exact mk h.start h.stop ⟨h.sited.headed.call, h.sited.headed.member⟩ h.children

mutual

theorem adopt {t : Node} (ht : t.Loose source) : ∀ {n : Node}, n.Within source → (t.adopt n).Within source
  | .mk kind role span children, h => by
    rw [Node.adopt]
    have hheaded : (Node.mk kind role span children).Headed := h.sited.headed
    exact mk h.start h.stop (hheaded.congr fun r hr => find?_adoptAmong ht.role hr children) (adoptAmong ht h.children)

theorem adoptAmong {t : Node} (ht : t.Loose source) : ∀ {ns : List Node}, (∀ n ∈ ns, n.Within source) →
    ∀ n ∈ Node.adoptAmong t ns, n.Within source
  | [], _ => by
    rw [Node.adoptAmong]
    simpa using ht.within
  | c :: rest, h => by
    obtain ⟨hc, hrest⟩ := List.forall_mem_cons.mp h
    rw [Node.adoptAmong]
    split
    · exact List.forall_mem_cons.mpr ⟨ht.within, h⟩
    · split
      · exact List.forall_mem_cons.mpr ⟨adopt ht hc, hrest⟩
      · exact List.forall_mem_cons.mpr ⟨hc, adoptAmong ht hrest⟩

end

theorem adoptAll {ts : List Node} (hts : ∀ t ∈ ts, t.Loose source) (h : n.Within source) :
    (n.adoptAll ts).Within source := by
  unfold Node.adoptAll
  induction ts generalizing n with
  | nil => exact h
  | cons t ts ih =>
    obtain ⟨ht, hts⟩ := List.forall_mem_cons.mp hts
    exact ih hts (adopt ht h)

end Node.Within

/-- All nodes of a piece and of what it is made of are within the source. -/
inductive Piece.Within (source : Bytes) : Piece → Prop
  | mk {ns : List Node} {ps : List Piece} : (∀ n ∈ ns, n.Within source) → (∀ p ∈ ps, Within source p) →
      Within source (.mk ns ps)

namespace Piece.Within

variable {source : Bytes} {p : Piece}

theorem nodes : p.Within source → ∀ n ∈ p.nodes, n.Within source
  | mk hnodes _ => hnodes

theorem parts : p.Within source → ∀ q ∈ p.parts, q.Within source
  | mk _ hparts => hparts

theorem settled (h : p.Within source) : p.settled.Within source := .mk h.nodes (by simp)

end Piece.Within

/-- What had been put together where a reading is stuck is within the source. -/
def Edge.Within (source : Bytes) (e : Edge) : Prop := ∀ p ∈ e.pieces, p.Within source

theorem Edge.Within.further {source : Bytes} {a b : Edge} (ha : a.Within source) (hb : b.Within source) :
    (a.further b).Within source := by
  unfold Edge.further
  split
  · exact hb
  · exact ha

/-- What a reading has gathered, what it has been told and what lies ahead of it are within the source. -/
structure Reading.Within (source : Bytes) (r : Reading) : Prop where
  ahead : Ahead source r.pos r.rest
  trivia : ∀ n ∈ r.trivia, n.Loose source
  pieces : ∀ p ∈ r.pieces, p.Within source
  furthest : r.furthest.Within source
  faults : ∀ f ∈ r.repairs.faults, f.tree.Loose source

/-! ## What may hold places -/

/-- A kind of value that may hold places, and when all of them are within a source. -/
class Placing (α : Type) where
  within : Bytes → α → Prop

/-- A kind of value that holds no places. -/
class Placeless (α : Type) extends Placing α where
  within_all : ∀ (source : Bytes) (a : α), within source a

/-- All places in a value are within the source. -/
class Placed {α : Type} [Placing α] (source : Bytes) (a : α) : Prop where
  within : Placing.within source a

instance : Placing Position := ⟨Position.Within⟩
instance : Placing Node := ⟨Node.Within⟩
instance : Placing Reading := ⟨Reading.Within⟩

instance : Placeless Unit := { within := fun _ _ => True, within_all := fun _ _ => trivial }
instance : Placeless Bool := { within := fun _ _ => True, within_all := fun _ _ => trivial }
instance : Placeless Char := { within := fun _ _ => True, within_all := fun _ _ => trivial }
instance : Placeless String := { within := fun _ _ => True, within_all := fun _ _ => trivial }

/-- A kind holds no places, but with some kinds it matters where the parts are. -/
instance : Placing Kind := ⟨fun _ k => k.isFree = true⟩

section

variable {α β : Type} [Placing α] [Placing β]

instance : Placing (List α) := ⟨fun source as => ∀ a ∈ as, Placing.within source a⟩
instance : Placing (Option α) := ⟨fun source o => ∀ a, o = some a → Placing.within source a⟩
instance : Placing (α × β) := ⟨fun source x => Placing.within source x.1 ∧ Placing.within source x.2⟩

end

/-- A value with all its places within a source. -/
def Here (source : Bytes) (α : Type) [Placing α] : Type := {a : α // Placing.within source a}

section

variable {source : Bytes} {α β : Type}

instance placed_placeless [Placeless α] (a : α) : Placed source a := ⟨Placeless.within_all source a⟩

instance placed_list_placeless [Placeless α] (as : List α) : Placed source as :=
  ⟨fun a _ => Placeless.within_all source a⟩

instance placed_option_placeless [Placeless α] (o : Option α) : Placed source o :=
  ⟨fun a _ => Placeless.within_all source a⟩

variable [Placing α] [Placing β]

instance placed_here (a : Here source α) : Placed source a.1 := ⟨a.2⟩

instance placed_nil : Placed source ([] : List α) := ⟨fun _ h => absurd h List.not_mem_nil⟩

instance placed_cons (a : α) (as : List α) [ha : Placed source a] [has : Placed source as] :
    Placed source (a :: as) := ⟨List.forall_mem_cons.mpr ⟨ha.within, has.within⟩⟩

instance placed_singleton (a : α) [ha : Placed source a] : Placed source (List.singleton a) :=
  placed_cons a []

instance placed_append (as bs : List α) [has : Placed source as] [hbs : Placed source bs] :
    Placed source (as ++ bs) := ⟨List.forall_mem_append.mpr ⟨has.within, hbs.within⟩⟩

instance placed_flatten (rows : List (List α)) [h : Placed source rows] : Placed source rows.flatten := by
  refine ⟨fun a ha => ?_⟩
  obtain ⟨row, hrow, ha⟩ := List.mem_flatten.mp ha
  exact h.within row hrow a ha

instance placed_reverse (as : List α) [h : Placed source as] : Placed source as.reverse :=
  ⟨fun a ha => h.within a (List.mem_reverse.mp ha)⟩

instance placed_take (as : List α) (n : Nat) [h : Placed source as] : Placed source (as.take n) :=
  ⟨fun a ha => h.within a (List.mem_of_mem_take ha)⟩

instance placed_map (f : α → β) (as : List α) [h : Placed source as] [hf : ∀ a : Here source α, Placed source (f a.1)] :
    Placed source (as.map f) := by
  refine ⟨fun b hb => ?_⟩
  obtain ⟨a, ha, rfl⟩ := List.mem_map.mp hb
  exact (hf ⟨a, h.within a ha⟩).within

instance placed_none : Placed source (none : Option α) := ⟨fun _ h => absurd h (by simp)⟩

instance placed_some (a : α) [ha : Placed source a] : Placed source (some a) :=
  ⟨fun _ h => Option.some.inj h ▸ ha.within⟩

instance placed_option_map (f : α → β) (o : Option α) [h : Placed source o]
    [hf : ∀ a : Here source α, Placed source (f a.1)] : Placed source (o.map f) := by
  refine ⟨fun b hb => ?_⟩
  obtain ⟨a, ha, rfl⟩ := Option.map_eq_some_iff.mp hb
  exact (hf ⟨a, h.within a ha⟩).within

instance placed_option_bind (f : α → Option β) (o : Option α) [h : Placed source o]
    [hf : ∀ a : Here source α, Placed source (f a.1)] : Placed source (o.bind f) := by
  refine ⟨fun b hb => ?_⟩
  obtain ⟨a, ha, hb⟩ := Option.bind_eq_some_iff.mp hb
  exact (hf ⟨a, h.within a ha⟩).within b hb

instance placed_toList (o : Option α) [h : Placed source o] : Placed source o.toList :=
  ⟨fun a ha => h.within a (Option.mem_toList.mp ha)⟩

instance placed_getD (o : Option α) (a : α) [h : Placed source o] [ha : Placed source a] :
    Placed source (o.getD a) := by
  cases o with
  | none => exact ha
  | some b => exact ⟨h.within b rfl⟩

instance placed_or (o o' : Option α) [h : Placed source o] [h' : Placed source o'] : Placed source (o.or o') := by
  cases o with
  | none => exact h'
  | some a => exact h

instance placed_pair (a : α) (b : β) [ha : Placed source a] [hb : Placed source b] : Placed source (a, b) :=
  ⟨ha.within, hb.within⟩

instance placed_fst (x : α × β) [h : Placed source x] : Placed source x.1 := ⟨h.within.1⟩

instance placed_snd (x : α × β) [h : Placed source x] : Placed source x.2 := ⟨h.within.2⟩

instance placed_ite {c : Prop} [Decidable c] (a b : α) [ha : Placed source a] [hb : Placed source b] :
    Placed source (if c then a else b) := by
  split
  · exact ha
  · exact hb

/-- What was read out of an option is in place if the option is. -/
theorem Placed.of_eq_some {o : Option α} {a : α} (h : o = some a) [ho : Placed source o] : Placed source a :=
  ⟨ho.within a h⟩

theorem Placed.snd_of_eq_some {o : Option (α × β)} {a : α} {b : β} (h : o = some (a, b)) [ho : Placed source o] :
    Placed source b := ⟨(ho.within (a, b) h).2⟩

end

/-! ## Nodes and readings -/

section

variable {source : Bytes}

/-- A test comes out true. -/
class Passes (b : Bool) : Prop where
  eq : b = true

instance passes_true : Passes true := ⟨rfl⟩

instance placed_kind (k : Kind) [h : Passes k.isFree] : Placed source k := ⟨h.eq⟩

/-- A node that is in place is within the source. -/
theorem Node.inPlace (n : Node) [h : Placed source n] : n.Within source := h.within

instance placed_withRole (n : Node) (r : Role) [Placed source n] : Placed source (n.withRole r) :=
  ⟨n.inPlace.withRole r⟩

instance placed_withKind (n : Node) (k : Kind) [Placed source n] [hk : Placed source k] :
    Placed source (n.withKind k) := ⟨n.inPlace.withKind hk.within⟩

instance placed_start (n : Node) [Placed source n] : Placed source n.span.start := ⟨n.inPlace.start⟩

instance placed_children (n : Node) [Placed source n] : Placed source n.children := ⟨n.inPlace.children⟩

namespace Reading

/-- A reading that is in place is within the source. -/
theorem inPlace (r : Reading) [h : Placed source r] : r.Within source := h.within

instance placed_pos (r : Reading) [Placed source r] : Placed source r.pos := ⟨(inPlace r).ahead.here⟩

instance placed_step (r : Reading) [h : Placed source r] : Placed source r.step := by
  have hr : r.Within source := inPlace r
  unfold Reading.step
  cases hrest : r.rest with
  | nil => exact h
  | cons g rest => exact ⟨{ hr with ahead := (hrest ▸ hr.ahead).next }⟩

instance placed_steps (r : Reading) (n : Nat) [h : Placed source r] : Placed source (r.steps n) := by
  induction n generalizing r with
  | zero => exact h
  | succ n ih => exact ih r.step

instance placed_passWhile (r : Reading) (q : Glyph → Bool) [Placed source r] : Placed source (r.passWhile q) :=
  ⟨{ inPlace r with ahead := (inPlace r).ahead.runEnd }⟩

instance placed_upTo (r : Reading) (offset : Nat) [Placed source r] : Placed source (r.upTo offset) :=
  ⟨{ inPlace r with ahead := (inPlace r).ahead.upTo }⟩

instance placed_gap (r : Reading) [Placed source r] : Placed source r.gap := by
  have hgap : '\x01' ≠ '\n' := by decide
  exact ⟨{ inPlace r with ahead := .of_widthless (inPlace r).ahead.here hgap }⟩

instance placed_withTrivia (r : Reading) (kind : Kind) (start : Position) [Placed source r]
    [hstart : Placed source start] : Placed source (r.withTrivia kind start) := by
  have hr : r.Within source := inPlace r
  have hnote : (Node.mk kind .none ⟨start, r.pos⟩ []).Loose source := ⟨.leaf hstart.within hr.ahead.here, rfl⟩
  exact ⟨{ hr with trivia := List.forall_mem_cons.mpr ⟨hnote, hr.trivia⟩ }⟩

instance placed_passFault (r : Reading) [Placed source r] : Placed source r.passFault := by
  have hr : r.Within source := inPlace r
  refine ⟨fun r' hr' => ?_⟩
  obtain ⟨f, hf, rfl⟩ := Option.map_eq_some_iff.mp hr'
  have hfault := hr.faults f (List.mem_of_find?_eq_some hf)
  exact { inPlace (r.upTo f.tree.stop) with trivia := List.forall_mem_cons.mpr ⟨hfault, hr.trivia⟩ }

instance placed_upToFault (r later : Reading) [Placed source r] [hlater : Placed source later] :
    Placed source (r.upToFault later) := by
  unfold upToFault
  dsimp only
  split
  · exact placed_upTo r _
  · exact hlater

instance placed_takeMissing (r : Reading) (word : String) [Placed source r] :
    Placed source (r.takeMissing word) := by
  refine ⟨fun r' hr' => ?_⟩
  unfold takeMissing at hr'
  dsimp only at hr'
  split at hr'
  · obtain rfl := Option.some.inj hr'
    exact { inPlace (r.withTrivia .missing r.pos) with faults := (inPlace r).faults }
  · exact absurd hr' (by simp)

/-! ### Where only the bookkeeping differs -/

instance placed_indents (r : Reading) (indents : List Nat) [Placed source r] :
    Placed source { r with indents } := ⟨{ inPlace r with }⟩

instance placed_furthest (r s : Reading) [Placed source r] [Placed source s] :
    Placed source { r with furthest := s.furthest } := ⟨{ inPlace r with furthest := (inPlace s).furthest }⟩

instance placed_pieces (r s : Reading) [Placed source r] [Placed source s] :
    Placed source { r with pieces := s.pieces } := ⟨{ inPlace r with pieces := (inPlace s).pieces }⟩

theorem Within.settledPieces {r : Reading} (h : r.Within source) : ∀ p ∈ r.settledPieces, p.Within source := by
  unfold Reading.settledPieces
  split
  · rename_i p rest hpieces
    obtain ⟨hp, hrest⟩ := List.forall_mem_cons.mp (hpieces ▸ h.pieces)
    exact List.forall_mem_cons.mpr ⟨hp.settled, hrest⟩
  · simp

theorem Within.push {r : Reading} (h : r.Within source) {n : Node} (hn : n.Within source) :
    (r.push n).Within source :=
  { h with pieces := List.forall_mem_cons.mpr ⟨.mk (by simpa using hn) (by simp), h.settledPieces⟩ }

theorem Within.gather {r : Reading} (h : r.Within source) {ns : List Node} (hns : ∀ n ∈ ns, n.Within source)
    (grows : Bool) (start : Position) : (r.gather grows start ns).Within source := by
  unfold Reading.gather
  split
  · exact h
  · refine { h with pieces := List.forall_mem_cons.mpr ⟨.mk hns ?_, fun p hp => h.pieces p ?_⟩ }
    · -- the parts are those of the pieces that were put together
      have hbehind : ∀ p ∈ r.pieces.takeWhile (fun p => decide (start.byte ≤ p.start)), p.Within source :=
        fun p hp => h.pieces p (List.takeWhile_subset _ hp)
      intro q hq
      split at hq
      · rename_i p hp
        exact (hbehind p (hp ▸ List.mem_singleton_self p)).parts q hq
      · rename_i p ps _ hp
        split at hq
        · exact hbehind q (hp ▸ hq)
        · exact absurd hq List.not_mem_nil
      · exact absurd hq List.not_mem_nil
    · exact List.dropWhile_subset _ hp

theorem Within.edge {r : Reading} (h : r.Within source) (offset : Nat) : (r.edge offset).Within source := h.pieces

end Reading

end

end LogHygiene.Syntax
