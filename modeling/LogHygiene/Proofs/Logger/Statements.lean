import LogHygiene.Facts.Basic
import LogHygiene.Proofs.Syntax.Geometry
import LogHygiene.Proofs.Text.Utf8
import LogHygiene.Text.Blank

/-!
# The statements that set a logger up, as nodes

`importStatement` and `instanceStatement` are templates: they give text. Once the text stands in a file, a
reader makes nodes of it, and the rules look at those. The nodes are given here next to the templates, by
the offset at which the text starts, and with them what each of their words shows.

> **the nodes of a template show its holes, filled** (`instance_shows`, `factoryNode_text`,
> `dotted_shows`): the name of the logger, the factory, and the two halves of a factory with a dot.

That a reader makes these nodes is not claimed here. `Rework.Reread` asks it of the reader.
-/

set_option autoImplicit false

namespace LogHygiene

open Syntax

/-! ## Nodes by their offsets -/

/-- The place of an offset, counted in the file. -/
def Bytes.position (bytes : Bytes) (offset : Nat) : Position :=
  ⟨offset, newlines (bytes.take offset), ((bytes.take offset).reverse.takeWhile (· != 10)).length⟩

/-- A node of a file between two offsets. -/
def Bytes.node (bytes : Bytes) (k : Kind) (r : Role) (start stop : Nat) (children : List Node) : Node :=
  .mk k r ⟨bytes.position start, bytes.position stop⟩ children

/-- The bytes of a text, counted. -/
def Bytes.widthOf (text : String) : Nat := (Bytes.ofText text).length

/-- The node of `object.property` at an offset. -/
def Bytes.dotted (bytes : Bytes) (family : Family) (r : Role) (start : Nat) (object property : String) :
    Node :=
  let dot := start + widthOf object
  let stop := dot + 1 + widthOf property
  bytes.node .member r start stop
    [bytes.node .identifier .object start dot [],
      bytes.node (match family with | .javascript => .propertyName | .python => .identifier) .property
        (dot + 1) stop []]

/-- A file shows a text from an offset on. -/
def Bytes.Shows (bytes : Bytes) (start : Nat) (text : String) : Prop :=
  ∃ front rest, bytes = front ++ (ofText text ++ rest) ∧ front.length = start

namespace Bytes.Shows

variable {bytes : Bytes} {start : Nat} {s t : String}

theorem textBetween (h : bytes.Shows start s) : bytes.textBetween start (start + widthOf s) = s := by
  obtain ⟨front, rest, rfl, rfl⟩ := h
  rw [Bytes.textBetween, slice, List.drop_left, Nat.add_sub_cancel_left, widthOf, List.take_left,
    text?_ofText]
  rfl

theorem left (h : bytes.Shows start (s ++ t)) : bytes.Shows start s := by
  obtain ⟨front, rest, rfl, hlength⟩ := h
  exact ⟨front, ofText t ++ rest, by rw [ofText_append, List.append_assoc], hlength⟩

theorem right (h : bytes.Shows start (s ++ t)) : bytes.Shows (start + widthOf s) t := by
  obtain ⟨front, rest, rfl, rfl⟩ := h
  exact ⟨front ++ ofText s, rest, by rw [ofText_append, List.append_assoc, List.append_assoc],
    List.length_append⟩

theorem of_slice {stop : Nat} (h : bytes.slice start stop = ofText s) (hne : s ≠ "") :
    bytes.Shows start s := by
  refine ⟨bytes.take start, (bytes.drop start).drop (stop - start), ?_, ?_⟩
  · rw [← h, slice, List.take_append_drop, List.take_append_drop]
  · have hshort : start ≤ bytes.length := by
      refine Nat.not_lt.mp fun hlong => ?_
      rw [slice, List.drop_eq_nil_of_le (Nat.le_of_lt hlong), List.take_nil] at h
      exact hne (ofText_injective h.symm)
    rw [List.length_take, Nat.min_eq_left hshort]

end Bytes.Shows

theorem Bytes.widthOf_append (s t : String) : widthOf (s ++ t) = widthOf s + widthOf t := by
  rw [widthOf, ofText_append, List.length_append]
  rfl

theorem Bytes.text_node {bytes : Bytes} {k : Kind} {r : Role} {start stop : Nat} {children : List Node}
    {s : String} (h : bytes.Shows start s) (hstop : stop = start + widthOf s) :
    (bytes.node k r start stop children).text bytes = s := by
  subst hstop
  exact h.textBetween

/-- What `object.property` shows, whole and in parts. -/
theorem Bytes.dotted_shows {bytes : Bytes} {family : Family} {r : Role} {start : Nat}
    {object property : String} (h : bytes.Shows start (object ++ "." ++ property)) :
    (bytes.dotted family r start object property).text bytes = object ++ "." ++ property ∧
      ∃ o p, (bytes.dotted family r start object property).child? .object = some o ∧
        (bytes.dotted family r start object property).child? .property = some p ∧
        o.kind = .identifier ∧ (family = .javascript → p.kind = .propertyName) ∧
        o.text bytes = object ∧ p.text bytes = property := by
  have hdot : widthOf "." = 1 := rfl
  have hproperty := h.right
  rw [widthOf_append, hdot, ← Nat.add_assoc] at hproperty
  refine ⟨text_node h ?_, _, _, rfl, rfl, rfl, ?_, text_node h.left.left rfl, text_node hproperty rfl⟩
  · rw [widthOf_append, widthOf_append, hdot]
    omega
  · rintro rfl
    rfl

/-- Whatever a logger is called, what takes the place of a callee ends in the dot and the method. -/
theorem Level.suffix_method (family : Family) (name : String) (level : Level) :
    ('.' :: (level.method family).toList) <:+
      (Text.withoutBlanks (name ++ "." ++ level.method family)).toList := by
  have hmethod : (level.method family).toList.filter (fun c => !Text.isBlank c) =
      (level.method family).toList := by
    cases family <;> cases level <;> decide
  have hdot : ".".toList.filter (fun c => !Text.isBlank c) = ['.'] := by decide
  rw [Text.withoutBlanks, String.toList_ofList, String.toList_append, String.toList_append,
    List.filter_append, List.filter_append, hmethod, hdot, List.append_assoc, List.singleton_append]
  exact List.suffix_append _ _

/-! ## The statements that are put in -/

/-- The node of `importStatement` at an offset. -/
def Bytes.importNode (bytes : Bytes) (family : Family) (style : ModuleStyle) (backend : Backend)
    (start : Nat) : Node :=
  let m := widthOf backend.module
  match family, style with
  | .python, _ =>
    bytes.node .importStatement .none start (start + 7 + m)
      [bytes.node .expression .name (start + 7) (start + 7 + m) []]
  | .javascript, .es =>
    bytes.node .importStatement .none start (start + 16 + m + m)
      [bytes.node .importClause .none (start + 7) (start + 7 + m)
        [bytes.node .identifier .none (start + 7) (start + 7 + m) []],
      bytes.node .string .source (start + 13 + m) (start + 15 + m + m) []]
  | .javascript, .commonJs =>
    bytes.node .lexicalDeclaration .none start (start + 21 + m + m)
      [bytes.node .declarator .none (start + 6) (start + 20 + m + m)
        [bytes.node .identifier .name (start + 6) (start + 6 + m) [],
        bytes.node .call .value (start + 9 + m) (start + 20 + m + m)
          [bytes.node .identifier .callee (start + 9 + m) (start + 16 + m) [],
          bytes.node .clause .arguments (start + 16 + m) (start + 20 + m + m)
            [bytes.node .string .none (start + 17 + m) (start + 19 + m + m) []]]]]

/-- The node of `Binding.factory` at an offset, as a callee. -/
def Bytes.factoryNode (bytes : Bytes) (family : Family) (b : Binding) (start : Nat) : Node :=
  match family, b.kind, b.backend with
  | .javascript, .module, .winston => bytes.dotted family .callee start b.name "createLogger"
  | .javascript, _, _ => bytes.node .identifier .callee start (start + widthOf b.name) []
  | .python, .factory, _ => bytes.node .identifier .callee start (start + widthOf b.name) []
  | .python, .module, .structlog => bytes.dotted family .callee start b.name "get_logger"
  | .python, .module, _ => bytes.dotted family .callee start b.name "getLogger"

/-- Where the factory stands in the line that creates a logger. -/
def factoryOffset (family : Family) (name : String) : Nat :=
  match family with
  | .javascript => 9 + Bytes.widthOf name
  | .python => 3 + Bytes.widthOf name

/-- Where the name stands in the line that creates a logger. -/
def nameOffset : Family → Nat
  | .javascript => 6
  | .python => 0

/-- The node of `instanceStatement` at an offset. -/
def Bytes.instanceNode (bytes : Bytes) (family : Family) (b : Binding) (name : String) (start : Nat) :
    Node :=
  let nameStart := start + nameOffset family
  let factoryStart := start + factoryOffset family name
  let arguments := factoryStart + widthOf (b.factory family)
  match family with
  | .javascript =>
    bytes.node .lexicalDeclaration .none start (arguments + 3)
      [bytes.node .declarator .none nameStart (arguments + 2)
        [bytes.node .identifier .name nameStart (nameStart + widthOf name) [],
        bytes.node .call .value factoryStart (arguments + 2)
          [bytes.factoryNode family b factoryStart,
          bytes.node .clause .arguments arguments (arguments + 2) []]]]
  | .python =>
    bytes.node .expressionStatement .none start (arguments + 10)
      [bytes.node .assignment .none start (arguments + 10)
        [bytes.node .identifier .left nameStart (nameStart + widthOf name) [],
        bytes.node .call .right factoryStart (arguments + 10)
          [bytes.factoryNode family b factoryStart,
          bytes.node .clause .arguments arguments (arguments + 10)
            [bytes.node .identifier .none (arguments + 1) (arguments + 9) []]]]]

/-- A file shows each piece of a text that it shows. -/
theorem Bytes.Shows.piece {bytes : Bytes} {start i : Nat} {text front s back : String}
    (h : bytes.Shows start text) (hsplit : text = front ++ s ++ back) (hi : i = start + widthOf front) :
    bytes.Shows i s := by
  subst hsplit hi
  exact h.left.right

/-- Where the import by `require` shows that word. -/
theorem Bytes.require_shows {bytes : Bytes} {backend : Backend} {start : Nat}
    (h : bytes.Shows start (importStatement .javascript .commonJs backend)) :
    bytes.Shows (start + 9 + widthOf backend.module) "require" := by
  have hsplit : importStatement .javascript .commonJs backend =
      "const " ++ backend.module ++ " = " ++ "require" ++ ("('" ++ backend.module ++ "');") := by
    cases backend <;> decide
  refine h.piece hsplit ?_
  rw [widthOf_append, widthOf_append]
  show start + 9 + widthOf backend.module = start + (6 + widthOf backend.module + 3)
  omega

theorem Bytes.instance_shows {bytes : Bytes} {family : Family} {b : Binding} {name : String} {start : Nat}
    (h : bytes.Shows start (instanceStatement family b name)) :
    bytes.Shows (start + nameOffset family) name ∧
      bytes.Shows (start + factoryOffset family name) (b.factory family) := by
  cases family with
  | javascript =>
    have hname : bytes.Shows start ("const " ++ name) := h.left.left.left
    have hfactory := (Shows.left (t := "();") h).right
    rw [widthOf_append, widthOf_append] at hfactory
    refine ⟨hname.right, ?_⟩
    have hwidth : start + factoryOffset .javascript name =
        start + (widthOf "const " + widthOf name + widthOf " = ") := by
      show start + (9 + widthOf name) = start + (6 + widthOf name + 3)
      omega
    rw [hwidth]
    exact hfactory
  | python =>
    have hfactory := (Shows.left (t := "(__name__)") h).right
    rw [widthOf_append] at hfactory
    refine ⟨h.left.left.left, ?_⟩
    have hwidth : start + factoryOffset .python name = start + (widthOf name + widthOf " = ") := by
      show start + (3 + widthOf name) = start + (widthOf name + 3)
      omega
    rw [hwidth]
    exact hfactory

/-- A factory is what a binding names, or one of three methods of it. -/
theorem Binding.factory_cases (family : Family) (b : Binding) :
    (b.factory family = b.name ∧ ∀ (bytes : Bytes) (start : Nat), bytes.factoryNode family b start =
      bytes.node .identifier .callee start (start + Bytes.widthOf b.name) []) ∨
    ∃ method ∈ ["createLogger", "get_logger", "getLogger"],
      b.factory family = b.name ++ "." ++ method ∧ ∀ (bytes : Bytes) (start : Nat),
        bytes.factoryNode family b start = bytes.dotted family .callee start b.name method := by
  have hdot : ∀ method dotted : String, "." ++ method = dotted →
      b.name ++ dotted = b.name ++ "." ++ method := by
    intro method dotted h
    rw [← h, String.append_assoc]
  obtain ⟨backend, name, kind⟩ := b
  cases family with
  | javascript =>
    cases kind with
    | factory => cases backend <;> exact .inl ⟨rfl, fun _ _ => rfl⟩
    | module =>
      cases backend with
      | winston => exact .inr ⟨"createLogger", by simp, hdot _ _ rfl, fun _ _ => rfl⟩
      | _ => exact .inl ⟨rfl, fun _ _ => rfl⟩
  | python =>
    cases kind with
    | factory => cases backend <;> exact .inl ⟨rfl, fun _ _ => rfl⟩
    | module =>
      cases backend with
      | structlog => exact .inr ⟨"get_logger", by simp, hdot _ _ rfl, fun _ _ => rfl⟩
      | _ => exact .inr ⟨"getLogger", by simp, hdot _ _ rfl, fun _ _ => rfl⟩

theorem Bytes.factoryNode_role (bytes : Bytes) (family : Family) (b : Binding) (start : Nat) :
    (bytes.factoryNode family b start).role = .callee := by
  rcases b.factory_cases family with ⟨-, hnode⟩ | ⟨method, -, -, hnode⟩ <;> rw [hnode] <;> rfl

/-- A factory's node shows the factory. -/
theorem Bytes.factoryNode_text {bytes : Bytes} {family : Family} {b : Binding} {start : Nat}
    (h : bytes.Shows start (b.factory family)) :
    (bytes.factoryNode family b start).text bytes = b.factory family := by
  rcases b.factory_cases family with ⟨hname, hnode⟩ | ⟨method, -, hdotted, hnode⟩
  · rw [hnode, hname]
    exact text_node (hname ▸ h) rfl
  · rw [hnode, hdotted]
    exact (dotted_shows (hdotted ▸ h)).1

/-! ## Calls among the new statements -/

/-- An import is no comment, and the one call that it may hold is of a name. -/
theorem Bytes.importNode_call {bytes : Bytes} {family : Family} {style : ModuleStyle} {backend : Backend}
    {start : Nat} {x : Node} (hx : x ∈ (bytes.importNode family style backend start).preorder) :
    x.kind ≠ .comment ∧ (x.kind = .call → family = .javascript ∧
      ∃ callee, x.child? .callee = some callee ∧ callee.kind = .identifier) := by
  cases family with
  | python =>
    simp only [importNode, node, Node.preorder, Node.preorderAll, List.cons_append, List.nil_append,
      List.mem_cons, List.not_mem_nil, or_false] at hx
    rcases hx with rfl | rfl <;> exact ⟨by simp [Node.kind], by simp [Node.kind]⟩
  | javascript =>
    cases style with
    | es =>
      simp only [importNode, node, Node.preorder, Node.preorderAll, List.cons_append, List.nil_append,
        List.append_nil, List.mem_cons, List.not_mem_nil, or_false] at hx
      rcases hx with rfl | rfl | rfl | rfl <;> exact ⟨by simp [Node.kind], by simp [Node.kind]⟩
    | commonJs =>
      simp only [importNode, node, Node.preorder, Node.preorderAll, List.cons_append, List.nil_append,
        List.append_nil, List.mem_cons, List.not_mem_nil, or_false] at hx
      rcases hx with rfl | rfl | rfl | rfl | rfl | rfl | rfl
      case inr.inr.inr.inl => exact ⟨by simp [Node.kind], fun _ => ⟨rfl, _, rfl, rfl⟩⟩
      all_goals exact ⟨by simp [Node.kind], by simp [Node.kind]⟩

/-- Nothing in the node of a factory is a comment or a call. -/
theorem Bytes.factoryNode_plain {bytes : Bytes} {family : Family} {b : Binding} {start : Nat} {x : Node}
    (hx : x ∈ (bytes.factoryNode family b start).preorder) : x.kind ≠ .comment ∧ x.kind ≠ .call := by
  rcases b.factory_cases family with ⟨-, hnode⟩ | ⟨method, -, -, hnode⟩
  · rw [hnode] at hx
    simp only [node, Node.preorder, Node.preorderAll, List.mem_cons, List.not_mem_nil, or_false] at hx
    subst hx
    exact ⟨by simp [Node.kind], by simp [Node.kind]⟩
  · rw [hnode] at hx
    simp only [dotted, node, Node.preorder, Node.preorderAll, List.cons_append, List.nil_append,
      List.append_nil, List.mem_cons, List.not_mem_nil, or_false] at hx
    rcases hx with rfl | rfl | rfl
    · exact ⟨by simp [Node.kind], by simp [Node.kind]⟩
    · exact ⟨by simp [Node.kind], by simp [Node.kind]⟩
    · cases family <;> exact ⟨by simp [Node.kind], by simp [Node.kind]⟩

/-- The line that creates a logger holds one call, of the factory. -/
theorem Bytes.instanceNode_call {bytes : Bytes} {family : Family} {b : Binding} {name : String}
    {start : Nat} : (∀ x ∈ (bytes.instanceNode family b name start).preorder, x.kind ≠ .comment ∧
      (x.kind = .call → x.span.start = bytes.position (start + factoryOffset family name) ∧
        x.child? .callee = some (bytes.factoryNode family b (start + factoryOffset family name)))) ∧
    ∃ x ∈ (bytes.instanceNode family b name start).preorder, x.kind = .call := by
  have hcallee : ∀ (k : Kind) (r : Role) (i j at_ : Nat) (rest : List Node),
      (bytes.node k r i j (bytes.factoryNode family b at_ :: rest)).child? .callee =
        some (bytes.factoryNode family b at_) := by
    intro k r i j at_ rest
    exact List.find?_cons_of_pos (by simp [factoryNode_role])
  constructor
  · intro x hx
    cases family with
    | javascript =>
      simp only [instanceNode, node, Node.preorder, Node.preorderAll, List.cons_append, List.nil_append,
        List.append_nil, List.mem_cons, List.mem_append, List.not_mem_nil, or_false] at hx
      rcases hx with rfl | rfl | rfl | rfl | hx | rfl
      case inr.inr.inr.inl => exact ⟨by simp [Node.kind], fun _ => ⟨rfl, hcallee _ _ _ _ _ _⟩⟩
      case inr.inr.inr.inr.inl =>
        exact ⟨(factoryNode_plain hx).1, fun hcall => absurd hcall (factoryNode_plain hx).2⟩
      all_goals exact ⟨by simp [Node.kind], by simp [Node.kind]⟩
    | python =>
      simp only [instanceNode, node, Node.preorder, Node.preorderAll, List.cons_append, List.nil_append,
        List.append_nil, List.mem_cons, List.mem_append, List.not_mem_nil, or_false] at hx
      rcases hx with rfl | rfl | rfl | rfl | hx | rfl | rfl
      case inr.inr.inr.inl => exact ⟨by simp [Node.kind], fun _ => ⟨rfl, hcallee _ _ _ _ _ _⟩⟩
      case inr.inr.inr.inr.inl =>
        exact ⟨(factoryNode_plain hx).1, fun hcall => absurd hcall (factoryNode_plain hx).2⟩
      all_goals exact ⟨by simp [Node.kind], by simp [Node.kind]⟩
  · cases family <;>
      exact ⟨_, Node.mem_preorder.mpr (.inr ⟨_, List.mem_cons_self, Node.mem_preorder.mpr
        (.inr ⟨_, List.mem_cons_of_mem _ List.mem_cons_self, Node.mem_preorder_self _⟩)⟩), rfl⟩

end LogHygiene
