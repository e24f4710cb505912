import LogHygiene.Proofs.Facts.Loggers
import LogHygiene.Proofs.Logger.Statements

/-!
# Recognising a logger that was set up

The templates of `Logger.Statement` write statements, and the logger rules read statements. Nothing makes
the two agree: a template takes the name of its factory from a binding, and the rules know factories by a
list and by the binding that they came across first.

> **a written statement is read as a logger exactly if its factory is on the list or belongs to the binding
> that is known where the statement stands** (`Binding.recognized`, `visit_instanceNode`).

For a backend that was just imported the list is enough (`fresh_recognized`).
-/

set_option autoImplicit false

namespace LogHygiene

open Syntax

/-- The callees that return a logger. -/
def Facts.loggerFactories : Family → List String
  | .javascript => JavaScript.loggerFactories
  | .python => Python.loggerFactories

/-- Whether what is known of loggers tells that the factory of a binding makes one. -/
def Binding.recognized (family : Family) (b : Binding) (l : LoggerFacts) : Bool :=
  (Facts.loggerFactories family).contains (Text.withoutBlanks (b.factory family)) ||
    l.binding.any fun known => Text.withoutBlanks (b.factory family) == known.factory family

/-- The factory of a new import is on the list. -/
theorem Binding.fresh_recognized {backend : Backend} {family : Family} (h : backend.family = family)
    (l : LoggerFacts) : (fresh backend).recognized family l = true := by
  have hlisted : (Facts.loggerFactories backend.family).contains
      (Text.withoutBlanks ((fresh backend).factory backend.family)) = true := by
    cases backend <;> decide
  subst h
  rw [recognized, hlisted, Bool.true_or]

namespace Facts

variable {bytes : Bytes} {family : Family} {style : ModuleStyle} {backend : Backend} {b : Binding}
  {name : String} {start : Nat} {l : LoggerFacts}

theorem callsFactory_factoryNode {methods : List String} (h : bytes.Shows start (b.factory family))
    (hmethods : ∀ method ∈ ["createLogger", "get_logger", "getLogger"], method ∉ methods) :
    callsFactory bytes family (loggerFactories family) methods l (bytes.factoryNode family b start) =
      b.recognized family l := by
  have hderived : ((bytes.factoryNode family b start).kind == .member &&
      ((bytes.factoryNode family b start).child? .object).any fun object =>
        ((bytes.factoryNode family b start).child? .property).any fun property =>
          methods.contains (property.text bytes) && l.names.contains (object.text bytes)) = false := by
    rcases b.factory_cases family with ⟨-, hnode⟩ | ⟨method, hmethod, hdotted, hnode⟩
    · rw [hnode]
      exact Bool.false_and _
    · rw [hdotted] at h
      obtain ⟨-, o, p, ho, hp, -, -, -, hpText⟩ := Bytes.dotted_shows h
      have hnot : methods.contains method = false := by
        rw [Bool.eq_false_iff, ne_eq, List.contains_iff_mem]
        exact hmethods method hmethod
      rw [hnode, ho, hp, Option.any_some, Option.any_some, hpText, hnot, Bool.false_and, Bool.and_false]
  rw [callsFactory, Bytes.factoryNode_text h, hderived, Bool.or_false, Binding.recognized]

theorem factoryNode_kind (bytes : Bytes) (family : Family) (b : Binding) (start : Nat) :
    (bytes.factoryNode family b start).kind ≠ .call :=
  (Bytes.factoryNode_plain (Node.mem_preorder_self _)).2

/-! ## JavaScript and TypeScript -/

namespace JavaScript

theorem requireSource?_of_no_call {n : Node} (h : n.kind ≠ .call) : requireSource? bytes n = none := by
  rw [requireSource?_eq, if_neg h]

/-- The line that creates a logger takes in no module. -/
theorem requireSource?_of_no_arguments {n list : Node} (hlist : n.child? .arguments = some list)
    (hempty : list.namedChildren = []) : requireSource? bytes n = none := by
  rw [requireSource?_eq]
  split
  · cases n.child? .callee with
    | none => rfl
    | some callee =>
      rw [Option.bind_some, hlist, Option.bind_some, hempty]
      split <;> rfl
  · rfl

theorem unwrapped_of_call {n : Node} (h : n.kind = .call) : unwrapped bytes n = n := by
  rw [unwrapped, unwrap, h]
  rfl

/-- **The line that creates a logger is read as one exactly if its factory is recognised.** -/
theorem visit_instanceNode (h : bytes.Shows start (instanceStatement .javascript b name)) (s : Scope) :
    (visit bytes s (bytes.instanceNode .javascript b name start)).logger =
      if b.recognized .javascript s.logger then s.logger.addInstance name else s.logger := by
  obtain ⟨hname, hfactory⟩ := Bytes.instance_shows h
  let nameStart := start + nameOffset .javascript
  let factoryStart := start + factoryOffset .javascript name
  let arguments := factoryStart + Bytes.widthOf (b.factory .javascript)
  let word := bytes.node .identifier .name nameStart (nameStart + Bytes.widthOf name) []
  let value := bytes.node .call .value factoryStart (arguments + 2)
    [bytes.factoryNode .javascript b factoryStart, bytes.node .clause .arguments arguments (arguments + 2) []]
  have hword : word.text bytes = name := Bytes.text_node hname rfl
  have hcallee : value.child? .callee = some (bytes.factoryNode .javascript b factoryStart) :=
    List.find?_cons_of_pos (by simp [Bytes.factoryNode_role])
  have hlist : value.child? .arguments = some (bytes.node .clause .arguments arguments (arguments + 2) []) :=
    (List.find?_cons_of_neg (by simp [Bytes.factoryNode_role])).trans (List.find?_cons_of_pos (by rfl))
  have hcreates : createsLogger bytes s.logger value = b.recognized .javascript s.logger := by
    have hother : (value.kind == .construction) = false := rfl
    have hkind : (value.kind == .call) = true := rfl
    rw [createsLogger_eq, hother, hkind, hcallee, Option.any_some, Bool.false_and, Bool.or_false,
      Bool.true_and, requireSource?_of_no_call (factoryNode_kind _ _ _ _)]
    exact callsFactory_factoryNode hfactory (by decide)
  have hdeclared := foldl_declare_logger (declaredNames bytes word) s
  have hvisit : visit bytes s (bytes.instanceNode .javascript b name start) =
      visitDeclarator bytes s (bytes.node .declarator .none nameStart (arguments + 2) [word, value]) := rfl
  have hnameChild : (bytes.node .declarator .none nameStart (arguments + 2) [word, value]).child? .name =
      some word := rfl
  have hvalueChild : (bytes.node .declarator .none nameStart (arguments + 2) [word, value]).child? .value =
      some value := rfl
  have hplain : (word.kind == .identifier) = true := rfl
  rw [hvisit]
  unfold visitDeclarator
  simp only [hnameChild, hvalueChild, Option.map_some, unwrapped_of_call (show value.kind = .call from rfl),
    requireSource?_of_no_arguments hlist rfl, hplain, Bool.true_and, hdeclared, hcreates, hword]
  split
  · rfl
  · exact hdeclared

/-- The line that imports a backend creates no logger. -/
theorem visit_importNode (h : bytes.Shows start (importStatement .javascript style backend)) (s : Scope) :
    s.logger.Borrows (visit bytes s (bytes.importNode .javascript style backend start)).logger := by
  cases style with
  | es =>
    have hvisit : visit bytes s (bytes.importNode .javascript .es backend start) =
        visitImport bytes s (bytes.importNode .javascript .es backend start) := rfl
    rw [hvisit]
    exact visitImport_borrows s _
  | commonJs =>
    let m := Bytes.widthOf backend.module
    let callee := bytes.node .identifier .callee (start + 9 + m) (start + 16 + m) []
    let word := bytes.node .string .none (start + 17 + m) (start + 19 + m + m) []
    let value := bytes.node .call .value (start + 9 + m) (start + 20 + m + m)
      [callee, bytes.node .clause .arguments (start + 16 + m) (start + 20 + m + m) [word]]
    let declarator := bytes.node .declarator .none (start + 6) (start + 20 + m + m)
      [bytes.node .identifier .name (start + 6) (start + 6 + m) [], value]
    have hcallee : callee.text bytes = "require" := by
      refine Bytes.text_node (Bytes.require_shows h) ?_
      show start + 16 + m = start + 9 + m + 7
      omega
    have hrequire : requireSource? bytes (unwrapped bytes value) = stringValue? bytes word := by
      rw [unwrapped_of_call rfl, requireSource?_eq]
      have hchild : value.child? .callee = some callee := rfl
      rw [hchild, Option.bind_some, hcallee]
      rfl
    have hvisit : visit bytes s (bytes.importNode .javascript .commonJs backend start) =
        visitDeclarator bytes s declarator := rfl
    have hvalue : declarator.child? .value = some value := rfl
    rw [hvisit]
    refine visitDeclarator_borrows hvalue ?_
    rw [hrequire]
    rfl

end JavaScript

/-! ## Python -/

namespace Python

/-- **The line that creates a logger is read as one exactly if its factory is recognised.** -/
theorem visit_instanceNode (h : bytes.Shows start (instanceStatement .python b name)) (s : Scope) :
    (visit bytes s (bytes.instanceNode .python b name start)).logger =
      if b.recognized .python s.logger then s.logger.addInstance name else s.logger := by
  obtain ⟨hname, hfactory⟩ := Bytes.instance_shows h
  let nameStart := start + nameOffset .python
  let factoryStart := start + factoryOffset .python name
  let arguments := factoryStart + Bytes.widthOf (b.factory .python)
  let word := bytes.node .identifier .left nameStart (nameStart + Bytes.widthOf name) []
  let value := bytes.node .call .right factoryStart (arguments + 10)
    [bytes.factoryNode .python b factoryStart, bytes.node .clause .arguments arguments (arguments + 10)
      [bytes.node .identifier .none (arguments + 1) (arguments + 9) []]]
  let assignment := bytes.node .assignment .none start (arguments + 10) [word, value]
  have hword : word.text bytes = name := Bytes.text_node hname rfl
  have hcallee : value.child? .callee = some (bytes.factoryNode .python b factoryStart) :=
    List.find?_cons_of_pos (by simp [Bytes.factoryNode_role])
  have hcreates : createsLogger bytes s.logger value = b.recognized .python s.logger := by
    have hkind : (value.kind == .call) = true := rfl
    rw [createsLogger_eq, hkind, hcallee, Option.any_some, Bool.true_and]
    exact callsFactory_factoryNode hfactory (by decide)
  have hdeclared := foldl_declare_logger (boundNames bytes (bytes.length + 1) word) s
  have hvisit : visit bytes s (bytes.instanceNode .python b name start) =
      visitAssignment bytes s assignment := rfl
  have hleft : assignment.child? .left = some word := rfl
  have hright : assignment.child? .right = some value := rfl
  have hplain : (word.kind != .identifier) = false := rfl
  rw [hvisit]
  unfold visitAssignment
  simp only [hleft, hright, Option.any_some, hplain, Bool.false_eq_true, if_false, hdeclared, hcreates, hword]
  split
  · rfl
  · exact hdeclared

/-- The line that imports a backend creates no logger. -/
theorem visit_importNode (s : Scope) :
    s.logger.Borrows (visit bytes s (bytes.importNode .python style backend start)).logger := by
  have hvisit : visit bytes s (bytes.importNode .python style backend start) =
      ((bytes.importNode .python style backend start).childrenIn .name).foldl (visitImport bytes) s := rfl
  rw [hvisit]
  exact foldl_borrows visitImport_borrows _ s

end Python

end Facts

end LogHygiene
