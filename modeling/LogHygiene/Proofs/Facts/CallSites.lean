import LogHygiene.Facts.Extraction
import LogHygiene.Proofs.Rows
import LogHygiene.Proofs.Syntax.Geometry
import LogHygiene.Proofs.Text.Utf8

/-!
# Where call sites stand

A fix replaces the callee of every call it rewrites, so two callees must not touch the same bytes. Calls
nest (a call in the arguments of another is flagged on its own) and calls are chained (`f(1)(2)` is two
calls that start together), and nothing in the rule for a flagged call speaks of other calls.

> **the callees of two flagged calls never overlap** (`calls_apart`), because no flagged call stands
> inside the callee of another (`callSite?_eq_none_of_callee`).

The reason is different in each family. A flagged callee in JavaScript is `console`, a dot and a short
name; a call that is flagged needs more bytes than either name has. A flagged callee in Python is, blanks
apart, one of a few names without a parenthesis; a call has one.

## What is asked of a tree

`ParsedFile.WellFormed` says what a reader promises and these arguments use: the file is text, the tree
is nested, nodes start and stop between characters, a member has an object, a property and leaves, and a
Python call has its parenthesis behind what it calls. Nothing is asked of faults.
-/

set_option autoImplicit false

namespace LogHygiene

open Syntax

/-! ## Texts and spans -/

namespace Bytes

theorem mem_slice {bytes : Bytes} {i j : Nat} {x : UInt8} :
    x ∈ bytes.slice i j ↔ ∃ k, i ≤ k ∧ k < j ∧ bytes[k]? = some x := by
  rw [slice, List.mem_iff_getElem?]
  constructor
  · rintro ⟨k, hk⟩
    rw [List.getElem?_take, List.getElem?_drop] at hk
    split at hk
    · exact ⟨i + k, Nat.le_add_right _ _, by omega, hk⟩
    · exact absurd hk (by simp)
  · rintro ⟨k, hik, hkj, hk⟩
    refine ⟨k - i, ?_⟩
    rw [List.getElem?_take, List.getElem?_drop, if_pos (by omega), Nat.add_sub_cancel' hik, hk]

/-- A text between two offsets that is not empty is spelled by the bytes between them. -/
theorem slice_of_textBetween {bytes : Bytes} {i j : Nat} {text : String}
    (h : bytes.textBetween i j = text) (hne : text ≠ "") : bytes.slice i j = ofText text := by
  unfold textBetween at h
  cases ht : (bytes.slice i j).text? with
  | none => rw [ht] at h; exact absurd h.symm hne
  | some t =>
    rw [ht] at h
    obtain rfl : t = text := h
    exact text?_eq_some.mp ht

end Bytes

namespace Syntax.Node

/-- A node that shows a text is as wide as the text. -/
theorem width_of_text {source : Bytes} {n : Node} {text : String} (h : n.text source = text)
    (hne : text ≠ "") (hforward : n.start ≤ n.stop) (hlen : n.stop ≤ source.length) :
    n.start + (Bytes.ofText text).length = n.stop := by
  rw [← Bytes.slice_of_textBetween h hne, Bytes.slice, List.length_take, List.length_drop]
  omega

/-- A node with one object and one property, and with leaves beside them. -/
structure MemberShape (n : Node) : Prop where
  oneObject : (n.childrenIn .object).length ≤ 1
  oneProperty : (n.childrenIn .property).length ≤ 1
  leaves : ∀ c ∈ n.children, c.role = .object ∨ c.role = .property ∨ c.children = []

instance (n : Node) : Decidable n.MemberShape :=
  decidable_of_iff ((n.childrenIn .object).length ≤ 1 ∧ (n.childrenIn .property).length ≤ 1 ∧
      ∀ c ∈ n.children, c.role = .object ∨ c.role = .property ∨ c.children = [])
    ⟨fun ⟨h₁, h₂, h₃⟩ => ⟨h₁, h₂, h₃⟩, fun ⟨h₁, h₂, h₃⟩ => ⟨h₁, h₂, h₃⟩⟩

theorem eq_of_childrenIn_le_one {n c d : Node} {r : Role} (hone : (n.childrenIn r).length ≤ 1)
    (hc : n.child? r = some c) (hd : d ∈ n.children) (hr : d.role = r) : d = c := by
  have hmem : d ∈ n.childrenIn r := List.mem_filter.mpr ⟨hd, by simpa using hr⟩
  have hhead : (n.childrenIn r).head? = some c := by rw [childrenIn, List.head?_filter]; exact hc
  rcases hrow : n.childrenIn r with _ | ⟨e, _ | ⟨e', rest⟩⟩
  · rw [hrow] at hmem; exact absurd hmem (by simp)
  · rw [hrow] at hmem hhead
    exact (List.mem_singleton.mp hmem).trans (Option.some.inj hhead)
  · rw [hrow] at hone; exact absurd hone (by simp)

end Syntax.Node

/-! ## The rules for a flagged call -/

namespace Facts

theorem JavaScript.callSite?_eq_some {source : Bytes} {n : Node} {c : CallSite}
    (h : JavaScript.callSite? source n = some c) :
    n.kind = .call ∧ ∃ callee object property level, n.child? .callee = some callee ∧
      callee.kind = .member ∧ callee.child? .object = some object ∧
      callee.child? .property = some property ∧ object.text source = "console" ∧
      JavaScript.consoleLevels.lookup (property.text source) = some level ∧
      c = ⟨.console, some (property.text source), level, callee.span, callee.text source, n.span⟩ := by
  simp only [callSite?, bne_iff_ne, ne_eq, Bool.or_eq_true, Option.pure_def, Option.bind_eq_bind,
    Option.bind_none, ite_not, Option.ite_none_right_eq_some, Option.bind_eq_some_iff,
    Option.ite_none_left_eq_some, not_or, Decidable.not_not, Option.some.injEq] at h
  obtain ⟨hkind, callee, hcallee, hmember, object, hobject, property, hproperty, -, hconsole, level,
    hlevel, hc⟩ := h
  exact ⟨hkind, callee, object, property, level, hcallee, hmember, hobject, hproperty, hconsole,
    hlevel, hc.symm⟩

theorem Python.callSite?_eq_some {source : Bytes} {n : Node} {c : CallSite}
    (h : Python.callSite? source n = some c) :
    n.kind = .call ∧ ∃ callee row, n.child? .callee = some callee ∧
      Python.printCalls.lookup (Text.withoutBlanks (callee.text source)) = some row ∧
      c = ⟨row.1, row.2.1, row.2.2, callee.span, callee.text source, n.span⟩ := by
  simp only [callSite?, bne_iff_ne, ne_eq, Option.pure_def, Option.bind_eq_bind, Option.bind_none,
    ite_not, Option.ite_none_right_eq_some, Option.bind_eq_some_iff, Option.some.injEq] at h
  obtain ⟨hkind, callee, hcallee, row, hrow, hc⟩ := h
  exact ⟨hkind, callee, row, hcallee, hrow, hc.symm⟩

theorem JavaScript.isSome_callSite? {source : Bytes} {n : Node} :
    (JavaScript.callSite? source n).isSome = true ↔ n.kind = .call ∧ ∃ callee object property,
      n.child? .callee = some callee ∧ callee.kind = .member ∧ callee.child? .object = some object ∧
      callee.child? .property = some property ∧ object.kind = .identifier ∧
      property.kind = .propertyName ∧ object.text source = "console" ∧
      (JavaScript.consoleLevels.lookup (property.text source)).isSome = true := by
  rw [Option.isSome_iff_exists]
  simp only [callSite?, bne_iff_ne, ne_eq, Bool.or_eq_true, Option.pure_def, Option.bind_eq_bind,
    Option.bind_none, ite_not, Option.ite_none_right_eq_some, Option.bind_eq_some_iff,
    Option.ite_none_left_eq_some, not_or, Decidable.not_not, Option.some.injEq]
  constructor
  · rintro ⟨c, hkind, callee, hcallee, hmember, object, hobject, property, hproperty, hkinds, hconsole,
      level, hlevel, -⟩
    exact ⟨hkind, callee, object, property, hcallee, hmember, hobject, hproperty, hkinds.1, hkinds.2,
      hconsole, by rw [hlevel]; rfl⟩
  · rintro ⟨hkind, callee, object, property, hcallee, hmember, hobject, hproperty, hok, hpk, hconsole,
      hlevel⟩
    obtain ⟨level, hlevel⟩ := Option.isSome_iff_exists.mp hlevel
    exact ⟨_, hkind, callee, hcallee, hmember, object, hobject, property, hproperty, ⟨hok, hpk⟩,
      hconsole, level, hlevel, rfl⟩

theorem Python.isSome_callSite? {source : Bytes} {n : Node} :
    (Python.callSite? source n).isSome = true ↔ n.kind = .call ∧ ∃ callee,
      n.child? .callee = some callee ∧
      (Python.printCalls.lookup (Text.withoutBlanks (callee.text source))).isSome = true := by
  rw [Option.isSome_iff_exists]
  simp only [callSite?, bne_iff_ne, ne_eq, Option.pure_def, Option.bind_eq_bind, Option.bind_none,
    ite_not, Option.ite_none_right_eq_some, Option.bind_eq_some_iff, Option.some.injEq]
  constructor
  · rintro ⟨c, hkind, callee, hcallee, row, hrow, -⟩
    exact ⟨hkind, callee, hcallee, by rw [hrow]; rfl⟩
  · rintro ⟨hkind, callee, hcallee, hrow⟩
    obtain ⟨row, hrow⟩ := Option.isSome_iff_exists.mp hrow
    exact ⟨_, hkind, callee, hcallee, row, hrow, rfl⟩

/-- What is called on `console` has a name of three to five bytes. -/
theorem JavaScript.consoleLevels_width : ∀ row ∈ JavaScript.consoleLevels, row.1 ≠ "" ∧
    3 ≤ (Bytes.ofText row.1).length ∧ (Bytes.ofText row.1).length ≤ 5 := by
  decide

/-- No callee that logs without a logger is empty or has a parenthesis. -/
theorem Python.printCalls_plain : ∀ row ∈ Python.printCalls, row.1 ≠ "" ∧ '(' ∉ row.1.toList := by
  decide

end Facts

/-! ## Well-formed files -/

/-- The byte of an opening parenthesis. -/
def openParenthesis : UInt8 := 40

namespace ParsedFile

/-- What the grammars of a family say about a node: a JavaScript member has the shape of one, and a Python
call has a parenthesis behind its callee. -/
def Shaped (f : ParsedFile) (n : Node) : Prop :=
  (f.grammar.family = .javascript → n.kind = .member → n.MemberShape) ∧
  (f.grammar.family = .python → n.kind = .call →
    ∀ callee ∈ n.child? .callee, openParenthesis ∈ f.source.slice callee.stop n.stop)

instance (f : ParsedFile) (n : Node) : Decidable (f.Shaped n) :=
  inferInstanceAs (Decidable ((f.grammar.family = .javascript → n.kind = .member → n.MemberShape) ∧
    (f.grammar.family = .python → n.kind = .call →
      ∀ callee ∈ n.child? .callee, openParenthesis ∈ f.source.slice callee.stop n.stop)))

/-- What a file and its tree are to each other. -/
structure WellFormed (f : ParsedFile) : Prop where
  text : f.source.text?.isSome = true
  nested : f.tree.Nested
  boundaries : ∀ n ∈ f.tree.preorder, f.source.isBoundary n.start = true ∧
    f.source.isBoundary n.stop = true
  shaped : ∀ n ∈ f.tree.preorder, f.Shaped n

instance (f : ParsedFile) : Decidable f.WellFormed :=
  decidable_of_iff (f.source.text?.isSome = true ∧ f.tree.Nested ∧
      (∀ n ∈ f.tree.preorder, f.source.isBoundary n.start = true ∧ f.source.isBoundary n.stop = true) ∧
      ∀ n ∈ f.tree.preorder, f.Shaped n)
    ⟨fun ⟨h₁, h₂, h₃, h₄⟩ => ⟨h₁, h₂, h₃, h₄⟩, fun ⟨h₁, h₂, h₃, h₄⟩ => ⟨h₁, h₂, h₃, h₄⟩⟩

/-- The call site that a node of a file is, if it is one. -/
def callSite? (f : ParsedFile) : Node → Option CallSite :=
  match f.grammar.family with
  | .javascript => Facts.JavaScript.callSite? f.source
  | .python => Facts.Python.callSite? f.source

theorem facts_calls (f : ParsedFile) :
    f.facts.calls = CallSite.inOrder (f.tree.preorder.filterMap f.callSite?) := by
  unfold facts callSite?
  cases f.grammar <;> rfl

variable {f : ParsedFile} {n m callee : Node} {c d : CallSite}

/-- What is common to the call sites of both families. -/
theorem callSite?_eq_some (h : f.callSite? n = some c) : n.kind = .call ∧ c.call = n.span ∧
    ∃ callee, n.child? .callee = some callee ∧ c.callee = callee.span ∧
      c.calleeText = callee.text f.source := by
  unfold callSite? at h
  cases hfamily : f.grammar.family with
  | javascript =>
    rw [hfamily] at h
    obtain ⟨hkind, callee, -, -, -, hcallee, -, -, -, -, -, rfl⟩ := Facts.JavaScript.callSite?_eq_some h
    exact ⟨hkind, rfl, callee, hcallee, rfl, rfl⟩
  | python =>
    rw [hfamily] at h
    obtain ⟨hkind, callee, -, hcallee, -, rfl⟩ := Facts.Python.callSite?_eq_some h
    exact ⟨hkind, rfl, callee, hcallee, rfl, rfl⟩

theorem callSite?_eq_none_of_kind (h : n.kind ≠ .call) : f.callSite? n = none := by
  cases hsite : f.callSite? n with
  | none => rfl
  | some c => exact absurd (callSite?_eq_some hsite).1 h

theorem callSite?_eq_none_of_leaf (h : n.children = []) : f.callSite? n = none := by
  cases hsite : f.callSite? n with
  | none => rfl
  | some c =>
    obtain ⟨-, -, callee, hcallee, -⟩ := callSite?_eq_some hsite
    have hmem := (Node.child?_eq_some hcallee).1
    rw [h] at hmem
    exact absurd hmem (by simp)

/-- The tree of a file is nested and does not reach over its end. -/
structure Fits (f : ParsedFile) : Prop where
  nested : f.tree.Nested
  inFile : f.tree.stop ≤ f.source.length

instance (f : ParsedFile) : Decidable f.Fits :=
  decidable_of_iff (f.tree.Nested ∧ f.tree.stop ≤ f.source.length) ⟨fun ⟨h₁, h₂⟩ => ⟨h₁, h₂⟩, fun ⟨h₁, h₂⟩ => ⟨h₁, h₂⟩⟩

namespace WellFormed

theorem length_le (h : f.WellFormed) (hn : n ∈ f.tree.preorder) : n.stop ≤ f.source.length :=
  Bytes.le_length_of_isBoundary (h.boundaries n hn).2

theorem forward (h : f.WellFormed) (hn : n ∈ f.tree.preorder) : n.start ≤ n.stop :=
  (h.nested n hn).forward

theorem mem_child (hn : n ∈ f.tree.preorder) (hm : m ∈ n.children) : m ∈ f.tree.preorder :=
  Node.mem_preorder_trans hn (Node.mem_preorder_of_child hm m.mem_preorder_self)

theorem fits (h : f.WellFormed) : f.Fits := ⟨h.nested, h.length_le f.tree.mem_preorder_self⟩

end WellFormed

/-! ### How wide flagged calls are -/

namespace Fits

open WellFormed (mem_child)

theorem length_le (h : f.Fits) (hn : n ∈ f.tree.preorder) : n.stop ≤ f.source.length :=
  Nat.le_trans (h.nested.span_of_mem hn).2.2 h.inFile

theorem forward (h : f.Fits) (hn : n ∈ f.tree.preorder) : n.start ≤ n.stop := (h.nested n hn).forward

/-- The parts of a flagged callee: `console` is seven bytes wide and stands beside a method, which is three
to five bytes wide. -/
theorem console_parts (h : f.Fits) (hn : n ∈ f.tree.preorder)
    (hsite : Facts.JavaScript.callSite? f.source n = some c) (hcallee : n.child? .callee = some callee) :
    callee.kind = .member ∧ ∃ object property, callee.child? .object = some object ∧
      callee.child? .property = some property ∧ object.start + 7 = object.stop ∧
      property.start + 3 ≤ property.stop ∧ property.stop ≤ property.start + 5 ∧
      callee.start + 10 ≤ callee.stop := by
  obtain ⟨-, callee', object, property, level, hcallee', hmember, hobject, hproperty, hconsole, hlevel, -⟩ :=
    Facts.JavaScript.callSite?_eq_some hsite
  obtain rfl := Option.some.inj (hcallee'.symm.trans hcallee)
  have hcallee := mem_child hn (Node.child?_eq_some hcallee').1
  obtain ⟨hobjectMem, hobjectRole⟩ := Node.child?_eq_some hobject
  obtain ⟨hpropertyMem, hpropertyRole⟩ := Node.child?_eq_some hproperty
  have hobjectTree := mem_child hcallee hobjectMem
  have hpropertyTree := mem_child hcallee hpropertyMem
  obtain ⟨hne, hlow, hhigh⟩ := Facts.JavaScript.consoleLevels_width _ (mem_of_lookup hlevel)
  dsimp only at hlow hhigh
  have hobjectWidth := Node.width_of_text hconsole (by decide) (h.forward hobjectTree)
    (h.length_le hobjectTree)
  have hpropertyWidth := Node.width_of_text rfl hne (h.forward hpropertyTree) (h.length_le hpropertyTree)
  have hseven : (Bytes.ofText "console").length = 7 := by decide
  have hsides : object.stop ≤ property.start ∨ property.stop ≤ object.start := by
    refine (h.nested.sub hcallee).children_apart hobjectMem hpropertyMem ?_
    rintro rfl
    exact absurd (hobjectRole.symm.trans hpropertyRole) (by decide)
  have hobjectIn := (h.nested _ hcallee).inside _ hobjectMem
  have hpropertyIn := (h.nested _ hcallee).inside _ hpropertyMem
  exact ⟨hmember, object, property, hobject, hproperty, by omega, by omega, by omega, by omega⟩

/-- A flagged call is wider than `console` and wider than any method. -/
theorem console_wide (h : f.Fits) (hn : n ∈ f.tree.preorder)
    (hsite : Facts.JavaScript.callSite? f.source n = some c) : n.start + 10 ≤ n.stop := by
  obtain ⟨-, callee, -, -, -, hcallee, -⟩ := Facts.JavaScript.callSite?_eq_some hsite
  obtain ⟨-, -, -, -, -, -, -, -, hwide⟩ := h.console_parts hn hsite hcallee
  have hin := (h.nested n hn).inside callee (Node.child?_eq_some hcallee).1
  omega

/-- No parenthesis is in the bytes of a flagged callee. -/
theorem print_plain (hsite : Facts.Python.callSite? f.source n = some c)
    (hcallee : n.child? .callee = some callee) :
    callee.text f.source ≠ "" ∧ openParenthesis ∉ f.source.slice callee.start callee.stop := by
  obtain ⟨-, callee', row, hcallee', hrow, -⟩ := Facts.Python.callSite?_eq_some hsite
  obtain rfl := Option.some.inj (hcallee'.symm.trans hcallee)
  obtain ⟨hne, hplain⟩ := Facts.Python.printCalls_plain _ (mem_of_lookup hrow)
  have htext : callee'.text f.source ≠ "" := by
    intro h
    rw [h] at hne
    exact hne rfl
  refine ⟨htext, fun hmem => hplain ?_⟩
  rw [Bytes.slice_of_textBetween rfl htext] at hmem
  have hchar := Bytes.mem_toList_of_ascii (by decide) hmem
  rw [Text.withoutBlanks, String.toList_ofList]
  exact List.mem_filter.mpr ⟨hchar, by decide⟩

/-- A flagged callee takes up some bytes. -/
theorem callee_wide (h : f.Fits) (hn : n ∈ f.tree.preorder) (hsite : f.callSite? n = some c)
    (hcallee : n.child? .callee = some callee) : callee.start < callee.stop := by
  have hcalleeTree := mem_child hn (Node.child?_eq_some hcallee).1
  cases hfamily : f.grammar.family with
  | javascript =>
    rw [callSite?, hfamily] at hsite
    obtain ⟨-, -, -, -, -, -, -, -, hwide⟩ := h.console_parts hn hsite hcallee
    omega
  | python =>
    rw [callSite?, hfamily] at hsite
    have hne := (print_plain hsite hcallee).1
    have hwidth := Node.width_of_text rfl hne (h.forward hcalleeTree) (h.length_le hcalleeTree)
    have hpos : 0 < (Bytes.ofText (callee.text f.source)).length := by
      rw [List.length_pos_iff]
      exact fun hnil => hne (Bytes.ofText_injective hnil)
    omega

end Fits

/-! ### What is called is no flagged call -/

namespace WellFormed

theorem console_clear (h : f.WellFormed) (hfamily : f.grammar.family = .javascript)
    (hn : n ∈ f.tree.preorder) (hsite : f.callSite? n = some c) (hcallee : n.child? .callee = some callee)
    (hm : m ∈ callee.preorder) : f.callSite? m = none := by
  have hrule : f.callSite? = Facts.JavaScript.callSite? f.source := by rw [callSite?, hfamily]
  rw [hrule] at hsite
  obtain ⟨hmember, object, property, hobject, hproperty, hobjectWidth, -, hpropertyWidth, -⟩ :=
    h.fits.console_parts hn hsite hcallee
  have hcalleeTree := mem_child hn (Node.child?_eq_some hcallee).1
  have hshape := (h.shaped callee hcalleeTree).1 hfamily hmember
  rcases Node.mem_preorder.mp hm with rfl | ⟨k, hk, hmk⟩
  · exact callSite?_eq_none_of_kind (by rw [hmember]; decide)
  · have hspan := (h.nested.sub (mem_child hcalleeTree hk)).span_of_mem hmk
    have hmTree := Node.mem_preorder_trans (mem_child hcalleeTree hk) hmk
    -- too narrow for a flagged call, or a leaf
    have hnarrow : k.stop ≤ k.start + 7 → f.callSite? m = none := by
      intro hwidth
      rw [hrule]
      cases hsite' : Facts.JavaScript.callSite? f.source m with
      | none => rfl
      | some d =>
        have hwide := h.fits.console_wide hmTree hsite'
        omega
    rcases hshape.leaves k hk with hrole | hrole | hleaf
    · obtain rfl := Node.eq_of_childrenIn_le_one hshape.oneObject hobject hk hrole
      exact hnarrow (by omega)
    · obtain rfl := Node.eq_of_childrenIn_le_one hshape.oneProperty hproperty hk hrole
      exact hnarrow (by omega)
    · rcases Node.mem_preorder.mp hmk with rfl | ⟨l, hl, -⟩
      · exact callSite?_eq_none_of_leaf hleaf
      · rw [hleaf] at hl
        exact absurd hl (by simp)

theorem print_clear (h : f.WellFormed) (hfamily : f.grammar.family = .python)
    (hn : n ∈ f.tree.preorder) (hsite : f.callSite? n = some c) (hcallee : n.child? .callee = some callee)
    (hm : m ∈ callee.preorder) : f.callSite? m = none := by
  have hrule : f.callSite? = Facts.Python.callSite? f.source := by rw [callSite?, hfamily]
  rw [hrule] at hsite
  obtain ⟨-, hplain⟩ := Fits.print_plain hsite hcallee
  have hcalleeTree := mem_child hn (Node.child?_eq_some hcallee).1
  have hmTree := Node.mem_preorder_trans hcalleeTree hm
  cases hsite' : f.callSite? m with
  | none => rfl
  | some d =>
    -- the parenthesis of a call inside the callee would be one of the callee
    obtain ⟨hkind, -, inner, hinner, -⟩ := callSite?_eq_some hsite'
    obtain ⟨k, hlow, hhigh, hk⟩ :=
      Bytes.mem_slice.mp ((h.shaped m hmTree).2 hfamily hkind inner hinner)
    have hspan := (h.nested.sub hcalleeTree).span_of_mem hm
    have hin := (h.nested m hmTree).inside inner (Node.child?_eq_some hinner).1
    have hforward := h.forward (mem_child hmTree (Node.child?_eq_some hinner).1)
    exact absurd (Bytes.mem_slice.mpr ⟨k, by omega, by omega, hk⟩) hplain

/-- **No flagged call stands in the callee of another.** -/
theorem callSite?_eq_none_of_callee (h : f.WellFormed) (hn : n ∈ f.tree.preorder)
    (hsite : f.callSite? n = some c) (hcallee : n.child? .callee = some callee)
    (hm : m ∈ callee.preorder) : f.callSite? m = none := by
  cases hfamily : f.grammar.family with
  | javascript => exact h.console_clear hfamily hn hsite hcallee hm
  | python => exact h.print_clear hfamily hn hsite hcallee hm

end WellFormed

end ParsedFile

/-! ## All call sites of a file -/

namespace CallSite

/-- Two calls whose callees share no byte. -/
def Apart (c d : CallSite) : Prop :=
  c.callee.stop.byte ≤ d.callee.start.byte ∨ d.callee.stop.byte ≤ c.callee.start.byte

/-- What a rewrite may rely on for one call. -/
structure Sound (source : Bytes) (c : CallSite) : Prop where
  inside : c.call.start.byte ≤ c.callee.start.byte
  wide : c.callee.start.byte < c.callee.stop.byte
  inFile : c.callee.stop.byte ≤ source.length
  startsBetween : source.isBoundary c.callee.start.byte = true
  stopsBetween : source.isBoundary c.callee.stop.byte = true
  shows : Bytes.ofText c.calleeText = source.slice c.callee.start.byte c.callee.stop.byte

theorem Apart.symm {c d : CallSite} (h : c.Apart d) : d.Apart c := Or.symm h

theorem dedup_sublist : ∀ calls : List CallSite, (inOrder.dedup calls).Sublist calls
  | [] => .slnil
  | c :: rest => by
    have ih := dedup_sublist rest
    rw [inOrder.dedup]
    split
    · rename_i hrest
      rw [hrest] at ih
      exact ih.cons_cons c
    · rename_i d tail hrest
      rw [hrest] at ih
      split
      · exact ((List.sublist_cons_self d tail).trans ih).cons_cons c
      · exact ih.cons_cons c

theorem mem_of_mem_inOrder {calls : List CallSite} {c : CallSite} (h : c ∈ inOrder calls) : c ∈ calls :=
  List.mem_mergeSort.mp ((dedup_sublist _).mem h)

/-- Of the calls that start together one is kept. -/
theorem exists_mem_dedup : ∀ {calls : List CallSite} {c : CallSite}, c ∈ calls →
    ∃ d ∈ inOrder.dedup calls, d.call.start.byte = c.call.start.byte
  | b :: rest, c, hc => by
    rw [inOrder.dedup]
    rcases List.mem_cons.mp hc with rfl | hc
    · refine ⟨c, ?_, rfl⟩
      split
      · exact List.mem_cons_self
      · split <;> exact List.mem_cons_self
    · obtain ⟨d, hd, hstart⟩ := exists_mem_dedup hc
      split
      · rename_i hnil
        rw [hnil] at hd
        exact absurd hd (by simp)
      · rename_i first tail hrest
        rw [hrest] at hd
        split
        · rename_i hsame
          rcases List.mem_cons.mp hd with rfl | hd
          · exact ⟨b, List.mem_cons_self, (beq_iff_eq.mp hsame).trans hstart⟩
          · exact ⟨d, List.mem_cons_of_mem _ hd, hstart⟩
        · exact ⟨d, List.mem_cons_of_mem _ hd, hstart⟩

theorem dedup_of_ordered : ∀ {calls : List CallSite},
    (calls.Pairwise fun a b => a.call.start.byte < b.call.start.byte) → inOrder.dedup calls = calls
  | [], _ => rfl
  | [_], _ => rfl
  | c :: d :: rest, h => by
    obtain ⟨hfirst, hrest⟩ := List.pairwise_cons.mp h
    have hne : c.call.start.byte ≠ d.call.start.byte := Nat.ne_of_lt (hfirst d List.mem_cons_self)
    rw [inOrder.dedup, dedup_of_ordered hrest]
    simp [hne]

/-- Of sorted calls those that are kept all start at different places. -/
theorem dedup_ascending : ∀ {calls : List CallSite},
    (calls.Pairwise fun a b => a.call.start.byte ≤ b.call.start.byte) →
    (inOrder.dedup calls).Pairwise fun a b => a.call.start.byte < b.call.start.byte
  | [], _ => .nil
  | c :: rest, h => by
    obtain ⟨hfirst, hrest⟩ := List.pairwise_cons.mp h
    have ih := dedup_ascending hrest
    rw [inOrder.dedup]
    split
    · exact List.pairwise_singleton _ _
    · rename_i d tail hdedup
      rw [hdedup] at ih
      obtain ⟨hd, htail⟩ := List.pairwise_cons.mp ih
      have hcd : c.call.start.byte ≤ d.call.start.byte :=
        hfirst d ((dedup_sublist rest).mem (hdedup ▸ List.mem_cons_self))
      split
      · exact List.pairwise_cons.mpr ⟨fun b hb => Nat.lt_of_le_of_lt hcd (hd b hb), htail⟩
      · rename_i hne
        have hlt : c.call.start.byte < d.call.start.byte := Nat.lt_of_le_of_ne hcd (by simpa using hne)
        refine List.pairwise_cons.mpr ⟨fun b hb => ?_, ih⟩
        rcases List.mem_cons.mp hb with rfl | hb
        · exact hlt
        · exact Nat.lt_trans hlt (hd b hb)

/-- No two of the calls that are listed start at one place. -/
theorem inOrder_ascending (calls : List CallSite) :
    (inOrder calls).Pairwise fun a b => a.call.start.byte < b.call.start.byte := by
  refine dedup_ascending ?_
  have hsorted : (calls.mergeSort fun a b => decide (a.call.start.byte ≤ b.call.start.byte)).Pairwise
      fun a b => decide (a.call.start.byte ≤ b.call.start.byte) = true :=
    List.pairwise_mergeSort (fun a b c hab hbc => by simp only [decide_eq_true_eq] at *; omega)
      (fun a b => by simp only [Bool.or_eq_true, decide_eq_true_eq]; omega) calls
  exact hsorted.imp of_decide_eq_true

theorem exists_mem_inOrder {calls : List CallSite} {c : CallSite} (hc : c ∈ calls) :
    ∃ d ∈ inOrder calls, d.call.start.byte = c.call.start.byte :=
  exists_mem_dedup (List.mem_mergeSort.mpr hc)

/-- Sorting and dropping repetitions keep what holds of all pairs. -/
theorem inOrder_pairwise {calls : List CallSite} {R : CallSite → CallSite → Prop}
    (hsymm : ∀ {c d}, R c d → R d c) (h : calls.Pairwise R) : (inOrder calls).Pairwise R :=
  (h.perm (List.mergeSort_perm _ _).symm hsymm).sublist (dedup_sublist _)

end CallSite

namespace ParsedFile

variable {f : ParsedFile} {c : CallSite}

/-- Calls that the walk meets in order are listed as it meets them. -/
theorem facts_calls_of_ordered (f : ParsedFile)
    (h : (f.tree.preorder.filterMap f.callSite?).Pairwise fun a b => a.call.start.byte < b.call.start.byte) :
    f.facts.calls = f.tree.preorder.filterMap f.callSite? := by
  rw [facts_calls, CallSite.inOrder,
    List.mergeSort_of_pairwise (h.imp fun hlt => decide_eq_true (Nat.le_of_lt hlt)), CallSite.dedup_of_ordered h]

theorem exists_node_of_mem_calls (hc : c ∈ f.facts.calls) :
    ∃ n ∈ f.tree.preorder, f.callSite? n = some c := by
  rw [facts_calls] at hc
  exact List.mem_filterMap.mp (CallSite.mem_of_mem_inOrder hc)

theorem WellFormed.callSite_sound (h : f.WellFormed) (hc : c ∈ f.facts.calls) : c.Sound f.source := by
  obtain ⟨n, hn, hsite⟩ := exists_node_of_mem_calls hc
  obtain ⟨-, hcall, callee, hcallee, hspan, htext⟩ := callSite?_eq_some hsite
  have hmem := (Node.child?_eq_some hcallee).1
  have hcalleeTree := WellFormed.mem_child hn hmem
  obtain ⟨hstart, hstop⟩ := h.boundaries callee hcalleeTree
  refine ⟨?_, ?_, ?_, ?_, ?_, ?_⟩
  · rw [hcall, hspan]; exact ((h.nested n hn).inside callee hmem).1
  · rw [hspan]; exact h.fits.callee_wide hn hsite hcallee
  · rw [hspan]; exact h.length_le hcalleeTree
  · rw [hspan]; exact hstart
  · rw [hspan]; exact hstop
  · rw [htext, hspan]; exact Bytes.ofText_textBetween h.text hstart hstop (h.forward hcalleeTree)

/-- **The callees of two flagged calls never overlap.** A call that comes later in the walk stands behind
the earlier one or below it, and below it not in its callee. -/
theorem WellFormed.sites_apart (h : f.WellFormed) :
    (f.tree.preorder.filterMap f.callSite?).Pairwise CallSite.Apart := by
  refine List.pairwise_filterMap.mpr ?_
  refine h.nested.preorder_pairwise.imp_of_mem fun {a b} ha hb hab c hc d hd => ?_
  obtain ⟨-, -, callee, hcallee, hspan, -⟩ := callSite?_eq_some hc
  obtain ⟨-, -, callee', hcallee', hspan', -⟩ := callSite?_eq_some hd
  have hcalleeMem := (Node.child?_eq_some hcallee).1
  have hin := (h.nested a ha).inside callee hcalleeMem
  have hin' := (h.nested b hb).inside callee' (Node.child?_eq_some hcallee').1
  rw [CallSite.Apart, hspan, hspan']
  rcases hab with ⟨k, hk, hbk⟩ | hbehind
  · have hbSpan := ((h.nested.sub ha).child hk).span_of_mem hbk
    by_cases hsame : callee = k
    · subst hsame
      rw [h.callSite?_eq_none_of_callee ha hc hcallee hbk] at hd
      exact absurd hd (by simp)
    · rcases (h.nested.sub ha).children_apart hcalleeMem hk hsame with hafter | hbefore
      · exact .inl (Nat.le_trans hafter (Nat.le_trans hbSpan.1 hin'.1))
      · exact .inr (Nat.le_trans hin'.2 (Nat.le_trans hbSpan.2.2 hbefore))
  · exact .inl (Nat.le_trans hin.2 (Nat.le_trans hbehind hin'.1))

theorem WellFormed.calls_apart (h : f.WellFormed) : f.facts.calls.Pairwise CallSite.Apart := by
  rw [facts_calls]
  exact CallSite.inOrder_pairwise CallSite.Apart.symm h.sites_apart

end ParsedFile

end LogHygiene
