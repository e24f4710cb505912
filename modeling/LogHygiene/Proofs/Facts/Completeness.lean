import LogHygiene.Proofs.Fix.Standing

/-!
# Every call that logs is listed

The calls of a file are found all over its tree. They are sorted by where they start, and of calls that start together
only one is kept. Calls do start together: `f(1)(2)` is one call, and so is `f(1)` in it. A call that logs starts where
no other one starts, though, for what it calls leaves no room for another call. So

> **each call that logs is listed once, in the order of the text** (`calls_complete`),

and the repetitions that are dropped do not exist.

A call begins with what it calls and a member with its object, for so does every reader build its trees
(`ParsedFile.headed_of_read`). What is asked of a tree besides is that nodes are nested, and that a Python call has its
parenthesis behind what it calls (`ParsedFile.Laid`).
-/

set_option autoImplicit false

namespace LogHygiene

open Syntax

/-! ## Rows in step -/

/-- What something is found for and what is found go along with each other. -/
theorem forall₂_filterMap {α β : Type} (g : α → Option β) (p : α → Prop) [DecidablePred p]
    (hp : ∀ a, p a ↔ (g a).isSome = true) : ∀ row : List α,
    List.Forall₂ (fun a b => g a = some b) (row.filter fun a => decide (p a)) (row.filterMap g)
  | [] => .nil
  | a :: row => by
    have ih := forall₂_filterMap g p hp row
    cases ha : g a with
    | none =>
      have hnot : ¬ p a := by simp [hp, ha]
      rw [List.filterMap_cons_none ha, List.filter_cons_of_neg (by simpa using hnot)]
      exact ih
    | some b =>
      have hyes : p a := by simp [hp, ha]
      rw [List.filterMap_cons_some ha, List.filter_cons_of_pos (by simpa using hyes)]
      exact .cons ha ih

/-! ## What begins where -/

namespace Syntax.Node

/-- Of the children of a nested node only one takes up its first byte. -/
theorem Nested.eq_of_start_eq {n a b : Node} (h : n.Nested) (ha : a ∈ n.children) (hb : b ∈ n.children)
    (hsame : a.start = b.start) (hawide : a.start < a.stop) (hbwide : b.start < b.stop) : a = b := by
  by_contra hne
  rcases h.children_apart ha hb hne with hbehind | hbefore
  · omega
  · omega

/-- A child that takes up the first byte of a nested node holds what starts there. -/
theorem Nested.mem_of_start_eq {n first k m : Node} (h : n.Nested) (hfirst : first ∈ n.children)
    (hstart : first.start = n.start) (hwide : first.start < first.stop) (hk : k ∈ n.children) (hm : m ∈ k.preorder)
    (hsame : m.start = n.start) (hmwide : m.start < m.stop) : m ∈ first.preorder := by
  have hspan := (h.child hk).span_of_mem hm
  have hin := (h n n.mem_preorder_self).inside k hk
  obtain rfl : first = k := h.eq_of_start_eq hfirst hk (by omega) hwide (by omega)
  exact hm

end Syntax.Node

namespace ParsedFile

/-- How the tree of a file lies in its text. -/
structure Laid (f : ParsedFile) : Prop extends f.Fits where
  opened : f.grammar.family = .python → ∀ n ∈ f.tree.preorder, n.kind = .call →
    ∀ callee ∈ n.child? .callee, openParenthesis ∈ f.source.slice callee.stop n.stop

instance (f : ParsedFile) : Decidable f.Laid :=
  decidable_of_iff (f.Fits ∧
      (f.grammar.family = .python → ∀ n ∈ f.tree.preorder, n.kind = .call →
        ∀ callee ∈ n.child? .callee, openParenthesis ∈ f.source.slice callee.stop n.stop))
    ⟨fun ⟨h₁, h₂⟩ => ⟨h₁, h₂⟩, fun ⟨h₁, h₂⟩ => ⟨h₁, h₂⟩⟩

/-! ## The rule -/

/-- Which calls log, and what is noted of one: in JavaScript a call of a method of `console` that the table of levels
has, in Python a call of what the table of printing calls has, blanks apart. -/
inductive Logs (f : ParsedFile) : Node → CallSite → Prop
  | console {n callee object property : Node} {level : Level} : f.grammar.family = .javascript →
      n.kind = .call → n.child? .callee = some callee → callee.kind = .member →
      callee.child? .object = some object → object.kind = .identifier → object.text f.source = "console" →
      callee.child? .property = some property → property.kind = .propertyName →
      (property.text f.source, level) ∈ Facts.JavaScript.consoleLevels →
      Logs f n ⟨.console, some (property.text f.source), level, callee.span, callee.text f.source, n.span⟩
  | print {n callee : Node} {kind : CallKind} {method : Option String} {level : Level} :
      f.grammar.family = .python → n.kind = .call → n.child? .callee = some callee →
      (Text.withoutBlanks (callee.text f.source), kind, method, level) ∈ Facts.Python.printCalls →
      Logs f n ⟨kind, method, level, callee.span, callee.text f.source, n.span⟩

variable {f : ParsedFile} {n k m : Node} {c d : CallSite} {path : String} {source : Bytes}

theorem logs_iff : f.Logs n c ↔ f.callSite? n = some c := by
  constructor
  · intro h
    cases h with
    | console hfamily hkind hcallee hmember hobject hidentifier hconsole hproperty hname hlevel =>
      have hfound := lookup_of_mem (by decide) hlevel
      simp [callSite?, hfamily, Facts.JavaScript.callSite?, hkind, hcallee, hmember, hobject, hproperty, hidentifier,
        hname, hconsole, hfound]
    | print hfamily hkind hcallee hrow =>
      have hfound := lookup_of_mem (by decide) hrow
      simp [callSite?, hfamily, Facts.Python.callSite?, hkind, hcallee, hfound]
  · intro h
    rw [callSite?] at h
    cases hfamily : f.grammar.family with
    | javascript =>
      rw [hfamily] at h
      obtain ⟨hkind, callee, object, property, hcallee, hmember, hobject, hproperty, hidentifier, hname, hconsole, -⟩ :=
        Facts.JavaScript.isSome_callSite?.mp (Option.isSome_iff_exists.mpr ⟨c, h⟩)
      obtain ⟨-, callee', object', property', level, hcallee', -, hobject', hproperty', -, hlevel, rfl⟩ :=
        Facts.JavaScript.callSite?_eq_some h
      obtain rfl := Option.some.inj (hcallee.symm.trans hcallee')
      obtain rfl := Option.some.inj (hobject.symm.trans hobject')
      obtain rfl := Option.some.inj (hproperty.symm.trans hproperty')
      exact .console hfamily hkind hcallee hmember hobject hidentifier hconsole hproperty hname (mem_of_lookup hlevel)
    | python =>
      rw [hfamily] at h
      obtain ⟨hkind, callee, ⟨kind, method, level⟩, hcallee, hrow, rfl⟩ := Facts.Python.callSite?_eq_some h
      exact .print hfamily hkind hcallee (mem_of_lookup hrow)

/-- Whether a node is a call that logs. -/
def IsLogging (f : ParsedFile) (n : Node) : Prop := ∃ c, f.Logs n c

theorem isLogging_iff : f.IsLogging n ↔ (f.callSite? n).isSome = true := by
  rw [IsLogging, Option.isSome_iff_exists]
  exact exists_congr fun c => logs_iff

instance (f : ParsedFile) : DecidablePred f.IsLogging := fun n =>
  decidable_of_iff ((f.callSite? n).isSome = true) isLogging_iff.symm

/-! ## No two calls that log start together -/

namespace Laid

open WellFormed (mem_child)

/-- A call that logs takes up some bytes. -/
theorem call_wide (h : f.Laid) (hn : n ∈ f.tree.preorder) (hc : f.callSite? n = some c) : n.start < n.stop := by
  obtain ⟨-, -, callee, hcallee, -⟩ := callSite?_eq_some hc
  have hwide := h.callee_wide hn hc hcallee
  have hin := (h.nested n hn).inside callee (Node.child?_eq_some hcallee).1
  omega

/-- A call that logs, below another one and starting with it, stands in what that one calls. -/
theorem mem_callee (h : f.Laid) (hread : read? path source = some f) (hn : n ∈ f.tree.preorder)
    (hc : f.callSite? n = some c) (hk : k ∈ n.children)
    (hm : m ∈ k.preorder) (hd : f.callSite? m = some d) (hsame : m.start = n.start) :
    ∃ callee, n.child? .callee = some callee ∧ m ∈ callee.preorder := by
  obtain ⟨hkind, -, callee, hcallee, -⟩ := callSite?_eq_some hc
  have hwide := h.callee_wide hn hc hcallee
  have hmwide := h.call_wide (Node.mem_preorder_trans (mem_child hn hk) hm) hd
  exact ⟨callee, hcallee, (h.nested.sub hn).mem_of_start_eq (Node.child?_eq_some hcallee).1
    ((headed_of_read hread n hn).call hkind callee hcallee) hwide hk hm hsame hmwide⟩

/-- `console` begins the callee, and it is too narrow for a call that logs. -/
theorem console_start_ne (h : f.Laid) (hread : read? path source = some f)
    (hfamily : f.grammar.family = .javascript) (hn : n ∈ f.tree.preorder)
    (hc : f.callSite? n = some c) (hk : k ∈ n.children) (hm : m ∈ k.preorder) (hd : f.callSite? m = some d) :
    m.start ≠ n.start := by
  intro hsame
  obtain ⟨callee, hcallee, hmCallee⟩ := h.mem_callee hread hn hc hk hm hd hsame
  obtain ⟨hkind, -, -⟩ := callSite?_eq_some hc
  obtain ⟨hmKind, -, -⟩ := callSite?_eq_some hd
  have hcalleeTree := mem_child hn (Node.child?_eq_some hcallee).1
  rw [callSite?, hfamily] at hc hd
  obtain ⟨hmember, object, -, hobject, -, hwidth, -⟩ := h.console_parts hn hc hcallee
  have hmwide := h.console_wide (Node.mem_preorder_trans hcalleeTree hmCallee) hd
  have hobjectMem := (Node.child?_eq_some hobject).1
  have hcalleeStart := (headed_of_read hread n hn).call hkind callee hcallee
  have hobjectStart := (headed_of_read hread callee hcalleeTree).member hmember object hobject
  rcases Node.mem_preorder.mp hmCallee with rfl | ⟨l, hl, hml⟩
  · exact absurd (hmKind.symm.trans hmember) (by decide)
  · have hmObject := (h.nested.sub hcalleeTree).mem_of_start_eq hobjectMem hobjectStart (by omega) hl hml (by omega)
      (by omega)
    have hspan := (h.nested.sub (mem_child hcalleeTree hobjectMem)).span_of_mem hmObject
    omega

/-- The parenthesis of a call in a callee would be one of the callee, and none that prints has one. -/
theorem print_start_ne (h : f.Laid) (hread : read? path source = some f) (hfamily : f.grammar.family = .python)
    (hn : n ∈ f.tree.preorder)
    (hc : f.callSite? n = some c) (hk : k ∈ n.children) (hm : m ∈ k.preorder) (hd : f.callSite? m = some d) :
    m.start ≠ n.start := by
  intro hsame
  obtain ⟨callee, hcallee, hmCallee⟩ := h.mem_callee hread hn hc hk hm hd hsame
  obtain ⟨hmKind, -, inner, hinner, -⟩ := callSite?_eq_some hd
  have hcalleeTree := mem_child hn (Node.child?_eq_some hcallee).1
  have hmTree := Node.mem_preorder_trans hcalleeTree hmCallee
  have hinnerMem := (Node.child?_eq_some hinner).1
  rw [callSite?, hfamily] at hc
  obtain ⟨at_, hlow, hhigh, hopen⟩ := Bytes.mem_slice.mp (h.opened hfamily m hmTree hmKind inner hinner)
  have hspan := (h.nested.sub hcalleeTree).span_of_mem hmCallee
  have hin := (h.nested m hmTree).inside inner hinnerMem
  have hforward := h.forward (mem_child hmTree hinnerMem)
  exact (Fits.print_plain hc hcallee).2 (Bytes.mem_slice.mpr ⟨at_, by omega, by omega, hopen⟩)

/-- The walk over the tree meets the calls that log in the order of the text. -/
theorem sites_ascending (h : f.Laid) (hread : read? path source = some f) :
    (f.tree.preorder.filterMap f.callSite?).Pairwise fun a b => a.call.start.byte < b.call.start.byte := by
  refine List.pairwise_filterMap.mpr (h.nested.preorder_pairwise.imp_of_mem fun {n m} hn hm hnm c hc d hd => ?_)
  have hspanc := (callSite?_eq_some hc).2.1
  have hspand := (callSite?_eq_some hd).2.1
  rw [hspanc, hspand]
  rcases hnm with ⟨k, hk, hmk⟩ | hbehind
  · have hne : m.start ≠ n.start := by
      cases hfamily : f.grammar.family with
      | javascript => exact h.console_start_ne hread hfamily hn hc hk hmk hd
      | python => exact h.print_start_ne hread hfamily hn hc hk hmk hd
    have hspan := (h.nested.sub (mem_child hn hk)).span_of_mem hmk
    have hin := (h.nested n hn).inside k hk
    exact Nat.lt_of_le_of_ne (Nat.le_trans hin.1 hspan.1) hne.symm
  · exact Nat.lt_of_lt_of_le (h.call_wide hn hc) hbehind

end Laid

/-! ## The list -/

/-- **Each call that logs is listed once, in the order of the text**: the list increases strictly by where calls
start, and it goes along with the calls that log in the tree, one entry for one call. What is called lies in the call
and starts with it. -/
theorem calls_complete (hread : read? path source = some f) (h : f.Laid) :
    f.facts.calls.Pairwise (fun a b => a.call.start.byte < b.call.start.byte) ∧
    List.Forall₂ f.Logs (f.tree.preorder.filter fun n => decide (f.IsLogging n)) f.facts.calls ∧
    ∀ c ∈ f.facts.calls, c.callee.start.byte = c.call.start.byte ∧ c.callee.stop.byte ≤ c.call.stop.byte := by
  rw [f.facts_calls_of_ordered (h.sites_ascending hread)]
  refine ⟨h.sites_ascending hread, ?_, fun c hc => ?_⟩
  · exact (forall₂_filterMap f.callSite? f.IsLogging (fun _ => isLogging_iff) _).imp fun _ _ hsite => logs_iff.mpr hsite
  · obtain ⟨n, hn, hsite⟩ := List.mem_filterMap.mp hc
    obtain ⟨hkind, hcall, callee, hcallee, hspan, -⟩ := callSite?_eq_some hsite
    rw [hcall, hspan]
    exact ⟨(headed_of_read hread n hn).call hkind callee hcallee,
      ((h.nested n hn).inside callee (Node.child?_eq_some hcallee).1).2⟩

/-- The file that a text makes. -/
def ofText (path : String) (grammar : Grammar) (text : String) : ParsedFile :=
  ⟨path, Bytes.ofText text, grammar, grammar.tree (Bytes.ofText text)⟩

theorem read?_ofText {grammar : Grammar} {text : String} (h : Grammar.ofPath? path = some grammar) :
    read? path (Bytes.ofText text) = some (ofText path grammar text) := by
  rw [read?, h]
  rfl

/-- Of three calls, two of which start together, two log and are listed. -/
theorem calls_complete_curried :
    let f := ofText "a.js" .javascript "console.log(1)(console.warn(2));"
    let g := ofText "a.py" .python "print(1)(sys . stderr.write(2))"
    (read? "a.js" f.source = some f ∧ f.Laid) ∧ (read? "a.py" g.source = some g ∧ g.Laid) ∧
      (f.tree.preorder.filter (·.kind == .call)).map Node.start = [0, 0, 15] ∧
      (g.tree.preorder.filter (·.kind == .call)).map Node.start = [0, 0, 9] ∧
      f.facts.calls.map (·.call.start.byte) = [0, 15] ∧ g.facts.calls.map (·.call.start.byte) = [0, 9] ∧
      List.Forall₂ f.Logs (f.tree.preorder.filter fun n => decide (f.IsLogging n)) f.facts.calls ∧
      List.Forall₂ g.Logs (g.tree.preorder.filter fun n => decide (g.IsLogging n)) g.facts.calls := by
  intro f g
  have hf : read? "a.js" f.source = some f := read?_ofText (by decide +kernel)
  have hg : read? "a.py" g.source = some g := read?_ofText (by decide +kernel)
  have hfLaid : f.Laid := by decide +kernel
  have hgLaid : g.Laid := by decide +kernel
  refine ⟨⟨hf, hfLaid⟩, ⟨hg, hgLaid⟩, by decide +kernel, by decide +kernel, ?_, ?_, (calls_complete hf hfLaid).2.1,
    (calls_complete hg hgLaid).2.1⟩
  · rw [f.facts_calls_of_ordered (hfLaid.sites_ascending hf)]
    decide +kernel
  · rw [g.facts_calls_of_ordered (hgLaid.sites_ascending hg)]
    decide +kernel

end ParsedFile

end LogHygiene
