import LogHygiene.Proofs.Fix.Changed
import LogHygiene.Proofs.Markers

/-!
# Fixing a file twice

A fixed text that is fixed again should stay as it is. It changes if the second look finds a call in it that
no comment silences. What the second look finds is said here in the words of the first fix, on the tree that
the fixed text is meant to have.

* **Calls.** A call that was silenced is flagged as before, and one that was rewritten only if the logger has
  the name of what was called (`Rework.FlaggedAgain`). Of the new lines at most the one that creates the logger
  is flagged, when a factory was imported as `print`. No other call of the fixed text is (`Rework.exists_call`).
* **Comments.** A comment silences the line below the one on which its marker is now, and new lines may have
  come between it and the call that it was written for (`Rework.Silences`).

> **fixing the fixed text changes nothing exactly if each call that is flagged in it is silenced in it**
> (`plan_again`), and where reading gives the tree that is meant this is `Rework.Quiet`.
-/

set_option autoImplicit false

namespace LogHygiene

open Syntax

/-! ## Calls that are left -/

theorem FamilySettings.activeCalls_eq_nil {s : FamilySettings} {f : ParsedFile} {x : FileFacts} :
    s.activeCalls f x = [] ↔ ∀ c ∈ x.calls, ∃ m ∈ Suppression.all f.source s.markers f.tree,
      m.target = c.line := by
  rw [activeCalls, Suppression.active, List.filter_eq_nil_iff]
  simp

/-! ## Which nodes are flagged again -/

namespace Facts

theorem JavaScript.isSome_consoleLevels (level : Level) :
    (JavaScript.consoleLevels.lookup (level.method .javascript)).isSome = true := by
  cases level <;> decide

/-- A method of a logger is no callee that logs without one. -/
theorem Python.lookup_method (name : String) (level : Level) :
    Python.printCalls.lookup (Text.withoutBlanks (name ++ "." ++ level.method .python)) = none := by
  have hends : ∀ row ∈ Python.printCalls, ¬ ('.' :: (level.method .python).toList) <:+ row.1.toList := by
    cases level <;> decide
  cases hrow : Python.printCalls.lookup (Text.withoutBlanks (name ++ "." ++ level.method .python)) with
  | none => rfl
  | some row =>
    have hnot := hends _ (mem_of_lookup hrow)
    exact absurd (Level.suffix_method .python name level) hnot

/-- No callee with a bracket logs without a logger. -/
theorem Python.lookup_bracketed {text : String} (h : Bracketed text) :
    Python.printCalls.lookup (Text.withoutBlanks text) = none := by
  have hplain : ∀ row ∈ Python.printCalls, ¬ Bracketed row.1 := by decide
  cases hrow : Python.printCalls.lookup (Text.withoutBlanks text) with
  | none => rfl
  | some row =>
    have hnot := hplain _ (mem_of_lookup hrow)
    exact absurd h.withoutBlanks hnot

end Facts

namespace Rework

variable {w : Rework} {after : ParsedFile} {n m k t : Node} {c : CallSite} {r : Role} {line : Nat}

/-- A call that is flagged in the fixed text if it is flagged in the file: one that was silenced, and
every one if the logger is called `console`. -/
def FlaggedAgain (w : Rework) (c : CallSite) : Prop :=
  c ∉ w.calls ∨ (w.family = .javascript ∧ w.setup.name = "console")

/-- A call that was not rewritten is flagged as it was. -/
theorem flaggedAgain_of_no_site (hsite : w.site? n = none) :
    (∃ c, w.file.callSite? n = some c ∧ w.FlaggedAgain c) ↔ (w.file.callSite? n).isSome = true := by
  rw [Option.isSome_iff_exists]
  refine exists_congr fun c => and_iff_left_of_imp fun hc => .inl fun hmem => ?_
  rw [site?_eq_some.mpr ⟨hc, hmem⟩] at hsite
  exact absurd hsite (by simp)

/-- A call that was rewritten is flagged again only if the logger has the name of what was called before. -/
theorem flaggedAgain_of_site (hsite : w.site? n = some c) :
    (∃ d, w.file.callSite? n = some d ∧ w.FlaggedAgain d) ↔ w.family = .javascript ∧ w.setup.name = "console" := by
  obtain ⟨hflag, hc⟩ := site?_eq_some.mp hsite
  constructor
  · rintro ⟨d, hd, hagain⟩
    obtain rfl := Option.some.inj (hflag.symm.trans hd)
    exact hagain.resolve_left (not_not.mpr hc)
  · intro hconsole
    exact ⟨c, hflag, .inr hconsole⟩

namespace Accepted

/-- A statement with a call in it is no comment. -/
theorem kind_ne_comment (h : w.Accepted) (ht : t ∈ w.file.tree.children) (hn : n ∈ t.preorder)
    (hcall : n.kind = .call) : t.kind ≠ .comment := by
  intro hcomment
  have hleaf := h.regular.words t (h.placed_top ht).mem (by rw [hcomment]; rfl)
  rcases Node.mem_preorder.mp hn with rfl | ⟨k, hk, -⟩
  · rw [hcall] at hcomment
    exact absurd hcomment (by decide)
  · rw [hleaf] at hk
    exact absurd hk (by simp)

/-- A rewritten call, seen by the rule for `console`. -/
theorem isSome_console_of_site (h : w.Accepted) (hfamily : w.family = .javascript) (hsite : w.site? n = some c) :
    (Facts.JavaScript.callSite? w.fixed (w.carry n)).isSome = true ↔ w.setup.name = "console" := by
  obtain ⟨hflag, hc⟩ := site?_eq_some.mp hsite
  have hcallee := child?_callee_of_site hsite
  obtain ⟨-, o, p, ho, hp, hok, hpk, hoText, hpText⟩ := Bytes.dotted_shows (h.shows_newCallee hc)
  rw [Facts.JavaScript.isSome_callSite?, carry_kind]
  constructor
  · rintro ⟨-, callee, o', -, hcallee', -, ho', -, -, -, hconsole, -⟩
    obtain rfl := Option.some.inj (hcallee.symm.trans hcallee')
    obtain rfl := Option.some.inj (ho.symm.trans ho')
    exact hoText.symm.trans hconsole
  · intro hconsole
    refine ⟨(ParsedFile.callSite?_eq_some hflag).1, _, o, p, hcallee, rfl, ho, hp, hok, hpk hfamily,
      hoText.trans hconsole, ?_⟩
    rw [hpText, hfamily]
    exact Facts.JavaScript.isSome_consoleLevels _

/-- What is behind a callee that was not rewritten shows what it showed. -/
theorem text_of_callee (h : w.Accepted) (hn : w.Placed n) (huncut : w.Uncut n) (hsite : w.site? n = none)
    (hk : n.child? .callee = some k) (hmember : k.kind = .member) (hm : k.child? r = some m)
    (hword : m.kind.isWord = true) : (w.carry m).text w.fixed = m.text w.file.source := by
  have hstays := stays_of_child? hsite hk
  have hnone : w.site? k = none := site?_eq_none_of_kind (by rw [hmember]; decide)
  have hplaced := hn.stays h hstays
  have hcut := h.uncut_child hn huncut hstays.1
  have hstays' := stays_of_child? hnone hm
  exact h.text_word (hplaced.stays h hstays') (h.uncut_child hplaced hcut hstays'.1) hword

/-- Every other node, seen by the rule for `console`. -/
theorem isSome_console_of_no_site (h : w.Accepted) (hn : w.Placed n) (huncut : w.Uncut n)
    (hsite : w.site? n = none) : (Facts.JavaScript.callSite? w.fixed (w.carry n)).isSome = true ↔
      (Facts.JavaScript.callSite? w.file.source n).isSome = true := by
  rw [Facts.JavaScript.isSome_callSite?, Facts.JavaScript.isSome_callSite?, carry_kind]
  constructor
  · rintro ⟨hkind, callee', o', p', hcallee', hmember, ho', hp', hok, hpk, hconsole, hlevel⟩
    rw [child?_of_no_site hsite] at hcallee'
    obtain ⟨callee, hcallee, rfl⟩ := Option.map_eq_some_iff.mp hcallee'
    rw [carry_kind] at hmember
    have hnone : w.site? callee = none := site?_eq_none_of_kind (by rw [hmember]; decide)
    rw [child?_of_no_site hnone] at ho' hp'
    obtain ⟨o, ho, rfl⟩ := Option.map_eq_some_iff.mp ho'
    obtain ⟨p, hp, rfl⟩ := Option.map_eq_some_iff.mp hp'
    rw [carry_kind] at hok hpk
    rw [h.text_of_callee hn huncut hsite hcallee hmember ho (by rw [hok]; rfl)] at hconsole
    rw [h.text_of_callee hn huncut hsite hcallee hmember hp (by rw [hpk]; rfl)] at hlevel
    exact ⟨hkind, callee, o, p, hcallee, hmember, ho, hp, hok, hpk, hconsole, hlevel⟩
  · rintro ⟨hkind, callee, o, p, hcallee, hmember, ho, hp, hok, hpk, hconsole, hlevel⟩
    have hnone : w.site? callee = none := site?_eq_none_of_kind (by rw [hmember]; decide)
    refine ⟨hkind, w.carry callee, w.carry o, w.carry p, ?_, ?_, ?_, ?_, ?_, ?_, ?_, ?_⟩
    · rw [child?_of_no_site hsite, hcallee, Option.map_some]
    · rw [carry_kind, hmember]
    · rw [child?_of_no_site hnone, ho, Option.map_some]
    · rw [child?_of_no_site hnone, hp, Option.map_some]
    · rw [carry_kind, hok]
    · rw [carry_kind, hpk]
    · rw [h.text_of_callee hn huncut hsite hcallee hmember ho (by rw [hok]; rfl), hconsole]
    · rw [h.text_of_callee hn huncut hsite hcallee hmember hp (by rw [hpk]; rfl)]
      exact hlevel

/-- A rewritten call, seen by the rule for `print`: a method of a logger is none of its callees. -/
theorem isSome_print_of_site (h : w.Accepted) (hfamily : w.family = .python) (hsite : w.site? n = some c) :
    ¬ (Facts.Python.callSite? w.fixed (w.carry n)).isSome = true := by
  have htext : (w.newCallee c).text w.fixed = _ :=
    (Bytes.dotted_shows (h.shows_newCallee (site?_eq_some.mp hsite).2)).1
  rw [Facts.Python.isSome_callSite?]
  rintro ⟨-, callee, hcallee, hlookup⟩
  obtain rfl := Option.some.inj ((child?_callee_of_site hsite).symm.trans hcallee)
  rw [htext, hfamily, Facts.Python.lookup_method] at hlookup
  exact absurd hlookup (by simp)

/-- Every other node, seen by the rule for `print`. -/
theorem isSome_print_of_no_site (h : w.Accepted) (hn : w.Placed n) (huncut : w.Uncut n)
    (hsite : w.site? n = none) : (Facts.Python.callSite? w.fixed (w.carry n)).isSome = true ↔
      (Facts.Python.callSite? w.file.source n).isSome = true := by
  have hlookup : ∀ {callee : Node}, n.child? .callee = some callee →
      Facts.Python.printCalls.lookup (Text.withoutBlanks ((w.carry callee).text w.fixed)) =
        Facts.Python.printCalls.lookup (Text.withoutBlanks (callee.text w.file.source)) := by
    intro callee hcallee
    have hstays := stays_of_child? hsite hcallee
    rcases h.text_carry (hn.stays h hstays) (h.uncut_child hn huncut hstays.1) with
      hsame | ⟨old, new, shared, hold, hnew, hbracket⟩
    · rw [hsame]
    · rw [hold, hnew, Facts.Python.lookup_bracketed hbracket.append_right,
        Facts.Python.lookup_bracketed hbracket.append_right]
  rw [Facts.Python.isSome_callSite?, Facts.Python.isSome_callSite?, carry_kind, child?_of_no_site hsite]
  refine and_congr_right fun _ => ⟨?_, ?_⟩
  · rintro ⟨callee', hcallee', hrow⟩
    obtain ⟨callee, hcallee, rfl⟩ := Option.map_eq_some_iff.mp hcallee'
    exact ⟨callee, hcallee, hlookup hcallee ▸ hrow⟩
  · rintro ⟨callee, hcallee, hrow⟩
    exact ⟨w.carry callee, by rw [hcallee, Option.map_some], (hlookup hcallee).symm ▸ hrow⟩

end Accepted

/-! ## The second look -/

/-- The line of a call in the fixed text. -/
def lineAfter (w : Rework) (c : CallSite) : Nat :=
  w.fixed.lineOf (Edit.startAfter w.edits c.call.start.byte)

/-- Where the call that creates the new logger starts in the fixed text. -/
def factoryStart (w : Rework) : Nat := w.instanceStart + factoryOffset w.family w.setup.name

/-- The call that creates the new logger is flagged itself: a factory was imported as `print`. -/
def createsByPrinting (w : Rework) : Prop :=
  w.plants = true ∧ w.family = .python ∧
    (Facts.Python.printCalls.lookup (Text.withoutBlanks (w.binding.factory .python))).isSome = true

theorem mem_children : n ∈ w.children ↔
    (∃ t ∈ w.file.tree.children, n = w.carry t) ∨ (w.plants = true ∧ n ∈ w.newNodes) := by
  unfold children
  cases w.plants with
  | false => simp [eq_comm]
  | true =>
    simp only [if_true, List.mem_append, List.mem_map, List.mem_filter, Bool.not_eq_true',
      decide_eq_true_eq, decide_eq_false_iff_not, true_and]
    constructor
    · rintro ((⟨t, ⟨ht, -⟩, rfl⟩ | hnew) | ⟨t, ⟨ht, -⟩, rfl⟩)
      · exact .inl ⟨t, ht, rfl⟩
      · exact .inr hnew
      · exact .inl ⟨t, ht, rfl⟩
    · rintro (⟨t, ht, rfl⟩ | hnew)
      · by_cases hfront : t.stop ≤ w.insertion.byte
        · exact .inl (.inl ⟨t, ⟨ht, hfront⟩, rfl⟩)
        · exact .inr ⟨t, ⟨ht, hfront⟩, rfl⟩
      · exact .inl (.inr hnew)

theorem newCallee_kind (hn : n ∈ (w.newCallee c).preorder) : n.kind ≠ .comment ∧ n.kind ≠ .call := by
  simp only [newCallee, Bytes.dotted, Bytes.node, Node.preorder, Node.preorderAll, List.cons_append,
    List.nil_append, List.append_nil, List.mem_cons, List.not_mem_nil, or_false] at hn
  rcases hn with rfl | rfl | rfl
  · exact ⟨by simp [Node.kind], by simp [Node.kind]⟩
  · exact ⟨by simp [Node.kind], by simp [Node.kind]⟩
  · cases w.family <;> exact ⟨by simp [Node.kind], by simp [Node.kind]⟩

namespace Reread

/-- The nodes that some rule could notice in the fixed text are carried ones and those of new statements. -/
theorem exists_node (hr : w.Reread after) {P : Node → Prop}
    (hP : ∀ x, P x → x.kind = .comment ∨ x.kind = .call) : (∃ x ∈ after.tree.preorder, P x) ↔
      (∃ t ∈ w.file.tree.children, ∃ n ∈ w.kept t, P (w.carry n)) ∨
      (w.plants = true ∧ ∃ t ∈ w.newNodes, ∃ x ∈ t.preorder, P x) := by
  constructor
  · rintro ⟨x, hx, hPx⟩
    rcases Node.mem_preorder.mp hx with rfl | ⟨t', ht', hx⟩
    · have hkind := hP _ hPx
      rw [hr.root] at hkind
      exact absurd hkind (by decide)
    · rw [hr.children, mem_children] at ht'
      rcases ht' with ⟨t, ht, rfl⟩ | ⟨hplants, hnew⟩
      · rcases mem_preorder_carry.mp hx with ⟨n, hn, rfl⟩ | ⟨n, -, c, -, -, hx⟩
        · exact .inl ⟨t, ht, n, hn, hPx⟩
        · obtain ⟨hcomment, hcall⟩ := newCallee_kind hx
          exact absurd (hP x hPx) (not_or.mpr ⟨hcomment, hcall⟩)
      · exact .inr ⟨hplants, t', hnew, x, hx, hPx⟩
  · have hbelow : ∀ t' ∈ w.children, ∀ x ∈ t'.preorder, x ∈ after.tree.preorder := fun t' ht' x hx =>
      Node.mem_preorder_of_child (by rw [hr.children]; exact ht') hx
    rintro (⟨t, ht, n, hn, hPx⟩ | ⟨hplants, t', hnew, x, hx, hPx⟩)
    · exact ⟨w.carry n, hbelow (w.carry t) (mem_children.mpr (.inl ⟨t, ht, rfl⟩)) _
        (mem_preorder_carry.mpr (.inl ⟨n, hn, rfl⟩)), hPx⟩
    · exact ⟨x, hbelow t' (mem_children.mpr (.inr ⟨hplants, hnew⟩)) x hx, hPx⟩

theorem callSite?_eq (hr : w.Reread after) : after.callSite? = match w.family with
    | .javascript => Facts.JavaScript.callSite? w.fixed
    | .python => Facts.Python.callSite? w.fixed := by
  rw [ParsedFile.callSite?, hr.grammar, hr.source]
  rfl

theorem isSome_carry (hr : w.Reread after) (h : w.Accepted) (hn : w.Placed n) (huncut : w.Uncut n) :
    (after.callSite? (w.carry n)).isSome = true ↔
      ∃ c, w.file.callSite? n = some c ∧ w.FlaggedAgain c := by
  have hrule : w.file.callSite? = match w.family with
      | .javascript => Facts.JavaScript.callSite? w.file.source
      | .python => Facts.Python.callSite? w.file.source := rfl
  rw [hr.callSite?_eq]
  cases hsite : w.site? n with
  | some c =>
    rw [flaggedAgain_of_site hsite]
    cases hfamily : w.family with
    | javascript => exact (h.isSome_console_of_site hfamily hsite).trans (by simp)
    | python => exact iff_of_false (h.isSome_print_of_site hfamily hsite) (by simp)
  | none =>
    rw [flaggedAgain_of_no_site hsite, hrule]
    cases w.family with
    | javascript => exact h.isSome_console_of_no_site hn huncut hsite
    | python => exact h.isSome_print_of_no_site hn huncut hsite

/-- The factory in the line that creates the logger is no method of `console`. -/
theorem factory_quiet (h : w.Accepted) (hplants : w.plants = true)
    (hcallee : n.child? .callee = some (w.fixed.factoryNode w.family w.binding w.factoryStart)) :
    (Facts.JavaScript.callSite? w.fixed n).isSome ≠ true := by
  intro hsome
  obtain ⟨-, callee, o, p, hcallee', hmember, -, hp, -, -, -, hlevel⟩ :=
    Facts.JavaScript.isSome_callSite?.mp hsome
  obtain rfl := Option.some.inj (hcallee.symm.trans hcallee')
  have hshows := (Bytes.instance_shows (h.shows_instance (isNew_of_plants hplants))).2
  rcases w.binding.factory_cases w.family with ⟨-, hnode⟩ | ⟨method, hmethod, hdotted, hnode⟩
  · rw [hnode] at hmember
    exact absurd (show Kind.identifier = .member from hmember) (by decide)
  · rw [hdotted] at hshows
    rw [hnode] at hp
    obtain ⟨-, o', p', -, hp', -, -, -, hpText⟩ := Bytes.dotted_shows hshows
    obtain rfl := Option.some.inj (hp'.symm.trans hp)
    rw [hpText] at hlevel
    have hnone : ∀ method ∈ ["createLogger", "get_logger", "getLogger"],
        (Facts.JavaScript.consoleLevels.lookup method).isSome = false := by decide
    rw [hnone method hmethod] at hlevel
    exact absurd hlevel (by decide)

/-- Among new statements only a printing factory is flagged. -/
theorem isSome_newNodes (hr : w.Reread after) (h : w.Accepted) (hplants : w.plants = true)
    (ht : t ∈ w.newNodes) (hn : n ∈ t.preorder) (hsome : (after.callSite? n).isSome = true) :
    w.createsByPrinting ∧ n.span.start = w.fixed.position w.factoryStart := by
  obtain ⟨c, hc⟩ := Option.isSome_iff_exists.mp hsome
  have hkind := (ParsedFile.callSite?_eq_some hc).1
  rw [hr.callSite?_eq] at hsome
  rcases List.mem_append.mp ht with himport | hinstance
  · split at himport
    · exact absurd himport (by simp)
    · rw [List.mem_singleton.mp himport] at hn
      obtain ⟨hjs, callee, hcallee, hidentifier⟩ := (Bytes.importNode_call hn).2 hkind
      rw [hjs] at hsome
      obtain ⟨-, callee', -, -, hcallee', hmember, -⟩ := Facts.JavaScript.isSome_callSite?.mp hsome
      obtain rfl := Option.some.inj (hcallee.symm.trans hcallee')
      rw [hidentifier] at hmember
      exact absurd hmember (by decide)
  · rw [List.mem_singleton.mp hinstance] at hn
    obtain ⟨hstart, hcallee⟩ := (Bytes.instanceNode_call.1 n hn).2 hkind
    cases hfamily : w.family with
    | javascript =>
      rw [hfamily] at hsome
      exact absurd hsome (factory_quiet h hplants hcallee)
    | python =>
      rw [hfamily] at hsome
      obtain ⟨-, callee, hcallee', hlookup⟩ := Facts.Python.isSome_callSite?.mp hsome
      obtain rfl := Option.some.inj (hcallee.symm.trans hcallee')
      rw [Bytes.factoryNode_text (Bytes.instance_shows (h.shows_instance (isNew_of_plants hplants))).2,
        hfamily] at hlookup
      exact ⟨⟨hplants, hfamily, hlookup⟩, hstart⟩

theorem exists_newNode (hr : w.Reread after) (h : w.Accepted) (hprints : w.createsByPrinting) :
    ∃ t ∈ w.newNodes, ∃ n ∈ t.preorder, (after.callSite? n).isSome = true ∧
      n.span.start = w.fixed.position w.factoryStart := by
  obtain ⟨hplants, hfamily, hlookup⟩ := hprints
  obtain ⟨hall, n, hn, hkind⟩ :
      _ ∧ ∃ x ∈ (w.fixed.instanceNode w.family w.binding w.setup.name w.instanceStart).preorder, _ :=
    Bytes.instanceNode_call
  obtain ⟨hstart, hcallee⟩ := (hall n hn).2 hkind
  refine ⟨_, List.mem_append_right _ (List.mem_singleton_self _), n, hn, ?_, hstart⟩
  rw [hr.callSite?_eq, hfamily]
  refine Facts.Python.isSome_callSite?.mpr ⟨hkind, _, hcallee, ?_⟩
  rw [Bytes.factoryNode_text (Bytes.instance_shows (h.shows_instance (isNew_of_plants hplants))).2,
    hfamily]
  exact hlookup

/-- A flagged node of the fixed text stands at a place that is counted in it. -/
theorem start_of_isSome (hr : w.Reread after) (h : w.Accepted) (hn : n ∈ after.tree.preorder)
    (hsome : (after.callSite? n).isSome = true) : n.span.start = w.fixed.position n.start := by
  by_contra hnot
  have hkind : ∀ x, (after.callSite? x).isSome = true ∧ x.span.start ≠ w.fixed.position x.start →
      x.kind = .comment ∨ x.kind = .call := by
    rintro x ⟨hx, -⟩
    obtain ⟨c, hc⟩ := Option.isSome_iff_exists.mp hx
    exact .inr (ParsedFile.callSite?_eq_some hc).1
  rcases (hr.exists_node hkind).mp ⟨n, hn, hsome, hnot⟩ with
    ⟨t, -, m, -, -, hplace⟩ | ⟨hplants, t, ht, m, hm, hflag, hplace⟩
  · refine hplace ?_
    rw [carry_start, carry_span]
    rfl
  · obtain ⟨-, hstart⟩ := hr.isSome_newNodes h hplants ht hm hflag
    refine hplace ?_
    rw [Node.start, hstart]
    rfl

/-- Sorting the calls of the fixed text and dropping repetitions loses no line. -/
theorem exists_call_iff (hr : w.Reread after) (h : w.Accepted) : (∃ c ∈ after.facts.calls, c.line = line) ↔
    ∃ n ∈ after.tree.preorder, (after.callSite? n).isSome = true ∧ n.span.start.row + 1 = line := by
  constructor
  · rintro ⟨c, hc, rfl⟩
    obtain ⟨n, hn, hsite⟩ := ParsedFile.exists_node_of_mem_calls hc
    refine ⟨n, hn, by rw [hsite]; rfl, ?_⟩
    rw [CallSite.line, (ParsedFile.callSite?_eq_some hsite).2.1]
  · rintro ⟨n, hn, hsome, rfl⟩
    obtain ⟨c, hc⟩ := Option.isSome_iff_exists.mp hsome
    obtain ⟨d, hd, hstart⟩ := CallSite.exists_mem_inOrder (List.mem_filterMap.mpr ⟨n, hn, hc⟩)
    rw [← after.facts_calls] at hd
    obtain ⟨m, hm, hsite⟩ := ParsedFile.exists_node_of_mem_calls hd
    refine ⟨d, hd, ?_⟩
    rw [(ParsedFile.callSite?_eq_some hc).2.1, (ParsedFile.callSite?_eq_some hsite).2.1] at hstart
    have hplace := hr.start_of_isSome h hm (by rw [hsite]; rfl)
    rw [Node.start, hstart] at hplace
    rw [CallSite.line, (ParsedFile.callSite?_eq_some hsite).2.1, hplace,
      hr.start_of_isSome h hn hsome]
    rfl

/-- **The flagged calls of the fixed text** are those of the file that are flagged again, each on the line
it was carried to, and at most one new one. -/
theorem exists_call (hr : w.Reread after) (h : w.Accepted) : (∃ c ∈ after.facts.calls, c.line = line) ↔
    (∃ c ∈ w.file.facts.calls, w.FlaggedAgain c ∧ w.lineAfter c = line) ∨
      (w.createsByPrinting ∧ w.fixed.lineOf w.factoryStart = line) := by
  have hkind : ∀ x, (after.callSite? x).isSome = true ∧ x.span.start.row + 1 = line →
      x.kind = .comment ∨ x.kind = .call := by
    rintro x ⟨hx, -⟩
    obtain ⟨c, hc⟩ := Option.isSome_iff_exists.mp hx
    exact .inr (ParsedFile.callSite?_eq_some hc).1
  rw [hr.exists_call_iff h, hr.exists_node hkind]
  refine or_congr ⟨?_, ?_⟩ ⟨?_, ?_⟩
  · rintro ⟨t, ht, n, hn, hsome, rfl⟩
    have hcall : n.kind = .call := by
      obtain ⟨c, hc⟩ := Option.isSome_iff_exists.mp hsome
      rw [← carry_kind (w := w), (ParsedFile.callSite?_eq_some hc).1]
    have hplaced := h.placed_top ht
    have hcomment := h.kind_ne_comment ht (mem_preorder_of_kept hn) hcall
    obtain ⟨c, hc, hagain⟩ := (hr.isSome_carry h (h.placed_kept hplaced hn)
      (h.uncut_kept ht hcomment (mem_preorder_of_kept hn))).mp hsome
    refine ⟨c, (h.wellFormed.mem_calls_iff h.headed).mpr ⟨n, (h.placed_kept hplaced hn).mem, hc⟩,
      hagain, ?_⟩
    rw [lineAfter, (ParsedFile.callSite?_eq_some hc).2.1, carry_span]
    rfl
  · rintro ⟨c, hc, hagain, rfl⟩
    obtain ⟨n, hn, hsite⟩ := ParsedFile.exists_node_of_mem_calls hc
    obtain ⟨hcall, hspan, -⟩ := ParsedFile.callSite?_eq_some hsite
    rcases Node.mem_preorder.mp hn with rfl | ⟨t, ht, hnt⟩
    · rw [h.regular.root] at hcall
      exact absurd hcall (by decide)
    · have hkept := h.site_kept ht hnt hsite
      have hplaced := h.placed_top ht
      have hcomment := h.kind_ne_comment ht hnt hcall
      refine ⟨t, ht, n, hkept, (hr.isSome_carry h (h.placed_kept hplaced hkept)
        (h.uncut_kept ht hcomment hnt)).mpr ⟨c, hsite, hagain⟩, ?_⟩
      rw [lineAfter, hspan, carry_span]
      rfl
  · rintro ⟨hplants, t, ht, n, hn, hsome, rfl⟩
    obtain ⟨hprints, hstart⟩ := hr.isSome_newNodes h hplants ht hn hsome
    refine ⟨hprints, ?_⟩
    rw [hstart]
    rfl
  · rintro ⟨hprints, rfl⟩
    obtain ⟨t, ht, n, hn, hsome, hstart⟩ := hr.exists_newNode h hprints
    refine ⟨hprints.1, t, ht, n, hn, hsome, ?_⟩
    rw [hstart]
    rfl

end Reread

/-! ## Comments -/

/-- The suppression of a comment in the fixed text. -/
def mark? (w : Rework) (n : Node) : Option Suppression :=
  Suppression.ofNode? w.fixed w.settings.markers (w.carry n)

/-- Some comment that is still there silences a line of the fixed text. -/
def Silences (w : Rework) (line : Nat) : Prop :=
  ∃ t ∈ w.file.tree.children, ∃ n ∈ w.kept t, ∃ s, w.mark? n = some s ∧ s.target = line

theorem kind_of_ofNode? {source : Bytes} {markers : List String} {s : Suppression}
    (h : Suppression.ofNode? source markers n = some s) : n.kind = .comment := by
  unfold Suppression.ofNode? at h
  split at h
  · exact absurd h (by simp)
  · rename_i hkind
    simpa using hkind

theorem Reread.exists_suppression (hr : w.Reread after) :
    (∃ s ∈ Suppression.all after.source w.settings.markers after.tree, s.target = line) ↔
      w.Silences line := by
  have hall : (∃ s ∈ Suppression.all after.source w.settings.markers after.tree, s.target = line) ↔
      ∃ x ∈ after.tree.preorder, ∃ s, Suppression.ofNode? w.fixed w.settings.markers x = some s ∧
        s.target = line := by
    simp only [Suppression.all_eq, List.mem_filterMap, hr.source]
    constructor
    · rintro ⟨s, ⟨x, hx, hs⟩, htarget⟩
      exact ⟨x, hx, s, hs, htarget⟩
    · rintro ⟨x, hx, s, hs, htarget⟩
      exact ⟨s, ⟨x, hx, hs⟩, htarget⟩
  rw [hall, hr.exists_node fun x ⟨s, hs, _⟩ => .inl (kind_of_ofNode? hs)]
  refine or_iff_left ?_
  rintro ⟨-, t, ht, x, hx, s, hs, -⟩
  have hcomment := kind_of_ofNode? hs
  rcases List.mem_append.mp ht with himport | hinstance
  · split at himport
    · exact absurd himport (by simp)
    · rw [List.mem_singleton.mp himport] at hx
      exact (Bytes.importNode_call hx).1 hcomment
  · rw [List.mem_singleton.mp hinstance] at hx
    exact (Bytes.instanceNode_call.1 x hx).1 hcomment

/-! ## The rule -/

/-- Every call that is flagged in the fixed text is silenced there. -/
structure Quiet (w : Rework) : Prop where
  calls : ∀ c ∈ w.file.facts.calls, w.FlaggedAgain c → w.Silences (w.lineAfter c)
  factory : w.createsByPrinting → w.Silences (w.fixed.lineOf w.factoryStart)

theorem Reread.quiet_iff (hr : w.Reread after) (h : w.Accepted) :
    w.settings.activeCalls after after.facts = [] ↔ w.Quiet := by
  rw [FamilySettings.activeCalls_eq_nil]
  constructor
  · intro hall
    have hsilenced : ∀ line, (∃ c ∈ after.facts.calls, c.line = line) → w.Silences line := by
      rintro _ ⟨c, hc, rfl⟩
      exact hr.exists_suppression.mp (hall c hc)
    exact ⟨fun c hc hagain => hsilenced _ ((hr.exists_call h).mpr (.inl ⟨c, hc, hagain, rfl⟩)),
      fun hprints => hsilenced _ ((hr.exists_call h).mpr (.inr ⟨hprints, rfl⟩))⟩
  · intro hquiet c hc
    refine hr.exists_suppression.mpr ?_
    rcases (hr.exists_call h).mp ⟨c, hc, rfl⟩ with ⟨d, hd, hagain, hline⟩ | ⟨hprints, hline⟩
    · exact hline ▸ hquiet.calls d hd hagain
    · exact hline ▸ hquiet.factory hprints

end Rework

namespace Project

variable {p : Project} {path : String} {source fixed : Bytes} {f after : ParsedFile}

/-- **When fixing the fixed text changes nothing.** -/
theorem plan_again (c : Conditions) (p : Project) (path : String) (w₁ w₂ : World)
    (hchanges : ((p.plan path).run (World.answerUnder c) w₁).1.report.changes ≠ [])
    (hread : (World.answerUnder c (.read path) w₂).1 =
      .ok ((p.plan path).run (World.answerUnder c) w₁).1.report.fixed) :
    let first := ((p.plan path).run (World.answerUnder c) w₁).1.report
    let again := ((p.plan path).run (World.answerUnder c) w₂).1.report
    ∃ f after, ParsedFile.read? path first.original = some f ∧
      ParsedFile.read? path first.fixed = some after ∧
      let s := p.config.settings f.grammar.family
      let w : Rework := ⟨f, s, p.shown path⟩
      ((again.success = true ∧ again.changes = []) ↔ ∀ call ∈ after.facts.calls,
        ∃ m ∈ Suppression.all first.fixed s.markers after.tree, m.target = call.line) ∧
      (f.WellFormed → f.Regular → w.Reread after →
        ((again.success = true ∧ again.changes = []) ↔ w.Quiet)) := by
  obtain ⟨source, hfirst, hother⟩ := plan_changed hchanges
  rw [hfirst] at hchanges hread
  rw [hother w₂ _ hread, hfirst]
  obtain ⟨f, after, h⟩ := planSource_changed hchanges
  have hnil := planSource_nil_iff (p := p) h.reread h.text h.fault
  rw [h.grammar] at hnil
  refine ⟨f, after, by rw [planSource_original hchanges]; exact h.read, h.reread, ?_, ?_⟩
  · rw [hnil, FamilySettings.activeCalls_eq_nil, h.content]
  · intro hwf hregular hreread
    rw [hnil]
    exact hreread.quiet_iff (h.accepted hwf hregular)

/-- A file with a logger and a call that does not use it. -/
def strayCall : ParsedFile :=
  let source := Bytes.ofText "const logger = pino();\nconsole.log(1);\n"
  ⟨"a.js", source, .javascript, Grammar.javascript.tree source⟩

theorem plan_again_strayCall :
    let p : Project := ⟨"", Config.default⟩
    let w : Rework := ⟨strayCall, p.config.settings .javascript, p.shown "a.js"⟩
    let holding (body : Bytes) : World := { disk := { nodes := [(["a.js"], .file body 0o644 default)] } }
    let first := ((p.plan "a.js").run (World.answerUnder {}) (holding strayCall.source)).1.report
    let again := ((p.plan "a.js").run (World.answerUnder {}) (holding first.fixed)).1.report
    first.changes ≠ [] ∧ strayCall.WellFormed ∧ strayCall.Regular ∧ w.Quiet ∧
      again.success = true ∧ again.changes = [] := by
  intro p w holding first again
  have hchanges : first.changes ≠ [] := by decide +kernel
  have hread : (World.answerUnder {} (.read "a.js") (holding first.fixed)).1 = .ok first.fixed := by
    decide +kernel
  have hread? : ∀ source, ParsedFile.read? "a.js" source =
      some ⟨"a.js", source, .javascript, Grammar.javascript.tree source⟩ :=
    ParsedFile.read?_of_grammar (by decide +kernel)
  have hwf : strayCall.WellFormed := by decide +kernel
  have hregular : strayCall.Regular := by decide +kernel
  have hreread : w.Reread ⟨"a.js", w.fixed, .javascript, Grammar.javascript.tree w.fixed⟩ := by
    decide +kernel
  have hrewritten : ∀ c ∈ w.file.facts.calls, c ∈ w.calls ∧ w.setup.name ≠ "console" := by
    decide +kernel
  have hquiet : w.Quiet :=
    { calls := fun c hc hagain => absurd hagain
        (not_or.mpr ⟨not_not.mpr (hrewritten c hc).1, fun hname => (hrewritten c hc).2 hname.2⟩)
      factory := fun hprints => absurd hprints.2.1 (by decide) }
  obtain ⟨f, after, hf, hafter, -, hexact⟩ :=
    plan_again {} p "a.js" (holding strayCall.source) (holding first.fixed) hchanges hread
  have horiginal : first.original = strayCall.source := by decide +kernel
  have hfixed : first.fixed = w.fixed := by decide +kernel
  rw [horiginal, hread?] at hf
  rw [hfixed, hread?] at hafter
  obtain rfl := Option.some.inj hf
  obtain rfl := Option.some.inj hafter
  exact ⟨hchanges, hwf, hregular, hquiet, (hexact hwf hregular hreread).mpr hquiet⟩

end Project

end LogHygiene
