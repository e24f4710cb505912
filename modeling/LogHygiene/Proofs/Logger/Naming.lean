import LogHygiene.Config.Check
import LogHygiene.Logger.Naming
import Mathlib.Data.List.Nodup
import Mathlib.Data.List.Perm.Subperm

/-!
# New names are free

The search for a name tries numbers, from two upwards, and stops short of nothing: of `n + 1` different numbered names
at most `n` are taken (`exists_free_number`). So `Naming.free` gives the name, if it is free, and else the numbered name
with the least number that is (`free_cases`), and

> **what it gives is never taken** (`free_not_mem`).

A name that settings offer is an identifier, whether it was configured or made from a path (`base_cases`). It stays one
with a number behind it, since digits may stand in a name and no reserved word ends in one (`isIdentifier_numbered`);
so for settings that are accepted a new name is an identifier, free, and as short as it can be
(`newLoggerName_legal_free_least`).
-/

set_option autoImplicit false

namespace LogHygiene

namespace Naming

variable {taken : List String} {name : String}

theorem toList_number (n : Nat) : (toString n).toList = Nat.toDigits 10 n := Nat.toList_repr

theorem numbered_injective (name : String) : Function.Injective fun n : Nat => name ++ toString (n + 2) := by
  intro m n h
  have hlists := congrArg String.toList h
  simp only [String.toList_append] at hlists
  have hdigits : Nat.toDigits 10 (m + 2) = Nat.toDigits 10 (n + 2) := by
    rw [← toList_number, ← toList_number]
    exact List.append_cancel_left hlists
  have hnumbers := congrArg (Nat.ofDigitChars 10 · 0) hdigits
  simp only [Nat.ofDigitChars_toDigits (show 1 < 10 by decide) (show 10 ≤ 10 by decide)] at hnumbers
  exact Nat.add_right_cancel hnumbers

/-- So many numbered names are taken only if at least as many names are. -/
theorem le_length_of_numbered_taken {k : Nat} (h : ∀ n < k, name ++ toString (n + 2) ∈ taken) : k ≤ taken.length := by
  have hnodup : ((List.range k).map fun n => name ++ toString (n + 2)).Nodup :=
    List.nodup_range.map (numbered_injective name)
  have hlength := (hnodup.subperm fun x hx => by
    obtain ⟨n, hn, rfl⟩ := List.mem_map.mp hx
    exact h n (List.mem_range.mp hn)).length_le
  rwa [List.length_map, List.length_range] at hlength

/-- Among one more numbered names than are taken, one is free. -/
theorem exists_free_number (taken : List String) (name : String) :
    ∃ n ∈ List.range (taken.length + 1), name ++ toString (n + 2) ∉ taken := by
  by_contra hnone
  have hall : ∀ n < taken.length + 1, name ++ toString (n + 2) ∈ taken :=
    fun n hn => not_not.mp fun hfree => hnone ⟨n, List.mem_range.mpr hn, hfree⟩
  exact absurd (le_length_of_numbered_taken hall) (by omega)

/-- **A name that is free**, or the first numbered one that is. -/
theorem free_cases (taken : List String) (name : String) :
    (name ∉ taken ∧ free taken name = name) ∨
      (name ∈ taken ∧ ∃ n, 2 ≤ n ∧ free taken name = name ++ toString n ∧ name ++ toString n ∉ taken ∧
        ∀ m, 2 ≤ m → m < n → name ++ toString m ∈ taken) := by
  unfold free
  by_cases htaken : name ∈ taken
  · refine .inr ⟨htaken, ?_⟩
    rw [if_pos (List.contains_iff_mem.mpr htaken)]
    simp only [List.find?_map]
    -- the search looks at one number more than there are names to run into
    cases hfind : (List.range (taken.length + 1)).find?
        ((!taken.contains ·) ∘ fun n => name ++ toString (n + 2)) with
    | none =>
      obtain ⟨n, hn, hfree⟩ := exists_free_number taken name
      have hnone := List.find?_eq_none.mp hfind n hn
      simp only [Function.comp_apply, Bool.not_eq_true', Bool.not_eq_false, List.contains_iff_mem] at hnone
      exact absurd hnone hfree
    | some n =>
      obtain ⟨hfree, -, hleast⟩ := List.find?_range_eq_some.mp hfind
      simp only [Function.comp_apply, Bool.not_eq_true', List.contains_eq_mem, decide_eq_false_iff_not] at hfree
      refine ⟨n + 2, Nat.le_add_left .., rfl, hfree, fun m hm hlt => ?_⟩
      have hnot := hleast (m - 2) (by omega)
      simpa [Nat.sub_add_cancel hm] using hnot
  · exact .inl ⟨htaken, if_neg (mt List.contains_iff_mem.mp htaken)⟩

/-- **A new name is not taken.** -/
theorem free_not_mem (taken : List String) (name : String) : free taken name ∉ taken := by
  rcases free_cases taken name with ⟨hfree, heq⟩ | ⟨-, n, -, heq, hfree, -⟩
  · rwa [heq]
  · rwa [heq]

theorem mem_toString_number {n : Nat} {c : Char} (h : c ∈ (toString n).toList) : c.isDigit = true := by
  rw [toList_number] at h
  exact Nat.isDigit_of_mem_toDigits (by decide) (by decide) h

/-- No package is called like a numbered name. -/
theorem numbered_ne_module (name : String) (n : Nat) (b : Backend) : name ++ toString n ≠ b.module := by
  have hplain : b.module.toList.any Char.isDigit = false := by cases b <;> decide
  obtain ⟨c, hc⟩ := List.exists_mem_of_ne_nil (toString n).toList (by
    rw [toList_number]
    exact Nat.toDigits_ne_nil)
  intro heq
  have hmem : c ∈ b.module.toList := by
    rw [← heq, String.toList_append]
    exact List.mem_append_right _ hc
  exact List.any_eq_false.mp hplain c hmem (mem_toString_number hc)

theorem free_eq_module_iff {b : Backend} : free taken name = b.module ↔ name ∉ taken ∧ name = b.module := by
  rcases free_cases taken name with ⟨hfree, heq⟩ | ⟨htaken, n, -, heq, -⟩
  · rw [heq]
    exact ⟨fun h => ⟨hfree, h⟩, And.right⟩
  · rw [heq]
    exact ⟨fun h => absurd h (numbered_ne_module name n b), fun h => absurd htaken h.1⟩

/-! ## Legible names -/

theorem blank_not_mem_of_isIdentifier {family : Family} (h : family.isIdentifier name = true) : ' ' ∉ name.toList := by
  have hchars := (Bool.and_eq_true_iff.mp h).1
  have hblank : family.startsName ' ' = false ∧ family.continuesName ' ' = false := by cases family <;> decide
  intro hmem
  cases hlist : name.toList with
  | nil =>
    rw [hlist] at hmem
    exact absurd hmem (by simp)
  | cons c rest =>
    rw [hlist] at hmem hchars
    obtain ⟨hfirst, hrest⟩ := Bool.and_eq_true_iff.mp hchars
    rcases List.mem_cons.mp hmem with rfl | hmem
    · exact absurd (hfirst.symm.trans hblank.1) (by decide)
    · exact absurd ((List.all_eq_true.mp hrest _ hmem).symm.trans hblank.2) (by decide)

/-- **The name that is used if it is free**: the one made from the path, if that is asked for and is an identifier, and
else the configured one. -/
theorem base_cases (family : Family) (s : FamilySettings) (path : String) :
    (s.naming = .module ∧ ofPath? family s path = some (base family s path) ∧
        family.isIdentifier (base family s path) = true) ∨
      (base family s path = s.loggerName ∧
        (s.naming = .module → ∀ made, ofPath? family s path = some made → family.isIdentifier made = false)) := by
  unfold base
  cases s.naming with
  | fixed => exact .inr ⟨rfl, fun h => absurd h (by decide)⟩
  | module =>
    dsimp only
    cases hpath : ofPath? family s path with
    | none => exact .inr ⟨rfl, fun _ made h => absurd h (by simp)⟩
    | some made =>
      cases hlegal : family.isIdentifier made with
      | false =>
        rw [Option.filter_some_neg (by simp [hlegal])]
        refine .inr ⟨rfl, fun _ made' h => ?_⟩
        rwa [← Option.some.inj h]
      | true =>
        rw [Option.filter_some_pos hlegal]
        exact .inl ⟨rfl, rfl, hlegal⟩

theorem isIdentifier_base {family : Family} {s : FamilySettings} (h : family.isIdentifier s.loggerName = true)
    (path : String) : family.isIdentifier (base family s path) = true := by
  rcases base_cases family s path with ⟨-, -, hmade⟩ | ⟨hconfigured, -⟩
  · exact hmade
  · rwa [hconfigured]

/-! ## Numbers behind a name -/

/-- No word that a language keeps to itself ends in a digit. -/
theorem not_isDigit_getLast?_reserved (family : Family) :
    ∀ word ∈ family.reserved, ∀ c ∈ word.toList.getLast?, c.isDigit = false := by
  have hlast : family.reserved.all (fun word => word.toList.getLast?.all (!·.isDigit)) = true := by
    cases family <;> decide
  intro word hword c hc
  have hword := List.all_eq_true.mp hlast word hword
  rw [Option.mem_def.mp hc] at hword
  simpa using hword

/-- **A number behind an identifier makes an identifier.** -/
theorem isIdentifier_numbered {family : Family} (h : family.isIdentifier name = true) (n : Nat) :
    family.isIdentifier (name ++ toString n) = true := by
  obtain ⟨hchars, -⟩ := Bool.and_eq_true_iff.mp h
  have hdigits : (toString n).toList.all family.continuesName = true := List.all_eq_true.mpr fun c hc => by
    rw [Family.continuesName, mem_toString_number hc, Bool.or_true]
  have hword : (name ++ toString n) ∉ family.reserved := by
    intro hmem
    have hne : (toString n).toList ≠ [] := by
      rw [toList_number]
      exact Nat.toDigits_ne_nil
    have hlast : (toString n).toList.getLast hne ∈ (name ++ toString n).toList.getLast? := by
      rw [String.toList_append, List.getLast?_append_of_ne_nil _ hne, List.getLast?_eq_getLast_of_ne_nil hne]
      rfl
    have hdigit := mem_toString_number (List.getLast_mem hne)
    rw [not_isDigit_getLast?_reserved family _ hmem _ hlast] at hdigit
    exact absurd hdigit (by decide)
  rw [Family.isIdentifier, String.toList_append]
  cases hlist : name.toList with
  | nil =>
    rw [hlist] at hchars
    exact absurd hchars (by simp)
  | cons c rest =>
    rw [hlist] at hchars
    obtain ⟨hfirst, hrest⟩ := Bool.and_eq_true_iff.mp hchars
    simp only [List.cons_append, List.all_append, hfirst, hrest, hdigits, List.contains_eq_mem, hword, Bool.and_true,
      decide_false, Bool.not_false]

theorem blank_not_mem_free (h : ' ' ∉ name.toList) : ' ' ∉ (free taken name).toList := by
  rcases free_cases taken name with ⟨-, heq⟩ | ⟨-, n, -, heq, -⟩
  · rwa [heq]
  · rw [heq, String.toList_append]
    exact List.not_mem_append h fun hmem => absurd (mem_toString_number hmem) (by decide)

end Naming

/-! ## Accepted settings -/

theorem require_eq_ok {holds : Bool} {field reason : String} :
    require holds field reason = .ok () ↔ holds = true := by
  cases holds <;> simp [require]

theorem bind_unit_eq_ok {ε : Type} {x : Except ε Unit} {f : Unit → Except ε Unit} :
    (x >>= f) = .ok () ↔ x = .ok () ∧ f () = .ok () := by
  cases x <;> simp [bind, Except.bind]

/-- Settings that are accepted name loggers as the family can bind them. -/
theorem FamilySettings.isIdentifier_of_check {family : Family} {s : FamilySettings} (h : s.check family = .ok ()) :
    family.isIdentifier s.loggerName = true := by
  unfold check at h
  obtain ⟨-, h⟩ := bind_unit_eq_ok.mp h
  obtain ⟨-, h⟩ := bind_unit_eq_ok.mp h
  obtain ⟨-, h⟩ := bind_unit_eq_ok.mp h
  exact require_eq_ok.mp (bind_unit_eq_ok.mp h).1

/-- Settings that are accepted name a backend of the family. -/
theorem FamilySettings.backend_of_check {family : Family} {s : FamilySettings} (h : s.check family = .ok ()) :
    s.backend.family = family := by
  unfold check at h
  obtain ⟨-, h⟩ := bind_unit_eq_ok.mp h
  obtain ⟨-, h⟩ := bind_unit_eq_ok.mp h
  exact eq_of_beq (require_eq_ok.mp (bind_unit_eq_ok.mp h).1)

theorem Config.check_settings {c : Config} (h : c.check = .ok ()) (family : Family) :
    (c.settings family).check family = .ok () := by
  unfold check at h
  obtain ⟨-, h⟩ := bind_unit_eq_ok.mp h
  obtain ⟨-, h⟩ := bind_unit_eq_ok.mp h
  obtain ⟨-, h⟩ := bind_unit_eq_ok.mp h
  obtain ⟨-, h⟩ := bind_unit_eq_ok.mp h
  obtain ⟨hjavascript, hpython⟩ := bind_unit_eq_ok.mp h
  cases family with
  | javascript => exact hjavascript
  | python => exact hpython

theorem blank_not_mem_newLoggerName {family : Family} {s : FamilySettings} (h : s.check family = .ok ())
    (taken : List String) (path : String) : ' ' ∉ (newLoggerName family s taken path).toList :=
  Naming.blank_not_mem_free (Naming.blank_not_mem_of_isIdentifier
    (Naming.isIdentifier_base (FamilySettings.isIdentifier_of_check h) path))

/-- **A new name is an identifier, free, and numbered only if it has to be.** It is the name made from the path, if that
is asked for and is an identifier, and else the configured one; if that is taken, the least number from two upwards that
makes it free is behind it, and the search for that number ends after as many numbers as there are names. -/
theorem newLoggerName_legal_free_least {family : Family} {s : FamilySettings} (h : s.check family = .ok ())
    (taken : List String) (path : String) :
    let name := newLoggerName family s taken path
    family.isIdentifier name = true ∧ name ∉ taken ∧ ∃ base,
      ((s.naming = .module ∧ Naming.ofPath? family s path = some base ∧ family.isIdentifier base = true) ∨
        (base = s.loggerName ∧
          (s.naming = .module → ∀ made, Naming.ofPath? family s path = some made → family.isIdentifier made = false))) ∧
      ((base ∉ taken ∧ name = base) ∨
        (base ∈ taken ∧ ∃ n, 2 ≤ n ∧ n ≤ taken.length + 2 ∧ name = base ++ toString n ∧
          ∀ m, 2 ≤ m → m < n → base ++ toString m ∈ taken)) := by
  intro name
  let base := Naming.base family s path
  have hbase : family.isIdentifier base = true :=
    Naming.isIdentifier_base (FamilySettings.isIdentifier_of_check h) path
  have hfree : name ∉ taken := Naming.free_not_mem taken base
  rcases Naming.free_cases taken base with ⟨hnew, heq⟩ | ⟨htaken, n, htwo, heq, -, hleast⟩
  · have hname : name = base := heq
    exact ⟨hname ▸ hbase, hfree, base, Naming.base_cases family s path, .inl ⟨hnew, hname⟩⟩
  · have hname : name = base ++ toString n := heq
    have hcount : n - 2 ≤ taken.length :=
      Naming.le_length_of_numbered_taken fun m hm => hleast (m + 2) (by omega) (by omega)
    exact ⟨hname ▸ Naming.isIdentifier_numbered hbase n, hfree, base, Naming.base_cases family s path,
      .inr ⟨htaken, n, htwo, by omega, hname, hleast⟩⟩

/-- Settings that ask for names made from paths. -/
def namedByPath : FamilySettings := { FamilySettings.default .python with naming := .module }

theorem newLoggerName_legal_free_least_takenTwice :
    let taken := ["pkg_db_session_logger", "logger", "pkg_db_session_logger2"]
    let name := newLoggerName .python namedByPath taken "pkg/db/session.py"
    namedByPath.check .python = .ok () ∧ name = "pkg_db_session_logger3" ∧
      Family.python.isIdentifier name = true ∧ name ∉ taken := by
  intro taken name
  have hvalid : namedByPath.check .python = .ok () := by decide +kernel
  obtain ⟨hlegal, hfree, -⟩ := newLoggerName_legal_free_least hvalid taken "pkg/db/session.py"
  exact ⟨hvalid, by decide +kernel, hlegal, hfree⟩

end LogHygiene
