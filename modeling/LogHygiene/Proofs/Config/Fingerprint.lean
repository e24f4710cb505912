import LogHygiene.Config.Record
import LogHygiene.Proofs.Json.Reading
import LogHygiene.Proofs.Text.Utf8

/-!
# A fingerprint stands for all settings

The record of settings leaves nothing out: settings with the same record are the same
(`Config.toJson_injective`), and a record can be read back from its text. So

> **settings share their fingerprint exactly if they are the same**, unless their texts are a collision of the digest
> (`Config.fingerprint_eq_iff`).

That no two texts collide is nothing that can be proved of a digest of 256 bits. It is a disjunct here, and where a
proof has to go on from a fingerprint to the settings, it is assumed of the two texts (`Config.eq_of_fingerprint`).
-/

set_option autoImplicit false

namespace LogHygiene

theorem Json.texts_injective {xs ys : List String} (h : Json.texts xs = Json.texts ys) : xs = ys :=
  List.map_injective_iff.mpr (fun _ _ h => Json.str.inj h) (Json.arr.inj h)

theorem Json.nat_injective {m n : Nat} (h : Json.nat m = Json.nat n) : m = n := Int.ofNat.inj (Json.int.inj h)

namespace Json.Plain

theorem texts (d : Nat) (xs : List String) : Plain (d + 1) (.texts xs) := .arr fun j hj => by
  obtain ⟨x, -, rfl⟩ := List.mem_map.mp hj
  exact .atom (.str x)

theorem str (d : Nat) (s : String) : Plain d (.str s) := .atom (.str s)

theorem nat (d n : Nat) : Plain d (.nat n) := .atom (.int n)

theorem bool (d : Nat) (b : Bool) : Plain d (.bool b) := .atom (.bool b)

end Json.Plain

open Json (Plain)

/-- Two different messages have the same digest. -/
def Sha256.Collide (a b : Bytes) : Prop := a ≠ b ∧ hex a = hex b

theorem Sha256.hex_eq_iff (a b : Bytes) : hex a = hex b ↔ a = b ∨ Collide a b := by
  refine ⟨fun h => ?_, ?_⟩
  · by_cases hab : a = b
    · exact .inl hab
    · exact .inr ⟨hab, h⟩
  · rintro (rfl | hcollide)
    · rfl
    · exact hcollide.2

/-! ## Records leave nothing out -/

theorem Severity.label_injective {a b : Severity} (h : a.label = b.label) : a = b := by
  cases a <;> cases b <;> first | rfl | exact absurd h (by decide)

theorem Naming.label_injective {a b : Naming} (h : a.label = b.label) : a = b := by
  cases a <;> cases b <;> first | rfl | exact absurd h (by decide)

theorem Backend.module_injective {a b : Backend} (h : a.module = b.module) : a = b := by
  cases a <;> cases b <;> first | rfl | exact absurd h (by decide)

namespace SyntaxCheck

theorem plain_toJson (d : Nat) (c : SyntaxCheck) : Plain (d + 2) c.toJson := by
  refine .obj ?_
  simp only [List.forall_mem_cons, List.not_mem_nil, false_implies, implies_true, and_true]
  exact ⟨.str _ _, .texts d _, .nat _ _, .bool _ _⟩

theorem toJson_injective {c c' : SyntaxCheck} (h : c.toJson = c'.toJson) : c = c' := by
  obtain ⟨command, args, timeoutMs, onAnalyze⟩ := c
  obtain ⟨command', args', timeoutMs', onAnalyze'⟩ := c'
  simp only [toJson, Json.obj.injEq, List.cons.injEq, Prod.mk.injEq, Json.str.injEq, Json.bool.injEq, true_and,
    and_true] at h
  obtain ⟨rfl, hargs, htimeout, rfl⟩ := h
  rw [Json.texts_injective hargs, Json.nat_injective htimeout]

theorem getD_null_injective {c c' : Option SyntaxCheck}
    (h : (c.map toJson).getD .null = (c'.map toJson).getD .null) : c = c' := by
  cases c with
  | none =>
    cases c' with
    | none => rfl
    | some c' => exact absurd h (by simp [toJson])
  | some c =>
    cases c' with
    | none => exact absurd h (by simp [toJson])
    | some c' => rw [toJson_injective h]

end SyntaxCheck

namespace FamilySettings

theorem plain_toJson (d : Nat) (s : FamilySettings) : Plain (d + 3) s.toJson := by
  have hcheck : Plain (d + 2) ((s.syntaxCheck.map SyntaxCheck.toJson).getD .null) := by
    cases s.syntaxCheck with
    | none => exact .atom .null
    | some c => exact c.plain_toJson d
  refine .obj ?_
  simp only [List.forall_mem_cons, List.not_mem_nil, false_implies, implies_true, and_true]
  exact ⟨.bool _ _, .str _ _, .bool _ _, .texts _ _, .texts _ _, .str _ _, .str _ _, .str _ _, .texts _ _,
    .str _ _, .texts _ _, hcheck⟩

theorem toJson_injective {s s' : FamilySettings} (h : s.toJson = s'.toJson) : s = s' := by
  obtain ⟨enabled, severity, autoFix, testPatterns, cliPatterns, backend, loggerName, naming, stripSegments,
    loggerSuffix, markers, syntaxCheck⟩ := s
  obtain ⟨enabled', severity', autoFix', testPatterns', cliPatterns', backend', loggerName', naming',
    stripSegments', loggerSuffix', markers', syntaxCheck'⟩ := s'
  simp only [toJson, Json.obj.injEq, List.cons.injEq, Prod.mk.injEq, Json.str.injEq, Json.bool.injEq, true_and,
    and_true] at h
  obtain ⟨rfl, hseverity, rfl, htest, hcli, hbackend, rfl, hnaming, hstrip, rfl, hmarkers, hcheck⟩ := h
  rw [Severity.label_injective hseverity, Json.texts_injective htest, Json.texts_injective hcli,
    Backend.module_injective hbackend, Naming.label_injective hnaming, Json.texts_injective hstrip,
    Json.texts_injective hmarkers, SyntaxCheck.getD_null_injective hcheck]

end FamilySettings

theorem CacheSettings.toJson_injective {s s' : CacheSettings} (h : s.toJson = s'.toJson) : s = s' := by
  obtain ⟨enabled, directory, ttlHours⟩ := s
  obtain ⟨enabled', directory', ttlHours'⟩ := s'
  simp only [toJson, Json.obj.injEq, List.cons.injEq, Prod.mk.injEq, Json.str.injEq, Json.bool.injEq, true_and,
    and_true] at h
  obtain ⟨rfl, rfl, httl⟩ := h
  rw [Json.nat_injective httl]

namespace Config

theorem plain_toJson (d : Nat) (c : Config) : Plain (d + 4) c.toJson := by
  have hcache : Plain (d + 3) c.cache.toJson := by
    refine .obj ?_
    simp only [List.forall_mem_cons, List.not_mem_nil, false_implies, implies_true, and_true]
    exact ⟨.bool _ _, .str _ _, .nat _ _⟩
  refine .obj ?_
  simp only [List.forall_mem_cons, List.not_mem_nil, false_implies, implies_true, and_true]
  exact ⟨.texts _ _, .texts _ _, .nat _ _, hcache, c.javascript.plain_toJson d, c.python.plain_toJson d⟩

/-- **Settings with the same record are the same.** -/
theorem toJson_injective {c c' : Config} (h : c.toJson = c'.toJson) : c = c' := by
  obtain ⟨includes, excludes, concurrency, cache, javascript, python⟩ := c
  obtain ⟨includes', excludes', concurrency', cache', javascript', python'⟩ := c'
  simp only [toJson, Json.obj.injEq, List.cons.injEq, Prod.mk.injEq, true_and, and_true] at h
  obtain ⟨hincludes, hexcludes, hconcurrency, hcache, hjavascript, hpython⟩ := h
  rw [Json.texts_injective hincludes, Json.texts_injective hexcludes, Json.nat_injective hconcurrency,
    CacheSettings.toJson_injective hcache, FamilySettings.toJson_injective hjavascript,
    FamilySettings.toJson_injective hpython]

/-- The text that the fingerprint of settings is the digest of. -/
def recordText (c : Config) : Bytes := Bytes.ofText c.toJson.compact

/-- **Settings with the same text are the same**, for the record can be read back from it. -/
theorem recordText_injective {c c' : Config} (h : c.recordText = c'.recordText) : c = c' := by
  have hread : ∀ c : Config, Json.ofText? c.toJson.compact = some c.toJson := fun c =>
    (c.plain_toJson (Json.maxDepth - 4)).ofText?_compact
  have htext := Bytes.ofText_injective h
  exact toJson_injective (Option.some.inj ((hread c).symm.trans (htext ▸ hread c')))

/-- **Settings with the same fingerprint are the same**, if their texts do not collide. -/
theorem eq_of_fingerprint {c c' : Config}
    (hcollision : Sha256.hex c.recordText = Sha256.hex c'.recordText → c.recordText = c'.recordText)
    (h : c.fingerprint = c'.fingerprint) : c = c' := recordText_injective (hcollision h)

theorem recordText_eq_iff (c c' : Config) : c.recordText = c'.recordText ↔ c = c' :=
  ⟨recordText_injective, congrArg recordText⟩

/-- **The fingerprint tells settings apart.** It is the digest of a text that is the same only for settings that are
the same in every field, so any change of a setting changes it unless the two texts are a collision of the digest. -/
theorem fingerprint_eq_iff (c c' : Config) :
    c.fingerprint = Sha256.hex c.recordText ∧ (c.recordText = c'.recordText ↔ c = c') ∧
      (c.fingerprint = c'.fingerprint ↔ c = c' ∨ Sha256.Collide c.recordText c'.recordText) := by
  have htext := recordText_eq_iff c c'
  refine ⟨rfl, htext, ?_⟩
  calc c.fingerprint = c'.fingerprint
      ↔ c.recordText = c'.recordText ∨ Sha256.Collide c.recordText c'.recordText := Sha256.hex_eq_iff _ _
    _ ↔ c = c' ∨ Sha256.Collide c.recordText c'.recordText := or_congr_left htext

end Config

end LogHygiene
