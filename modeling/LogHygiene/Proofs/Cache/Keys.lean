import LogHygiene.Cache.Key
import LogHygiene.Proofs.Text.Utf8
import Std.Data.String.ToNat

/-!
# Keys tell files, times and settings apart

A key is the digest of three texts with a zero byte between them. A path may hold any byte, so where the
first text ends can only be told from behind: neither a number nor a fingerprint holds a zero byte, and so

> **equal texts to digest are made of equal parts** (`keyText_injective`), where all times before the epoch
> count as the epoch.

A digest is written in 64 hexadecimal digits (`Sha256.IsHex`), which is why it may stand in a file name.
-/

set_option autoImplicit false

namespace LogHygiene

/-! ## Digests in hexadecimal -/

namespace Sha256

/-- Nothing but hexadecimal digits. -/
def IsHex (cs : List Char) : Prop := ∀ c ∈ cs, ∃ n < 16, c = Nat.digitChar n

theorem length_bigEndian (n x : Nat) : (bigEndian n x).length = n := by
  induction n generalizing x with
  | zero => rfl
  | succ n ih => simp [bigEndian, ih]

theorem length_digest (message : Bytes) : (digest message).length = 32 := by
  simp [digest, State.words, length_bigEndian]

theorem isHex_flatMap (bytes : Bytes) : IsHex (bytes.flatMap hexByte) := by
  intro c hc
  obtain ⟨b, -, hb⟩ := List.mem_flatMap.mp hc
  have hlt := b.toNat_lt
  simp only [hexByte, List.mem_cons, List.not_mem_nil, or_false] at hb
  rcases hb with rfl | rfl
  · exact ⟨_, by omega, rfl⟩
  · exact ⟨_, by omega, rfl⟩

theorem isHex_hex (message : Bytes) : IsHex (hex message).toList := by
  rw [hex, String.toList_ofList]
  exact isHex_flatMap _

theorem length_flatMap_hexByte (bytes : Bytes) : (bytes.flatMap hexByte).length = 2 * bytes.length := by
  induction bytes with
  | nil => rfl
  | cons b rest ih => simp only [List.flatMap_cons, List.length_append, ih, hexByte, List.length_cons,
      List.length_nil]; omega

theorem length_hex (message : Bytes) : (hex message).toList.length = 64 := by
  rw [hex, String.toList_ofList, length_flatMap_hexByte, length_digest]

/-- What a hexadecimal digit is not. -/
theorem IsHex.not_mem {cs : List Char} (h : IsHex cs) {c : Char}
    (hc : ∀ n < 16, c ≠ Nat.digitChar n) : c ∉ cs := by
  intro hmem
  obtain ⟨n, hn, rfl⟩ := h c hmem
  exact hc n hn rfl

end Sha256

/-! ## Zero bytes in front of the last part -/

theorem zero_not_mem_ofText {s : String} (h : '\x00' ∉ s.toList) : (0 : UInt8) ∉ Bytes.ofText s := by
  intro hmem
  have hchar := Bytes.mem_toList_of_ascii (by decide) hmem
  exact h hchar

/-- Where the last zero byte stands, a row of bytes is cut in one way only. -/
theorem append_zero_inj {a b a' b' : Bytes} (hb : (0 : UInt8) ∉ b) (hb' : (0 : UInt8) ∉ b')
    (h : a ++ 0 :: b = a' ++ 0 :: b') : a = a' ∧ b = b' := by
  -- one front reaches as far as the other: a zero byte would be left over in the longer back
  rcases List.append_eq_append_iff.mp h with ⟨c, rfl, hc⟩ | ⟨c, rfl, hc⟩
  · cases c with
    | nil => exact ⟨(List.append_nil a).symm, (List.cons.inj hc).2⟩
    | cons x c => exact absurd ((List.cons.inj hc).2 ▸ by simp) hb
  · cases c with
    | nil => exact ⟨List.append_nil a', (List.cons.inj hc).2.symm⟩
    | cons x c => exact absurd ((List.cons.inj hc).2 ▸ by simp) hb'

/-! ## Times that count as one -/

/-- The seconds of an instant and the part of a second behind them can be told from it. -/
theorem Instant.of_eq_iff {s s' : Int} {n n' : Nat} (hn : n < nanosPerSecond) (hn' : n' < nanosPerSecond) :
    Instant.of s n = Instant.of s' n' ↔ s = s' ∧ n = n' := by
  have hunfold : Instant.of s n = Instant.of s' n' ↔
      s * nanosPerSecond + n = s' * nanosPerSecond + n' := Iff.rfl
  rw [hunfold, nanosPerSecond] at *
  omega

/-- Cut off at the epoch, two instants are one if they were one before or neither is after it. -/
theorem Instant.toNat_eq_iff {t t' : Int} : t.toNat = t'.toNat ↔ t = t' ∨ t ≤ 0 ∧ t' ≤ 0 := by omega

namespace Cache

theorem keyText_injective {path path' fingerprint fingerprint' : String} {t t' : Instant}
    (hf : '\x00' ∉ fingerprint.toList) (hf' : '\x00' ∉ fingerprint'.toList)
    (h : keyText path t fingerprint = keyText path' t' fingerprint') :
    path = path' ∧ t.toNat = t'.toNat ∧ fingerprint = fingerprint' := by
  have hdigits : ∀ n : Nat, '\x00' ∉ (toString n).toList := by
    intro n hmem
    have hmem : '\x00' ∈ Nat.toDigits 10 n := by rwa [← Nat.toList_repr]
    have := Nat.isDigit_of_mem_toDigits (by decide) (by decide) hmem
    exact absurd this (by decide)
  obtain ⟨hfront, hlast⟩ := append_zero_inj (zero_not_mem_ofText hf) (zero_not_mem_ofText hf') h
  obtain ⟨hpath, hmid⟩ := append_zero_inj (zero_not_mem_ofText (hdigits _))
    (zero_not_mem_ofText (hdigits _)) hfront
  exact ⟨Bytes.ofText_injective hpath, Nat.repr_injective (Bytes.ofText_injective hmid),
    Bytes.ofText_injective hlast⟩

theorem keyText_eq_iff {path path' fingerprint fingerprint' : String} {t t' : Instant}
    (hf : '\x00' ∉ fingerprint.toList) (hf' : '\x00' ∉ fingerprint'.toList) :
    keyText path t fingerprint = keyText path' t' fingerprint' ↔
      path = path' ∧ fingerprint = fingerprint' ∧ (t = t' ∨ t ≤ 0 ∧ t' ≤ 0) := by
  rw [← Instant.toNat_eq_iff]
  constructor
  · intro h
    obtain ⟨hpath, htime, hfingerprint⟩ := keyText_injective hf hf' h
    exact ⟨hpath, hfingerprint, htime⟩
  · rintro ⟨rfl, rfl, htime⟩
    rw [keyText, keyText, htime]

/-- What a key looks like. -/
structure IsKey (key : String) : Prop where
  hex : Sha256.IsHex key.toList
  length : key.toList.length = 64

theorem isKey_key (path : String) (t : Instant) (fingerprint : String) : IsKey (key path t fingerprint) :=
  ⟨Sha256.isHex_hex _, Sha256.length_hex _⟩

end Cache

end LogHygiene
