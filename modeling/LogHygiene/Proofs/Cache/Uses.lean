import LogHygiene.Cache.Store
import LogHygiene.Proofs.Cache.Index
import LogHygiene.Proofs.Cache.Keys
import LogHygiene.Proofs.Carrying

/-!
# What is done with a store

A **ticket** is what a result is for, and a `Use` is one thing that a program does with an open store. A
store knows a ticket by its key, the digest of what is on it; so what a store can be said to answer about
tickets holds as far as digests tell them apart (`keysApart_of_noCollision`).

> **A result that was stored is missed once the path, the time or the settings are others**, unless both times
> are no later than the epoch (`set_misses_changed`).
-/

set_option autoImplicit false

namespace LogHygiene.Cache

/-- What a result is for: a file as it was at a time, all times before the epoch being one, under settings. -/
structure Ticket where
  path : String
  modified : Nat
  fingerprint : String
  deriving DecidableEq, Repr

namespace Ticket

/-- The ticket for a file as it was at a time. -/
def of (path : String) (modified : Instant) (fingerprint : String) : Ticket :=
  ⟨path, modified.toNat, fingerprint⟩

/-- The text that the key of a ticket is the digest of. -/
def text (t : Ticket) : Bytes := keyText t.path t.modified t.fingerprint

/-- The key under which a store knows a ticket. -/
def key (t : Ticket) : String := Sha256.hex t.text

/-- The entry for a result under a ticket. -/
def entry (t : Ticket) (x : Nat × Analysis) : Entry := ⟨t.key, t.path, x.1, x.2⟩

theorem key_of (path : String) (modified : Instant) (fingerprint : String) :
    (of path modified fingerprint).key = Cache.key path modified fingerprint := by
  rw [key, text, Cache.key, of, keyText, keyText, Int.toNat_natCast]

end Ticket

/-- Something done with a store. -/
inductive Use where
  | set (path : String) (modified : Instant) (fingerprint : String) (a : Analysis)
  | get (path : String) (modified : Instant) (fingerprint : String)
  | clear
  | size
  /-- let go of the store and open it again -/
  | reopen (ttlHours : Nat)

/-- What a use is answered with. -/
inductive Reply where
  | done
  | found (e : Option Entry)
  | count (n : Nat)
  deriving DecidableEq, Repr

namespace Use

/-- The ticket that a use is about. -/
def ticket? : Use → Option Ticket
  | set path modified fingerprint _ => some (.of path modified fingerprint)
  | get path modified fingerprint => some (.of path modified fingerprint)
  | _ => none

/-- Carry a use out on a store. -/
def perform (c : Cache) : Use → Procedure (Reply × Cache)
  | set path modified fingerprint a => do
    let c ← c.set path modified fingerprint a
    pure (.done, c)
  | get path modified fingerprint => do
    let (e, c) ← c.get path modified fingerprint
    pure (.found e, c)
  | clear => do
    let c ← c.clear
    pure (.done, c)
  | size => pure (.count c.size, c)
  | reopen ttlHours => do
    let c ← openAt c.directory ttlHours
    pure (.done, c)

end Use

/-- Keys tell tickets apart. -/
def KeysApart (known : List Ticket) : Prop := ∀ t ∈ known, ∀ t' ∈ known, t.key = t'.key → t = t'

/-- Digests tell two tickets apart: their texts can be read back into tickets, and do not collide. -/
structure ToldApart (t t' : Ticket) : Prop where
  plain : '\x00' ∉ t.fingerprint.toList
  plain' : '\x00' ∉ t'.fingerprint.toList
  noCollision : Sha256.hex t.text = Sha256.hex t'.text → t.text = t'.text

theorem ToldApart.eq_of_key {t t' : Ticket} (h : ToldApart t t') (hkey : t.key = t'.key) : t = t' := by
  obtain ⟨hpath, hmodified, hfingerprint⟩ := keyText_injective h.plain h.plain' (h.noCollision hkey)
  simp only [Int.toNat_natCast] at hmodified
  cases t
  cases t'
  simp_all

/-- Where no two of the texts that are digested have one digest, keys tell tickets apart. -/
theorem keysApart_of_noCollision {known : List Ticket}
    (hplain : ∀ t ∈ known, '\x00' ∉ t.fingerprint.toList)
    (hcollision : ∀ t ∈ known, ∀ t' ∈ known, Sha256.hex t.text = Sha256.hex t'.text → t.text = t'.text) :
    KeysApart known := fun t ht t' ht' =>
  ToldApart.eq_of_key ⟨hplain t ht, hplain t' ht', hcollision t ht t' ht'⟩

/-! ## A change of path, time or settings -/

section Unknown

variable {σ : Type} (answer : (q : Request) → σ → q.Answer × σ) (c : Cache) (s : σ) {k : String}

/-- Nothing is known under a key. -/
structure Unknown (c : Cache) (k : String) : Prop where
  index : c.index.get? k = none
  memory : c.memory.lookup k = none

variable {c}

theorem Unknown.lookUp? (h : Unknown c k) (now : Nat) : c.lookUp? now k = none := by
  rw [Cache.lookUp?, h.memory, Option.filter_none]

/-- What is not known is not found, whatever the disk holds. -/
theorem Unknown.fetch (h : Unknown c k) : ((c.fetch k).run answer s).1 = (none, c) := by
  rw [Cache.fetch, Procedure.run_bind]
  simp only [h.lookUp?, h.index, Procedure.run_pure]

/-- What is stored becomes known under its own key alone. -/
theorem Unknown.set (h : Unknown c k) {path : String} {modified : Instant} {fingerprint : String}
    (hne : k ≠ key path modified fingerprint) (a : Analysis) :
    Unknown ((c.set path modified fingerprint a).run answer s).1 k := by
  rw [Cache.set, Procedure.run_bind, Procedure.run_bind]
  -- the file of the entry is written, and then the index, or neither is
  split
  · exact h
  · rw [Procedure.run_bind, Procedure.run_pure]
    refine ⟨?_, ?_⟩
    · rw [remember, Index.get?_insert, if_neg hne, h.index]
    · rw [remember, lookup_replace, if_neg hne, h.memory]

end Unknown

/-- **A result that was stored is missed once the path, the time or the settings are others.** The texts to
digest are equal for equal parts only, where times that are not after the epoch count as one; and if the texts
of two keys do not collide, then what is stored under the first is not found under the second, whatever the
disk answers. -/
theorem set_misses_changed {path path' fingerprint fingerprint' : String} {s s' : Int} {n n' : Nat}
    (hn : n < nanosPerSecond) (hn' : n' < nanosPerSecond)
    (hf : Sha256.IsHex fingerprint.toList) (hf' : Sha256.IsHex fingerprint'.toList) :
    let t := Instant.of s n
    let t' := Instant.of s' n'
    let alike := path = path' ∧ fingerprint = fingerprint' ∧ ((s = s' ∧ n = n') ∨ t ≤ 0 ∧ t' ≤ 0)
    (keyText path t fingerprint = keyText path' t' fingerprint' ↔ alike) ∧
      ((key path t fingerprint = key path' t' fingerprint' →
          keyText path t fingerprint = keyText path' t' fingerprint') → ¬ alike →
        ∀ (σ : Type) (answer : (q : Request) → σ → q.Answer × σ) (start : σ) (c : Cache) (a : Analysis),
          Unknown c (key path' t' fingerprint') →
            ((do let c ← c.set path t fingerprint a
                 c.get path' t' fingerprint').run answer start).1.1 = none) := by
  intro t t' alike
  have htext : keyText path t fingerprint = keyText path' t' fingerprint' ↔ alike := by
    rw [keyText_eq_iff (hf.not_mem (by decide)) (hf'.not_mem (by decide)), Instant.of_eq_iff hn hn']
  refine ⟨htext, fun hcollision halike σ answer start c a hunknown => ?_⟩
  have hne : key path' t' fingerprint' ≠ key path t fingerprint :=
    fun hkey => halike (htext.mp (hcollision hkey.symm))
  rw [Procedure.run_bind, Cache.get, ((hunknown.set answer start hne a).fetch answer _)]

/-- A text that can be the fingerprint of settings. -/
def someFingerprint : String := Sha256.hex []

theorem isHex_someFingerprint : Sha256.IsHex someFingerprint.toList := Sha256.isHex_hex []

theorem set_misses_changed_nextNanosecond :
    keyText "a.py" (Instant.of 10 0) someFingerprint ≠ keyText "a.py" (Instant.of 10 1) someFingerprint ∧
      ((do let c ← ({ directory := "/store", lifetime := 3600, index := {}, memory := [] } : Cache).set
             "a.py" (Instant.of 10 0) someFingerprint {}
           c.get "a.py" (Instant.of 10 1) someFingerprint).run World.answer {}).1.1 = none := by
  have halike : ¬ ("a.py" = "a.py" ∧ someFingerprint = someFingerprint ∧
      (((10 : Int) = 10 ∧ 0 = 1) ∨ Instant.of 10 0 ≤ 0 ∧ Instant.of 10 1 ≤ 0)) := by
    rintro ⟨-, -, ⟨-, h⟩ | ⟨h, -⟩⟩ <;> exact absurd h (by decide)
  obtain ⟨htext, hmissed⟩ := @set_misses_changed "a.py" "a.py" someFingerprint someFingerprint 10 10 0 1
    (by decide) (by decide) isHex_someFingerprint isHex_someFingerprint
  exact ⟨fun h => halike (htext.mp h),
    hmissed (fun hkey => absurd hkey (by decide +kernel)) halike _ _ _ _ _ ⟨rfl, rfl⟩⟩

/-- Two times before the epoch are not told apart. -/
theorem keyText_beforeEpoch :
    Instant.of (-5) 0 ≠ Instant.of (-3) 7 ∧ Sha256.IsHex someFingerprint.toList ∧
      keyText "a.py" (Instant.of (-5) 0) someFingerprint =
        keyText "a.py" (Instant.of (-3) 7) someFingerprint := by
  have hplain := isHex_someFingerprint.not_mem (c := '\x00') (by decide)
  exact ⟨by decide, isHex_someFingerprint,
    (keyText_eq_iff hplain hplain).mpr ⟨rfl, rfl, .inr ⟨by decide, by decide⟩⟩⟩

end LogHygiene.Cache
