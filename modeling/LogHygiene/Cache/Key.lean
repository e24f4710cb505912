import LogHygiene.Sha256

/-!
# Keys of stored results

A result holds for a file at a path, as it was at a time, under certain settings. The key is the digest
of the three, written one after the other with a zero byte between. The time is a number of nanoseconds
since the epoch; all times before it count as the epoch.
-/

set_option autoImplicit false

namespace LogHygiene

/-- A time in nanoseconds since the epoch, which may lie before it. -/
abbrev Instant := Int

/-- Nanoseconds in a second. -/
def nanosPerSecond : Nat := 1000000000

/-- The instant that many seconds and nanoseconds from the epoch. -/
def Instant.of (seconds : Int) (nanos : Nat) : Instant := seconds * nanosPerSecond + nanos

namespace Cache

/-- The text that is digested into a key. -/
def keyText (path : String) (modified : Instant) (fingerprint : String) : Bytes :=
  Bytes.ofText path ++ 0 :: Bytes.ofText (toString modified.toNat) ++ 0 :: Bytes.ofText fingerprint

/-- The key of the result for a file. -/
def key (path : String) (modified : Instant) (fingerprint : String) : String :=
  Sha256.hex (keyText path modified fingerprint)

end Cache

end LogHygiene
