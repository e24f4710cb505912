import LogHygiene.Cache.Entry
import LogHygiene.Procedure

/-!
# The store of analyses

Analyses are kept in a directory: the index, and below `blobs` a file for each entry. A store that is
open keeps the index in memory, and the entries it has read or written.

**A store is never in the way.** Whatever goes wrong with its files, the answer is that nothing is stored.
An entry that is too old, cannot be read, or turns out to be another one, is dropped when it is met.
-/

set_option autoImplicit false

namespace LogHygiene

/-- An open store. -/
structure Cache where
  directory : String
  /-- how old an entry may become, in seconds -/
  lifetime : Nat
  index : Cache.Index
  /-- entries that were read or written since the store was opened -/
  memory : List (String × Cache.Entry)
  deriving DecidableEq, Repr, Inhabited

namespace Cache

/-- The greatest number that a lifetime can be. -/
def maxLifetime : Nat := Nat.pow 2 64 - 1

/-- The seconds that entries live for, given the hours. -/
def lifetimeOf (ttlHours : Nat) : Nat := min maxLifetime (ttlHours * 3600)

/-- The file that holds the index of a store in `directory`. -/
def indexPath (directory : String) : String := Path.join directory "index.json"

/-- The directory that holds the entries of a store in `directory`. -/
def blobDirectory (directory : String) : String := Path.join directory "blobs"

/-- The file of an entry, by its name. -/
def blobPath (c : Cache) (blob : String) : String := Path.join (blobDirectory c.directory) blob

/-- The name of the file of an entry. -/
def blobName (key : String) : String := key ++ ".json"

/-- Whether an entry is too old. -/
def isExpired (c : Cache) (now timestamp : Nat) : Bool := c.lifetime ≤ now - timestamp

/-- The number of entries. -/
def size (c : Cache) : Nat := c.index.size

/-- Forget an entry that is held in memory. -/
def forget (c : Cache) (key : String) : Cache :=
  { c with memory := c.memory.filter (·.1 != key) }

/-- Hold an entry in memory. -/
def remember (c : Cache) (key : String) (e : Entry) : Cache :=
  { c with memory := (key, e) :: c.memory.filter (·.1 != key) }

/-- Write the index to its file. -/
def writeIndex (c : Cache) : Procedure Unit := do
  let _ ← Procedure.request (.replace (indexPath c.directory) c.index.toBytes)
  pure ()

/-- Remove the file of an entry. -/
def removeBlob (c : Cache) (blob : String) : Procedure Unit := do
  let _ ← Procedure.request (.remove (c.blobPath blob))
  pure ()

/-- Drop an entry. -/
def evict (c : Cache) (key : String) : Procedure Cache := do
  let c := c.forget key
  match c.index.get? key with
  | none => pure c
  | some row =>
    c.removeBlob row.blob
    let c := { c with index := c.index.erase key }
    c.writeIndex
    pure c

/-- Drop the entries that are too old. -/
def purge (c : Cache) : Procedure Cache := do
  let now ← Procedure.request .now
  let old := c.index.rows.filter fun (_, r) => c.isExpired now r.timestamp
  if old.isEmpty then pure c
  else
    let _ ← Procedure.each (fun (_, r) => c.removeBlob r.blob) old
    let kept := c.index.rows.filter fun (_, r) => !c.isExpired now r.timestamp
    let c := { c with index := ⟨kept⟩ }
    c.writeIndex
    pure c

/-- The index that is stored in a directory; the empty one if none can be read. -/
def readIndex (directory : String) : Procedure Index := do
  match ← Procedure.request (.read (indexPath directory)) with
  | .ok bytes => pure ((Index.ofBytes? bytes).getD {})
  | .error _ => pure {}

/-- Open the store in a directory, which is made if it is not there, and drop what is too old. -/
def openAt (directory : String) (ttlHours : Nat) : Procedure Cache := do
  let _ ← Procedure.request (.makeDirectory (blobDirectory directory))
  let index ← readIndex directory
  purge { directory, lifetime := lifetimeOf ttlHours, index, memory := [] }

/-- The entry with a key that is held in memory, unless it is too old. -/
def lookUp? (c : Cache) (now : Nat) (key : String) : Option Entry :=
  (c.memory.lookup key).filter fun e => !c.isExpired now e.timestamp

/-- The entry with a key, and the store afterwards. -/
def fetch (c : Cache) (key : String) : Procedure (Option Entry × Cache) := do
  let now ← Procedure.request .now
  match c.lookUp? now key with
  | some e => pure (some e, c)
  | none =>
    match c.index.get? key with
    | none => pure (none, c)
    | some row =>
      let drop : Procedure (Option Entry × Cache) := do
        let c ← c.evict key
        pure (none, c)
      if c.isExpired now row.timestamp then drop
      else
        match ← Procedure.request (.read (c.blobPath row.blob)) with
        | .error _ => drop
        | .ok bytes =>
          match (Entry.ofBytes? bytes).filter (·.key == key) with
          | some e => pure (some e, c.remember key e)
          | none => drop

/-- The entry for a file as it was at a time, under settings, and the store afterwards. -/
def get (c : Cache) (path : String) (modified : Instant) (fingerprint : String) :
    Procedure (Option Entry × Cache) := c.fetch (key path modified fingerprint)

/-- Store an analysis. -/
def set (c : Cache) (path : String) (modified : Instant) (fingerprint : String) (a : Analysis) :
    Procedure Cache := do
  let key := key path modified fingerprint
  let now ← Procedure.request .now
  let e : Entry := ⟨key, path, now, a⟩
  let blob := blobName key
  match ← Procedure.request (.replace (c.blobPath blob) e.toBytes) with
  | some _ => pure c
  | none =>
    let c := { c with index := c.index.insert key ⟨blob, path, now⟩ }
    c.writeIndex
    pure (c.remember key e)

/-- Remove the file of the index, if its path leads anywhere. -/
def removeIndex (directory : String) : Procedure Unit := do
  if ← Procedure.request (.isThere (indexPath directory)) then
    let _ ← Procedure.request (.remove (indexPath directory))
  pure ()

/-- Remove every entry: the files first, then the index. -/
def clear (c : Cache) : Procedure Cache := do
  let blobs ← Procedure.request (.list (blobDirectory c.directory))
  let _ ← Procedure.each c.removeBlob blobs
  removeIndex c.directory
  pure { c with index := {}, memory := [] }

end Cache

end LogHygiene
