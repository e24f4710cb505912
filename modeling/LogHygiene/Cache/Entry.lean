import LogHygiene.Analysis
import LogHygiene.Cache.Key
import LogHygiene.Json.Reader

/-!
# What is stored about a file, and how

An **entry** holds one analysis and is a file of its own. The **index** lists the entries by their keys,
sorted, with the names of their files; it is what is looked at first. Both are written as JSON and read
back from it. A text that is not the JSON of an entry or an index is none.
-/

set_option autoImplicit false

namespace LogHygiene.Cache

/-- A stored analysis. -/
structure Entry where
  key : String
  path : String
  /-- when it was stored, in seconds since the epoch -/
  timestamp : Nat
  payload : Analysis
  deriving DecidableEq, Repr, Inhabited

namespace Entry

/-- The record of an entry. -/
def toJson (e : Entry) : Json :=
  .obj [("key", .str e.key), ("file_path", .str e.path), ("timestamp", .nat e.timestamp),
    ("payload", e.payload.toJson)]

/-- How an entry is read. -/
def recordType : Json.RecordType Entry where
  name := "CacheEntry"
  fields := ["key", "file_path", "timestamp", "payload"]
  required := ["key", "file_path", "timestamp", "payload"]
  read name e j :=
    match name with
    | "key" => j.toText.map fun x => { e with key := x }
    | "file_path" => j.toText.map fun x => { e with path := x }
    | "timestamp" => (j.toNatural "u64").map fun x => { e with timestamp := x }
    | _ => (Analysis.ofJson j).map fun x => { e with payload := x }

/-- The bytes that an entry is stored as. -/
def toBytes (e : Entry) : Bytes := Bytes.ofText e.toJson.compact

/-- The entry that bytes are. -/
def ofBytes? (bytes : Bytes) : Option Entry := do
  let text ← bytes.text?
  let j ← Json.ofText? text
  match recordType.decode ⟨"", "", 0, {}⟩ j with
  | .ok e => some e
  | .error _ => none

end Entry

/-- What the index says about an entry. -/
structure IndexRow where
  /-- the name of the file that holds the entry -/
  blob : String
  path : String
  timestamp : Nat
  deriving DecidableEq, Repr, Inhabited

namespace IndexRow

/-- The record of a row. -/
def toJson (r : IndexRow) : Json :=
  .obj [("blob", .str r.blob), ("file_path", .str r.path), ("timestamp", .nat r.timestamp)]

/-- How a row is read. -/
def recordType : Json.RecordType IndexRow where
  name := "IndexRecord"
  fields := ["blob", "file_path", "timestamp"]
  required := ["blob", "file_path", "timestamp"]
  read name r j :=
    match name with
    | "blob" => j.toText.map fun x => { r with blob := x }
    | "file_path" => j.toText.map fun x => { r with path := x }
    | _ => (j.toNatural "u64").map fun x => { r with timestamp := x }

/-- Read a row. -/
def ofJson (j : Json) : Except Mismatch IndexRow := recordType.decode ⟨"", "", 0⟩ j

end IndexRow

/-- The entries that there are, sorted by key. -/
structure Index where
  rows : List (String × IndexRow) := []
  deriving DecidableEq, Repr, Inhabited

namespace Index

/-- Put a row into a sorted list, instead of the one with its key. -/
def insertRow (key : String) (r : IndexRow) : List (String × IndexRow) → List (String × IndexRow)
  | [] => [(key, r)]
  | (k, s) :: rest =>
    if key < k then (key, r) :: (k, s) :: rest
    else if key == k then (key, r) :: rest
    else (k, s) :: insertRow key r rest

/-- Put a row into the index, instead of the one with its key. -/
def insert (i : Index) (key : String) (r : IndexRow) : Index := ⟨insertRow key r i.rows⟩

/-- The row with a key. -/
def get? (i : Index) (key : String) : Option IndexRow := i.rows.lookup key

/-- The index without a key. -/
def erase (i : Index) (key : String) : Index := ⟨i.rows.filter (·.1 != key)⟩

/-- The number of entries. -/
def size (i : Index) : Nat := i.rows.length

/-- The record of an index. -/
def toJson (i : Index) : Json := .obj (i.rows.map fun (k, r) => (k, r.toJson))

/-- Read an index. -/
def ofJson? : Json → Option Index
  | .obj fields => fields.foldlM (fun i (k, j) =>
      match IndexRow.ofJson j with
      | .ok r => some (i.insert k r)
      | .error _ => none) {}
  | _ => none

/-- The bytes that an index is stored as. -/
def toBytes (i : Index) : Bytes := Bytes.ofText i.toJson.pretty

/-- The index that bytes are. -/
def ofBytes? (bytes : Bytes) : Option Index := do
  let text ← bytes.text?
  let j ← Json.ofText? text
  ofJson? j

end Index

end LogHygiene.Cache
