import LogHygiene.Proofs.Cache.Upkeep
import LogHygiene.Proofs.Cache.Uses

/-!
# A store is a map with expiry

`Ledger` is what a store is meant to be: a row of results under **tickets** (a path, a time, settings), each
with the second at which it was put in. It knows nothing of keys, files or copies. `session` makes any row of
uses of a store, opened again and again under any lifetime, with any reading of the clock at each use.

> **A store that starts in an empty directory answers every row of uses as the ledger does, and after it its
> memory, its index and its files agree** (`session_eq_ledger`).

The store knows results by their keys, so this holds as far as the digests of the tickets that are used tell
them apart. Nothing else can go wrong in a calm world with room for the files; that the copies agree is
`Kept`, which `Upkeep` carries through every operation.
-/

set_option autoImplicit false

namespace LogHygiene.Cache

/-! ## The ledger -/

/-- What is put in is something that a file can hold. -/
def Use.Fits : Use → Prop
  | .set _ _ _ a => a.Fits
  | _ => True

/-- Uses of a store one after another, each at its own reading of the clock. -/
def session : Cache → World → List (Nat × Use) → List Reply × Cache × World
  | c, w, [] => ([], c, w)
  | c, w, (now, u) :: rest =>
    let ((reply, c), w) := World.carryOut { w with now } (u.perform c)
    let (replies, left) := session c w rest
    (reply :: replies, left)

/-- Results under tickets, each with the second at which it was put in. -/
structure Ledger where
  /-- how old a result may become, in seconds -/
  lifetime : Nat
  rows : List (Ticket × Nat × Analysis)

namespace Ledger

/-- Whether a result is too old. -/
def isExpired (l : Ledger) (now timestamp : Nat) : Bool := l.lifetime ≤ now - timestamp

/-- The ledger without a ticket. -/
def erase (l : Ledger) (t : Ticket) : Ledger := { l with rows := l.rows.filter (·.1 != t) }

/-- A use of the ledger. -/
def perform (l : Ledger) (now : Nat) : Use → Reply × Ledger
  | .set path modified fingerprint a =>
    let t := Ticket.of path modified fingerprint
    (.done, { l with rows := (t, now, a) :: (l.erase t).rows })
  | .get path modified fingerprint =>
    let t := Ticket.of path modified fingerprint
    match (l.rows.lookup t).filter (fun x => !l.isExpired now x.1) with
    | some x => (.found (some (t.entry x)), l)
    | none => (.found none, l.erase t)
  | .clear => (.done, { l with rows := [] })
  | .size => (.count l.rows.length, l)
  | .reopen ttlHours =>
    let l := { l with lifetime := lifetimeOf ttlHours }
    (.done, { l with rows := l.rows.filter fun x => !l.isExpired now x.2.1 })

/-- Uses of the ledger one after another. -/
def session : Ledger → List (Nat × Use) → List Reply × Ledger
  | l, [] => ([], l)
  | l, (now, u) :: rest =>
    let (reply, l) := l.perform now u
    let (replies, left) := session l rest
    (reply :: replies, left)

/-- The entries that a store has for the rows of a ledger. -/
def entries (l : Ledger) : List (String × Entry) := l.rows.map fun x => (x.1.key, x.1.entry x.2)

end Ledger

/-! ## Keys in place of tickets -/

section Entries

variable {l : Ledger} {known : List Ticket} {t : Ticket}

theorem key_eq_iff (hknown : ∀ x ∈ l.rows, x.1 ∈ known) (hapart : KeysApart known) (ht : t ∈ known)
    {x : Ticket × Nat × Analysis} (hx : x ∈ l.rows) : x.1.key = t.key ↔ x.1 = t :=
  ⟨hapart _ (hknown x hx) _ ht, congrArg Ticket.key⟩

theorem entries_erase (hknown : ∀ x ∈ l.rows, x.1 ∈ known) (hapart : KeysApart known) (ht : t ∈ known) :
    (l.erase t).entries = l.entries.filter (·.1 != t.key) := by
  rw [Ledger.entries, Ledger.entries, List.filter_map]
  refine congrArg _ (List.filter_congr fun x hx => ?_)
  have hiff := key_eq_iff hknown hapart ht hx
  rw [Bool.eq_iff_iff]
  simp [hiff]

theorem lookup_entries (hapart : KeysApart known) (ht : t ∈ known) :
    ∀ {rows : List (Ticket × Nat × Analysis)}, (∀ x ∈ rows, x.1 ∈ known) →
      (rows.map fun x => (x.1.key, x.1.entry x.2)).lookup t.key = (rows.lookup t).map t.entry
  | [], _ => rfl
  | (t', x) :: rows, hknown => by
    have ih : (rows.map fun x => (x.1.key, x.1.entry x.2)).lookup t.key = (rows.lookup t).map t.entry :=
      lookup_entries hapart ht fun y hy => hknown y (by simp [hy])
    rw [List.map_cons, List.lookup_cons, List.lookup_cons]
    by_cases htt : t = t'
    · subst htt
      simp
    · have hkey : t.key ≠ t'.key := fun hkey => htt (hapart t ht t' (hknown (t', x) (by simp)) hkey)
      rw [beq_false_of_ne hkey, beq_false_of_ne htt]
      exact ih

end Entries

/-! ## One use -/

/-- A store agrees with a ledger whose tickets are known. -/
structure Mirrors (p : Place) (known : List Ticket) (l : Ledger) (c : Cache) (d : Disk) : Prop where
  kept : Kept p l.entries c d
  lifetime : c.lifetime = l.lifetime
  known : ∀ x ∈ l.rows, x.1 ∈ known

variable {p : Place} {known : List Ticket} {l : Ledger} {c : Cache} {w : World}

theorem Mirrors.get (h : Mirrors p known l c w.disk) (hapart : KeysApart known) {path : String}
    {modified : Instant} {fingerprint : String} (ht : Ticket.of path modified fingerprint ∈ known) :
    let ran := w.carryOut (c.get path modified fingerprint)
    (.found ran.1.1 : Reply) = (l.perform w.now (.get path modified fingerprint)).1 ∧
      Mirrors p known (l.perform w.now (.get path modified fingerprint)).2 ran.1.2 ran.2.disk := by
  obtain ⟨hfound, hleaves⟩ := h.kept.fetch (Cache.key path modified fingerprint)
  have hlive : (l.entries.lookup (Cache.key path modified fingerprint)).filter
        (fun e => !c.isExpired w.now e.timestamp) =
      ((l.rows.lookup (Ticket.of path modified fingerprint)).filter
        fun x => !l.isExpired w.now x.1).map (Ticket.of path modified fingerprint).entry := by
    rw [← Ticket.key_of, Ledger.entries, lookup_entries hapart ht h.known]
    cases l.rows.lookup (Ticket.of path modified fingerprint) with
    | none => rfl
    | some x =>
      have hsame : c.isExpired w.now x.1 = l.isExpired w.now x.1 := by
        rw [Cache.isExpired, Ledger.isExpired, h.lifetime]
      simp only [Option.map_some, Option.filter_some, Ticket.entry, hsame]
      split <;> rfl
  rw [hlive] at hfound hleaves
  intro ran
  have hran : ran = w.carryOut (c.fetch (Cache.key path modified fingerprint)) := rfl
  rw [hran, hfound, Ledger.perform]
  cases hlookup : (l.rows.lookup (Ticket.of path modified fingerprint)).filter
      fun x => !l.isExpired w.now x.1 with
  | some x =>
    rw [hlookup] at hleaves
    exact ⟨rfl, hleaves.kept, hleaves.lifetime.trans h.lifetime, h.known⟩
  | none =>
    rw [hlookup] at hleaves
    refine ⟨rfl, ?_, hleaves.lifetime.trans h.lifetime, fun x hx => h.known x (List.mem_of_mem_filter hx)⟩
    have hentries := entries_erase h.known hapart ht
    rw [Ticket.key_of] at hentries
    simp only [hentries]
    exact hleaves.kept

section Performing

variable (c : Cache) (w : World) (path : String) (modified : Instant) (fingerprint : String)

theorem carryOut_set (a : Analysis) : w.carryOut (Use.perform c (.set path modified fingerprint a)) =
    ((.done, (w.carryOut (c.set path modified fingerprint a)).1),
      (w.carryOut (c.set path modified fingerprint a)).2) := by
  rw [Use.perform, World.carryOut_bind, World.carryOut_pure]

theorem carryOut_get : w.carryOut (Use.perform c (.get path modified fingerprint)) =
    ((.found (w.carryOut (c.get path modified fingerprint)).1.1,
      (w.carryOut (c.get path modified fingerprint)).1.2),
      (w.carryOut (c.get path modified fingerprint)).2) := by
  rw [Use.perform, World.carryOut_bind, World.carryOut_pure]

theorem carryOut_clear : w.carryOut (Use.perform c .clear) =
    ((.done, (w.carryOut c.clear).1), (w.carryOut c.clear).2) := by
  rw [Use.perform, World.carryOut_bind, World.carryOut_pure]

theorem carryOut_reopen (ttlHours : Nat) : w.carryOut (Use.perform c (.reopen ttlHours)) =
    ((.done, (w.carryOut (openAt c.directory ttlHours)).1), (w.carryOut (openAt c.directory ttlHours)).2) := by
  rw [Use.perform, World.carryOut_bind, World.carryOut_pure]

end Performing

/-- **One use of a store is one use of the ledger.** -/
theorem Mirrors.perform (h : Mirrors p known l c w.disk) (hapart : KeysApart known) {u : Use}
    (hticket : ∀ t, u.ticket? = some t → t ∈ known) (hfits : u.Fits) (hnow : w.now < Nat.pow 2 64) :
    let ran := w.carryOut (u.perform c)
    ran.1.1 = (l.perform w.now u).1 ∧ Mirrors p known (l.perform w.now u).2 ran.1.2 ran.2.disk := by
  intro ran
  have hran : ran = w.carryOut (u.perform c) := rfl
  cases u with
  | set path modified fingerprint a =>
    have ht := hticket _ rfl
    have hleaves := h.kept.set path modified fingerprint hfits hnow
    rw [hran, carryOut_set]
    generalize w.carryOut (c.set path modified fingerprint a) = left at hleaves ⊢
    have hentries := entries_erase h.known hapart ht
    rw [Ticket.key_of] at hentries
    have hcons : (l.perform w.now (.set path modified fingerprint a)).2.entries =
        (Cache.key path modified fingerprint, ⟨Cache.key path modified fingerprint, path, w.now, a⟩) ::
          (l.erase (Ticket.of path modified fingerprint)).entries := by
      rw [← Ticket.key_of]
      rfl
    refine ⟨rfl, ?_, hleaves.lifetime.trans h.lifetime, fun x hx => ?_⟩
    · rw [hcons, hentries]
      exact hleaves.kept
    · rcases List.mem_cons.mp hx with rfl | hx
      · exact ht
      · exact h.known x (List.mem_of_mem_filter hx)
  | get path modified fingerprint =>
    rw [hran, carryOut_get]
    exact h.get hapart (hticket _ rfl)
  | clear =>
    have hleaves := h.kept.clear
    rw [hran, carryOut_clear]
    generalize w.carryOut c.clear = left at hleaves ⊢
    exact ⟨rfl, hleaves.kept, hleaves.lifetime.trans h.lifetime, fun x hx => absurd hx (by simp [Ledger.perform])⟩
  | size =>
    refine ⟨?_, h⟩
    have hsize := h.kept.size_eq
    rw [Ledger.entries, List.length_map] at hsize
    exact congrArg Reply.count hsize
  | reopen ttlHours =>
    have hleaves := h.kept.openAt ttlHours
    rw [hran, carryOut_reopen]
    generalize w.carryOut (openAt c.directory ttlHours) = left at hleaves ⊢
    refine ⟨rfl, ?_, hleaves.lifetime, fun x hx => h.known x (List.mem_of_mem_filter hx)⟩
    have hentries : (l.perform w.now (.reopen ttlHours)).2.entries =
        l.entries.filter fun x => !decide (lifetimeOf ttlHours ≤ w.now - x.2.timestamp) := by
      rw [Ledger.entries, Ledger.entries, List.filter_map]
      rfl
    rw [hentries]
    exact hleaves.kept

/-! ## Any row of uses -/

theorem Mirrors.session {uses : List (Nat × Use)} (h : Mirrors p known l c w.disk) (hapart : KeysApart known)
    (hticket : ∀ x ∈ uses, ∀ t, x.2.ticket? = some t → t ∈ known)
    (hfits : ∀ x ∈ uses, x.1 < Nat.pow 2 64 ∧ x.2.Fits) :
    (Cache.session c w uses).1 = (l.session uses).1 ∧
      Mirrors p known (l.session uses).2 (Cache.session c w uses).2.1 (Cache.session c w uses).2.2.disk := by
  induction uses generalizing l c w with
  | nil => exact ⟨rfl, h⟩
  | cons x uses ih =>
    obtain ⟨now, u⟩ := x
    obtain ⟨hnow, hfit⟩ := hfits (now, u) (by simp)
    obtain ⟨hreply, hleft⟩ := Mirrors.perform (w := { w with now }) h hapart (hticket (now, u) (by simp)) hfit hnow
    obtain ⟨hreplies, hdone⟩ := ih hleft (fun x hx => hticket x (by simp [hx])) fun x hx => hfits x (by simp [hx])
    exact ⟨congrArg₂ List.cons hreply hreplies, hdone⟩

/-- The memory, the index and the files of a store agree, as one who looks at its files would see it. -/
structure Coherent (c : Cache) (d : Disk) : Prop where
  memory : ∀ k e, c.memory.lookup k = some e →
    e.key = k ∧ ∃ row, c.index.get? k = some row ∧ row.timestamp = e.timestamp
  index : d.read (indexPath c.directory) = .error .notFound ∧ c.index = {} ∨
    ∃ bytes, d.read (indexPath c.directory) = .ok bytes ∧ Index.ofBytes? bytes = some c.index
  blobs : ∀ k row, c.index.get? k = some row →
    ∃ bytes e, d.read (c.blobPath row.blob) = .ok bytes ∧ Entry.ofBytes? bytes = some e ∧ e.key = k ∧
      e.timestamp = row.timestamp

theorem Kept.coherent {entries : List (String × Entry)} {d : Disk} (h : Kept p entries c d) : Coherent c d where
  memory k e hk := by
    have hmem := h.memory k e hk
    refine ⟨(h.keyed.own _ hmem).1, (rowOf (k, e)).2, ?_, rfl⟩
    rw [h.get?_eq, lookup_of_mem h.keyed.distinct hmem, Option.map_some]
  index := by
    rcases h.written with ⟨hnone, hempty⟩ | hholds
    · exact .inl ⟨Disk.read_none (h.site.locate .index true) hnone, hempty⟩
    · exact .inr ⟨_, h.site.read .index hholds, c.index.ofBytes?_toBytes.1 h.sorted h.fits⟩
  blobs k row hrow := by
    rw [h.get?_eq] at hrow
    obtain ⟨e, hlookup, rfl⟩ := Option.map_eq_some_iff.mp hrow
    obtain ⟨hown, hkey, hfits⟩ := h.keyed.own _ (mem_of_lookup hlookup)
    exact ⟨_, e, h.site.read (.blob hkey) (h.files _ (mem_of_lookup hlookup)), e.ofBytes?_toBytes.1 hfits,
      hown, rfl⟩

/-- **A store is a map with expiry.** In a calm world, a store that is opened in an empty directory answers
any row of uses as the ledger does, and its copies agree afterwards: clocks may go back and forth, lifetimes
may change at each opening, and all that is asked of digests is that no two tickets of the row share one. -/
theorem session_eq_ledger (w : World) (dir : String) (p : Place) (ttlHours : Nat) (uses : List (Nat × Use))
    (hleads : Disk.Leads w.disk dir p) (hempty : ∀ q, q ≠ [] → w.disk.node? (p ++ q) = none)
    (hroom : Roomy w.disk dir) (hfits : ∀ x ∈ uses, x.1 < Nat.pow 2 64 ∧ x.2.Fits)
    (hplain : ∀ t ∈ uses.filterMap (·.2.ticket?), '\x00' ∉ t.fingerprint.toList)
    (hcollision : ∀ t ∈ uses.filterMap (·.2.ticket?), ∀ t' ∈ uses.filterMap (·.2.ticket?),
      Sha256.hex t.text = Sha256.hex t'.text → t.text = t'.text) :
    let opened := w.carryOut (openAt dir ttlHours)
    let ran := session opened.1 opened.2 uses
    ran.1 = (Ledger.session ⟨lifetimeOf ttlHours, []⟩ uses).1 ∧ Coherent ran.2.1 ran.2.2.disk := by
  have hleaves := Kept.openAt_empty hleads hempty hroom ttlHours
  have hstart : Mirrors p (uses.filterMap (·.2.ticket?)) ⟨lifetimeOf ttlHours, []⟩
      (w.carryOut (openAt dir ttlHours)).1 (w.carryOut (openAt dir ttlHours)).2.disk :=
    ⟨hleaves.kept, hleaves.lifetime, fun x hx => absurd hx (by simp)⟩
  have hapart := keysApart_of_noCollision hplain hcollision
  obtain ⟨hreplies, hleft⟩ := hstart.session hapart
    (fun x hx t ht => List.mem_filterMap.mpr ⟨x, hx, ht⟩) hfits
  exact ⟨hreplies, hleft.kept.coherent⟩

/-- Uses of a store for two files. The clock goes back once, and what is stored becomes too old. -/
def twoFiles : List (Nat × Use) :=
  [(100, .set "a.js" 7 "f" {}), (101, .get "a.js" 7 "f"), (50, .get "b.js" 7 "f"), (50, .size),
   (4000, .reopen 1), (4000, .get "a.js" 7 "f"), (4000, .size)]

theorem session_eq_ledger_twoFiles :
    let opened := oneDirectory.carryOut (openAt "/store" 1)
    let ran := session opened.1 opened.2 twoFiles
    ran.1 = [.done, .found (some ((Ticket.of "a.js" 7 "f").entry (100, {}))), .found none, .count 1, .done,
      .found none, .count 0] ∧ Coherent ran.2.1 ran.2.2.disk := by
  have hledger : (Ledger.session ⟨lifetimeOf 1, []⟩ twoFiles).1 = [.done,
      .found (some ((Ticket.of "a.js" 7 "f").entry (100, {}))), .found none, .count 1, .done, .found none,
      .count 0] := by decide +kernel
  rw [← hledger]
  refine session_eq_ledger oneDirectory "/store" ["store"] 1 twoFiles leads_oneDirectory oneDirectory_empty
    ⟨by decide, by decide⟩ ?_ (by decide) (by decide +kernel)
  intro x hx
  simp only [twoFiles, List.mem_cons, List.not_mem_nil, or_false] at hx
  rcases hx with rfl | rfl | rfl | rfl | rfl | rfl | rfl <;>
    exact ⟨by decide, by simp [Use.Fits, Analysis.Fits]⟩

end LogHygiene.Cache
