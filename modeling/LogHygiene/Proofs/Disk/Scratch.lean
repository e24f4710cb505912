import LogHygiene.Disk.Replacement
import LogHygiene.Proofs.Disk.Locating
import Mathlib.Data.Nat.Digits.Defs

/-!
# Places of scratch files

A scratch file is put beside the file that it is for, under a name that nobody looks for before: it is made of the name
of the file, the number of the process and the number of the write. So a file can stand in its way, but only one whose
name is of that form.

> **where no place has the name of a scratch file, opening one makes a new file** (`ScratchFree`, `behind_eq`).
-/

set_option autoImplicit false

namespace LogHygiene

namespace Disk

/-! ## Looking up after one change -/

/-- The top is always a directory. -/
@[simp] theorem node?_top (d : Disk) : d.node? [] = some (.directory newDirectoryMode) := rfl

/-- The top is a directory, so what is not is not the top. -/
theorem ne_nil_of_not_isDirectory {d : Disk} {p : Place} (h : ¬ d.IsDirectory p) : p ≠ [] := by
  rintro rfl
  exact h ⟨_, d.node?_top⟩

theorem node?_put {d : Disk} {p : Place} (hp : p ≠ []) (n : DiskNode) (q : Place) :
    (d.put p n).node? q = if q = p then some n else d.node? q := by
  cases q with
  | nil => simp [hp.symm]
  | cons name rest =>
    simp only [node?, put, List.isEmpty_cons, Bool.false_eq_true, if_false, lookup_replace]

theorem node?_clear {d : Disk} {p : Place} (hp : p ≠ []) (q : Place) :
    (d.clear p).node? q = if q = p then none else d.node? q := by
  cases q with
  | nil => simp [hp.symm]
  | cons name rest =>
    simp only [node?, clear, List.isEmpty_cons, Bool.false_eq_true, if_false, lookup_filter_ne]

theorem node?_fill {d : Disk} {p : Place} (hp : p ≠ []) (body : Bytes) (q : Place) :
    (d.fill p body).node? q = if q = p then some (.file body (d.modeAt p) d.clock) else d.node? q :=
  node?_put hp _ q

@[simp] theorem node?_tick (d : Disk) (q : Place) : d.tick.node? q = d.node? q := rfl

@[simp] theorem node?_count (d : Disk) (q : Place) : d.count.node? q = d.node? q := rfl

/-- The same at another time, and after other writes. -/
def later (d : Disk) (clock : Instant) (writes : UInt64) : Disk := { d with clock, writes }

@[simp] theorem node?_later (d : Disk) (clock : Instant) (writes : UInt64) (q : Place) :
    (d.later clock writes).node? q = d.node? q := rfl

/-- What stands at a place is on the list. -/
theorem mem_nodes_of_node? {d : Disk} {q : Place} {n : DiskNode} (hq : q ≠ []) (h : d.node? q = some n) :
    (q, n) ∈ d.nodes := by
  rw [node?, if_neg (by simpa using hq)] at h
  exact mem_of_lookup h

theorem put_put (d : Disk) (s : Place) (n n' : DiskNode) : (d.put s n).put s n' = d.put s n' := by
  simp [put, List.filter_filter]

theorem clear_put (d : Disk) (s : Place) (n : DiskNode) : (d.put s n).clear s = d.clear s := by
  simp [put, clear, List.filter_filter]

/-- Where nothing is, nothing is taken away. -/
theorem clear_of_free {d : Disk} {s : Place} (hs : s ≠ []) (hfree : d.node? s = none) : d.clear s = d := by
  have hnodes : d.nodes.filter (·.1 != s) = d.nodes := by
    refine List.filter_eq_self.mpr fun x hx => bne_iff_ne.mpr fun hxs => ?_
    have hlookup : d.nodes.lookup s = none := by simpa [node?, hs] using hfree
    have hne := List.lookup_eq_none_iff.mp hlookup x hx
    exact absurd hxs.symm (by simpa using hne)
  rw [clear, hnodes]

/-! ## One place that is different -/

/-- The second disk is the first but for one place, at which the node is. -/
structure Swapped (before : Disk) (at_ : Place) (node : Option DiskNode) (after : Disk) : Prop where
  here : after.here = before.here
  there : after.node? at_ = node
  others : ∀ q, q ≠ at_ → after.node? q = before.node? q

namespace Swapped

variable {d e : Disk} {s : Place} {n : Option DiskNode}

theorem refl (d : Disk) (s : Place) : Swapped d s (d.node? s) d := ⟨rfl, rfl, fun _ _ => rfl⟩

theorem put (hs : s ≠ []) (h : Swapped d s n e) (m : DiskNode) : Swapped d s (some m) (e.put s m) where
  here := h.here
  there := by rw [node?_put hs, if_pos rfl]
  others q hq := by rw [node?_put hs, if_neg hq, h.others q hq]

end Swapped

end Disk

/-! ## Names -/

/-- A name that a scratch file of a process can have. -/
def IsScratchName (process : Nat) (name : String) : Prop := ∃ serial base, name = scratchName process serial base

namespace IsScratchName

variable {process : Nat} {name : String}

theorem starts (h : IsScratchName process name) : name.toList.head? = some '.' := by
  obtain ⟨serial, base, rfl⟩ := h
  simp only [scratchName, String.toList_append]
  rfl

theorem ends (h : IsScratchName process name) : ".tmp".toList <:+ name.toList := by
  obtain ⟨serial, base, rfl⟩ := h
  rw [scratchName, String.toList_append]
  exact List.suffix_append _ _

theorem ne_empty (h : IsScratchName process name) : name ≠ "" := by
  rintro rfl
  exact absurd h.starts (by simp)

end IsScratchName

theorem scratchName_ne (process : Nat) (serial : UInt64) (name : String) : scratchName process serial name ≠ name := by
  intro h
  have hlen := congrArg String.length h
  simp only [scratchName, String.length_append] at hlen
  have hdot : ".".length = 1 := rfl
  omega

theorem size_of_ascii : ∀ {cs : List Char}, (∀ c ∈ cs, c.utf8Size = 1) → (String.ofList cs).utf8ByteSize = cs.length
  | [], _ => by decide
  | c :: cs, h => by
    rw [String.ofList_cons, String.utf8ByteSize_append, String.utf8ByteSize_singleton, h c List.mem_cons_self,
      size_of_ascii fun x hx => h x (List.mem_cons_of_mem _ hx), List.length_cons, Nat.add_comm]

/-- A 64-bit number has at most 20 digits. -/
theorem size_serial_le (serial : UInt64) : (toString serial).utf8ByteSize ≤ 20 := by
  have hdigits : ∀ c ∈ Nat.toDigits 10 serial.toNat, c.utf8Size = 1 := by
    intro c hc
    have hc := Nat.isDigit_of_mem_toDigits (by decide) (by decide) hc
    rw [Char.utf8Size_eq_one_iff]
    simp only [Char.isDigit, Bool.and_eq_true, decide_eq_true_eq] at hc
    exact UInt32.le_trans hc.2 (by decide)
  have htext : toString serial = String.ofList (Nat.toDigits 10 serial.toNat) := rfl
  rw [htext, size_of_ascii hdigits]
  exact Nat.toDigits_length 10 _ 20 (by decide) (Nat.lt_of_lt_of_le serial.toNat_lt (by decide))

theorem size_scratchName (process : Nat) (serial : UInt64) (name : String) :
    (scratchName process serial name).utf8ByteSize =
      name.utf8ByteSize + (toString process).utf8ByteSize + (toString serial).utf8ByteSize + 7 := by
  simp only [scratchName, String.utf8ByteSize_append]
  have hdot : ".".utf8ByteSize = 1 := rfl
  have hend : ".tmp".utf8ByteSize = 4 := rfl
  omega

/-- A scratch name that is not too long is one that a file can have. -/
theorem isName_scratchName {process : Nat} {serial : UInt64} {name : String}
    (hshort : (scratchName process serial name).utf8ByteSize ≤ Disk.maxName) :
    Disk.IsName (scratchName process serial name) := by
  have hscratch : IsScratchName process (scratchName process serial name) := ⟨serial, name, rfl⟩
  have hends := hscratch.ends.length_le
  refine ⟨hscratch.ne_empty, fun h => ?_, fun h => ?_, hshort⟩ <;>
  · rw [h] at hends
    exact absurd hends (by decide)

/-- So is one of a plain name. -/
theorem isFileName_scratchName {process : Nat} {serial : UInt64} {name : String} (hslash : '/' ∉ name.toList)
    (hzero : '\x00' ∉ name.toList) (hshort : (scratchName process serial name).utf8ByteSize ≤ Disk.maxName) :
    Disk.IsFileName (scratchName process serial name) := by
  have hdigits : ∀ {n : Nat} {c : Char}, c.isDigit = false → c ∉ Nat.toDigits 10 n := fun hc hmem =>
    absurd (Nat.isDigit_of_mem_toDigits (by decide) (by decide) hmem) (by simp [hc])
  have hprocess : (toString process).toList = Nat.toDigits 10 process := Nat.toList_repr
  have hserial : (toString serial).toList = Nat.toDigits 10 serial.toNat := Nat.toList_repr
  refine ⟨isName_scratchName hshort, ?_, ?_⟩ <;>
  · simp only [scratchName, String.toList_append, hprocess, hserial, List.mem_append, not_or]
    refine ⟨⟨⟨⟨⟨⟨by decide, by assumption⟩, by decide⟩, hdigits (by decide)⟩, by decide⟩, hdigits (by decide)⟩,
      by decide⟩

/-! ## Places -/

namespace Disk

/-- The place has a name that a scratch file of this process can have. -/
def IsScratch (d : Disk) (q : Place) : Prop := IsScratchName d.process (q.getLastD "")

/-- No place has the name of a scratch file of this process. -/
def ScratchFree (d : Disk) : Prop := ∀ q, d.IsScratch q → d.node? q = none

variable {d : Disk} {p q : Place}

theorem IsScratch.ne_nil (h : d.IsScratch q) : q ≠ [] := by
  rintro rfl
  exact IsScratchName.ne_empty h rfl

theorem isScratch_congr {e : Disk} (h : e.process = d.process) : e.IsScratch q ↔ d.IsScratch q := by
  rw [IsScratch, IsScratch, h]

/-- It is enough to look at how the names on a disk end. -/
theorem scratchFree_of_names (h : ∀ x ∈ d.nodes, ¬ ".tmp".toList <:+ (x.1.getLastD "").toList) : d.ScratchFree := by
  intro q hq
  by_contra hsome
  obtain ⟨n, hn⟩ := Option.ne_none_iff_exists'.mp hsome
  exact h _ (mem_nodes_of_node? hq.ne_nil hn) (IsScratchName.ends hq)

theorem isScratch_scratchAt (d : Disk) (p : Place) (serial : UInt64) : d.IsScratch (d.scratchAt p serial) := by
  rw [IsScratch, scratchAt, List.getLastD_concat]
  exact ⟨serial, _, rfl⟩

/-- A scratch file never has the place of the file that it is for. -/
theorem scratchAt_ne (d : Disk) (p : Place) (serial : UInt64) : d.scratchAt p serial ≠ p := by
  intro h
  have hlast := congrArg (fun q : Place => q.getLastD "") h
  simp only [scratchAt, List.getLastD_concat] at hlast
  exact scratchName_ne _ _ _ hlast

theorem scratchAt_congr {e : Disk} (h : e.process = d.process) (p : Place) (serial : UInt64) :
    e.scratchAt p serial = d.scratchAt p serial := by
  rw [scratchAt, scratchAt, h]

theorem scratchAt_ne_nil (d : Disk) (p : Place) (serial : UInt64) : d.scratchAt p serial ≠ [] := by
  simp [scratchAt]

theorem dropLast_scratchAt (d : Disk) (p : Place) (serial : UInt64) : (d.scratchAt p serial).dropLast = p.dropLast :=
  List.dropLast_concat

theorem isTooLong_scratchAt (path : String) (d : Disk) (p : Place) (serial : UInt64) :
    let digits := (toString d.process).utf8ByteSize + (toString serial).utf8ByteSize
    isTooLong path p (d.scratchAt p serial) =
      (decide (maxName < (p.getLastD "").utf8ByteSize + digits + 7) ||
        decide (maxPath < path.utf8ByteSize + digits + 7)) := by
  simp only [isTooLong, scratchAt, List.getLastD_concat, size_scratchName]
  congr 2
  · rw [← Nat.add_assoc]
  · exact propext (by omega)

/-- Whether the names of scratch files for a path are too long does not depend on how many digits the number of a
write has. -/
def ScratchRoom (d : Disk) (path : String) : Prop := ∀ p, d.placeFor path = .ok p → ∀ serial,
  isTooLong path p (d.scratchAt p serial) = isTooLong path p (d.scratchAt p 0)

/-- There is room if the name of the file is short, and so is the path. -/
theorem scratchRoom_of_short {path : String} (hprocess : (toString d.process).utf8ByteSize ≤ 20)
    (hpath : path.utf8ByteSize ≤ 4000) (hname : ∀ p, d.placeFor path = .ok p → (p.getLastD "").utf8ByteSize ≤ 200) :
    d.ScratchRoom path := by
  have hshort : ∀ p, d.placeFor path = .ok p → ∀ serial, isTooLong path p (d.scratchAt p serial) = false := by
    intro p hplace serial
    have hserial := size_serial_le serial
    have hname := hname p hplace
    rw [isTooLong_scratchAt, Bool.or_eq_false_iff, decide_eq_false_iff_not, decide_eq_false_iff_not, maxName, maxPath]
    omega
  intro p hplace serial
  rw [hshort p hplace, hshort p hplace]

/-- Where no link is, the place itself is opened. -/
theorem behind_eq (hdir : d.IsDirectory p.dropLast) (hname : IsName (p.getLastD "")) (hp : p ≠ [])
    (hlink : ∀ t, ¬ d.IsLink p t) : d.behind p = .ok p := by
  have hsplit : p.dropLast ++ [p.getLastD ""] = p := by
    rw [List.getLastD_eq_getLast?, List.getLast?_eq_some_getLast hp]
    exact List.dropLast_append_getLast hp
  have hfollows : Follows d true maxLinks p.dropLast [p.getLastD ""] (p.dropLast ++ [p.getLastD ""]) :=
    .down hdir hname (by rwa [hsplit]) .stop
  rw [hsplit] at hfollows
  refine hfollows.follow (fun q t ht => le_longest (m := 0) (mem_of_isLink ht)) ?_
  rw [List.length_singleton, steps]
  generalize d.nodes.foldl _ 0 = longest
  omega

theorem placeFor_eq_ok {path : String} (h : d.placeFor path = .ok p) :
    d.locate false path = .ok p ∧ d.IsDirectory p.dropLast := by
  unfold placeFor at h
  cases hp : d.locate false path with
  | error f => rw [hp] at h; exact absurd h (by simp [bind, Except.bind])
  | ok q =>
    rw [hp] at h
    simp only [bind, Except.bind] at h
    split at h
    · rename_i mode hmode
      obtain rfl := Except.ok.inj h
      exact ⟨rfl, mode, hmode⟩
    · exact absurd h (by simp)

end Disk

end LogHygiene
