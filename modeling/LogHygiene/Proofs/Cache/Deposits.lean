import LogHygiene.Proofs.Cache.Records
import LogHygiene.Proofs.Cache.Stock
import LogHygiene.Proofs.Cache.Uses
import LogHygiene.Proofs.Carrying
import Mathlib.Data.Set.Basic

/-!
# What can be found is what was put in

Many may use the files of one store at once, each with an index and a memory of its own, and each may stop
at any request. Then copies disagree, files come and go, and an index lists what is no longer there. What
stays true is said of single files:

> **a file of an entry holds nothing but an entry that someone set out to put in** (`Sound`).

`Safe` says of a procedure that it keeps this up and takes nothing else for granted: between any two of its
requests the files may change in any way that keeps them sound. Each operation of a store is safe
(`safe_perform`), and what it answers from files and memory was put in (`Found`).
-/

set_option autoImplicit false

namespace LogHygiene.Cache

open Disk

/-- What was put in so far: results by their keys. -/
abbrev Deposits := Set (String × Analysis)

/-! ## Sound files -/

/-- Every row of an index names a file of an entry. -/
def NamesBlobs (i : Index) : Prop := ∀ x ∈ i.rows, ∃ key, IsKey key ∧ x.2.blob = blobName key

/-- If bytes are an entry, it was put in. -/
def OnlyDeposits (put : Deposits) (body : Bytes) : Prop :=
  ∀ e, Entry.ofBytes? body = some e → (e.key, e.payload) ∈ put

/-- If bytes are an index, its rows name files of entries. -/
def OnlyBlobNames (body : Bytes) : Prop := ∀ i, Index.ofBytes? body = some i → NamesBlobs i

/-- What may be in a file of a store. -/
inductive MayHold (put : Deposits) : Place → Bytes → Prop
  | index {body : Bytes} (h : OnlyBlobNames body) : MayHold put ["index.json"] body
  | blob {name : String} {body : Bytes} (h : OnlyDeposits put body) : MayHold put ["blobs", name] body
  /-- what a process left is nothing that anyone looks for -/
  | leftover {q : Place} {name : String} {body : Bytes} (hleft : IsLeftover name)
      (hq : q = [name] ∨ q = ["blobs", name]) : MayHold put q body

/-- The files of a store hold what was put in. -/
structure Sound (put : Deposits) (dir : String) (p : Place) (d : Disk) : Prop where
  stocked : Stocked d dir p
  files : ∀ q file body, q ≠ [] → d.node? (p ++ q) = some file → IsFile body file → MayHold put q body

theorem MayHold.of_index {put : Deposits} {body : Bytes} (h : MayHold put ["index.json"] body) :
    OnlyBlobNames body := by
  generalize hq : ["index.json"] = q at h
  cases h with
  | index h => exact h
  | blob => exact absurd hq (by simp)
  | leftover hleft hq' =>
    rcases hq' with rfl | rfl
    · obtain rfl := (List.cons.inj hq).1
      exact absurd hleft.starts (by decide)
    · exact absurd hq (by simp)

theorem MayHold.of_blob {put : Deposits} {key : String} (hkey : IsKey key) {body : Bytes}
    (h : MayHold put ["blobs", blobName key] body) : OnlyDeposits put body := by
  generalize hq : ["blobs", blobName key] = q at h
  cases h with
  | index => exact absurd hq (by simp)
  | blob h => exact h
  | leftover hleft hq' =>
    rcases hq' with rfl | rfl
    · exact absurd hq (by simp)
    · obtain rfl : blobName key = _ := by simpa using hq
      exact absurd hleft hkey.not_isLeftover

theorem MayHold.mono {put put' : Deposits} {q : Place} {body : Bytes} (h : MayHold put q body)
    (hput : put ⊆ put') : MayHold put' q body := by
  cases h with
  | index h => exact .index h
  | blob h => exact .blob fun e he => hput (h e he)
  | leftover hleft hq => exact .leftover hleft hq

theorem Sound.mono {put put' : Deposits} {dir : String} {p : Place} {d : Disk} (h : Sound put dir p d)
    (hput : put ⊆ put') : Sound put' dir p d :=
  ⟨h.stocked, fun q file body hq hnode hbody => (h.files q file body hq hnode hbody).mono hput⟩

namespace Sound

variable {put : Deposits} {dir path : String} {p q : Place} {d d' : Disk} {n : Option DiskNode} {body : Bytes}

/-- The directory of a store at the start. -/
theorem of_empty (hleads : Leads d dir p) (hempty : ∀ q, q ≠ [] → d.node? (p ++ q) = none) :
    Sound put dir p d where
  stocked := ⟨hleads, fun q n hq hn => by
    rw [hempty q hq] at hn
    exact absurd hn (by simp)⟩
  files q file body hq hnode := by
    rw [hempty q hq] at hnode
    exact absurd hnode (by simp)

/-- A file of the store that goes, or that holds what it may, leaves the files sound. -/
theorem swapped (h : Sound put dir p d) (hfile : StoreFile dir path q) (hswapped : Swapped d (p ++ q) n d')
    (hn : ∀ file, n = some file → ∃ body, IsFile body file ∧ MayHold put q body) : Sound put dir p d' := by
  refine ⟨(hfile.swapped h.stocked hswapped fun file hsome => ?_).2, fun r file body hr hnode hbody => ?_⟩
  · obtain ⟨body, hbody, -⟩ := hn file hsome
    exact ⟨body, hbody⟩
  · by_cases hrq : r = q
    · subst hrq
      obtain ⟨body', hbody', hmay⟩ := hn file (by rw [← hnode, hswapped.there])
      obtain ⟨mode, modified, rfl⟩ := hbody
      obtain ⟨mode', modified', heq⟩ := hbody'
      obtain ⟨rfl, -, -⟩ := DiskNode.file.inj heq
      exact hmay
    · rw [hswapped.others (p ++ r) fun heq => hrq (List.append_cancel_left heq)] at hnode
      exact h.files r file body hr hnode hbody

theorem read (h : Sound put dir p d) (hfile : StoreFile dir path q) (hread : d.read path = .ok body) :
    MayHold put q body := by
  obtain ⟨mode, modified, hnode⟩ := (hfile.located h.stocked true).of_read hread
  exact h.files q _ _ hfile.ne_nil hnode ⟨mode, modified, rfl⟩

theorem replace (h : Sound put dir p d) (hfile : StoreFile dir path q) {m : Mishaps} (hmay : MayHold put q body) :
    Sound put dir p (d.replace m path body).2 := by
  have hreplaced := hfile.replaced h.stocked m body
  refine ⟨hfile.stocked_of_replaced h.stocked hreplaced, fun r file body' hr hnode hbody' => ?_⟩
  rcases hfile.node?_of_replaced h.stocked hreplaced hnode with hsame | ⟨rfl, hbody⟩ | ⟨name, part, hleft, hplace, -⟩
  · exact h.files r file body' hr hsame hbody'
  · obtain ⟨mode, modified, rfl⟩ := hbody
    obtain ⟨mode', modified', heq⟩ := hbody'
    obtain ⟨rfl, -, -⟩ := DiskNode.file.inj heq
    exact hmay
  · exact .leftover hleft hplace

theorem remove (h : Sound put dir p d) (hfile : StoreFile dir path q) (hremove : d.remove path = .ok d') :
    Sound put dir p d' := by
  have hswapped := (hfile.located h.stocked false).remove (by simp [hfile.ne_nil]) (hfile.below h.stocked)
    hremove
  exact h.swapped hfile hswapped (by simp)

theorem makeDirectory (h : Sound put dir p d) (hmake : d.makeDirectory (blobDirectory dir) = .ok d') :
    Sound put dir p d' := by
  rcases h.stocked.makeDirectory with ⟨-, herror⟩ | ⟨d'', hmade, mode, hswapped, -⟩
  · rw [hmake] at herror
    exact absurd herror (by simp)
  · obtain rfl := Except.ok.inj (hmake.symm.trans hmade)
    refine ⟨h.stocked.swapped (by simp) hswapped (fun m hm => ?_) (by simp), fun r file body hr hnode hbody => ?_⟩
    · obtain rfl := Option.some.inj hm
      exact .blobs mode
    · by_cases hrq : r = ["blobs"]
      · subst hrq
        obtain ⟨mode', modified, rfl⟩ := hbody
        rw [hswapped.there] at hnode
        exact absurd hnode (by simp)
      · rw [hswapped.others (p ++ r) fun heq => hrq (List.append_cancel_left heq)] at hnode
        exact h.files r file body hr hnode hbody

end Sound

/-! ## Requests of a store -/

/-- What a store in a directory asks for. -/
inductive Allowed (put : Deposits) (dir : String) : Request → Prop
  | now : Allowed put dir .now
  | makeDirectory : Allowed put dir (.makeDirectory (blobDirectory dir))
  | list : Allowed put dir (.list (blobDirectory dir))
  | isThere (path : String) : Allowed put dir (.isThere path)
  | read {path : String} {q : Place} (hfile : StoreFile dir path q) : Allowed put dir (.read path)
  | remove {path : String} {q : Place} (hfile : StoreFile dir path q) : Allowed put dir (.remove path)
  | replace {path : String} {q : Place} {body : Bytes} (hfile : StoreFile dir path q)
      (hmay : MayHold put q body) : Allowed put dir (.replace path body)

/-- What can be said of an answer when the files are sound. -/
def Answered (put : Deposits) (dir : String) : (q : Request) → q.Answer → Prop
  | .read path, answer => ∀ q body, StoreFile dir path q → answer = .ok body → MayHold put q body
  | .list path, answer =>
    path = blobDirectory dir → ∀ name ∈ answer, StoreFile dir (Path.join (blobDirectory dir) name) ["blobs", name]
  | _, _ => True

/-- **A request of a store leaves sound files sound**, however things go outside. -/
theorem Sound.answer {put : Deposits} {dir : String} {p : Place} {w : World} {q : Request} {c : Conditions}
    (h : Sound put dir p w.disk) (hallowed : Allowed put dir q) :
    Sound put dir p (World.answerUnder c q w).2.disk ∧ Answered put dir q (World.answerUnder c q w).1 := by
  have hkeep : ∀ result : Except FileFault Disk, (∀ d, result = .ok d → Sound put dir p d) →
      Sound put dir p (w.keep result).2.disk := by
    intro result hresult
    cases result with
    | ok d => exact hresult d rfl
    | error f => exact h
  cases hallowed with
  | now => exact ⟨h, trivial⟩
  | makeDirectory => exact ⟨hkeep _ fun d hd => h.makeDirectory hd, trivial⟩
  | list => exact ⟨h, fun _ => h.stocked.list⟩
  | isThere => exact ⟨h, trivial⟩
  | read hfile =>
    refine ⟨h, fun q body hfile' hbody => ?_⟩
    rw [World.answerUnder_read] at hbody
    cases hunreadable : c.unreadable _ with
    | some f => rw [hunreadable] at hbody; exact absurd hbody (by simp)
    | none =>
      rw [hunreadable] at hbody
      exact h.read hfile' hbody
  | remove hfile => exact ⟨hkeep _ fun d hd => h.remove hfile hd, trivial⟩
  | replace hfile hmay => exact ⟨h.replace hfile hmay, trivial⟩

/-! ## Safe procedures -/

/-- A procedure that only makes requests of a store, whatever is put in and whatever happens to the files in
between, as long as they stay sound. What it ends in satisfies `post`. -/
def Safe (dir : String) {α : Type} (post : Deposits → α → Prop) : Procedure α → Deposits → Prop
  | .done a, put => post put a
  | .ask q next, put => Allowed put dir q ∧ ∀ put', put ⊆ put' → ∀ answer, Answered put' dir q answer →
      Safe dir post (next answer) put'

namespace Safe

variable {dir : String} {α β : Type} {put put' : Deposits} {post : Deposits → α → Prop}
  {post' : Deposits → β → Prop}

theorem mono (hpost : ∀ {put put' a}, put ⊆ put' → post put a → post put' a) :
    ∀ {x : Procedure α} {put put' : Deposits}, Safe dir post x put → put ⊆ put' → Safe dir post x put'
  | .done _, _, _, h, hput => hpost hput h
  | .ask q next, put, put', h, hput => by
    refine ⟨?_, fun put'' hput'' answer hanswer => h.2 put'' (hput.trans hput'') answer hanswer⟩
    cases h.1 with
    | now => exact .now
    | makeDirectory => exact .makeDirectory
    | list => exact .list
    | isThere path => exact .isThere path
    | read hfile => exact .read hfile
    | remove hfile => exact .remove hfile
    | replace hfile hmay => exact .replace hfile (hmay.mono hput)

theorem bind {f : α → Procedure β} : ∀ {x : Procedure α} {put : Deposits}, Safe dir post x put →
    (∀ put', put ⊆ put' → ∀ a, post put' a → Safe dir post' (f a) put') → Safe dir post' (x >>= f) put
  | .done a, put, h, hf => hf put subset_rfl a h
  | .ask q next, put, h, hf => by
    refine ⟨h.1, fun put' hput answer hanswer => ?_⟩
    exact bind (h.2 put' hput answer hanswer) fun put'' hput' a ha => hf put'' (hput.trans hput') a ha

theorem weaken {weaker : Deposits → α → Prop} : ∀ {x : Procedure α} {put : Deposits}, Safe dir post x put →
    (∀ {put a}, post put a → weaker put a) → Safe dir weaker x put
  | .done _, _, h, hpost => hpost h
  | .ask _ _, _, h, hpost =>
    ⟨h.1, fun put' hput answer hanswer => weaken (h.2 put' hput answer hanswer) hpost⟩

theorem ask {q : Request} {f : q.Answer → Procedure β} (hallowed : Allowed put dir q)
    (hf : ∀ put', put ⊆ put' → ∀ answer, Answered put' dir q answer → Safe dir post' (f answer) put') :
    Safe dir post' (Procedure.request q >>= f) put := ⟨hallowed, hf⟩

theorem each {f : α → Procedure β} : ∀ {xs : List α} {put : Deposits},
    (∀ x ∈ xs, ∀ put, Safe dir (fun _ _ => True) (f x) put) →
    Safe dir (fun _ (_ : List β) => True) (Procedure.each f xs) put
  | [], _, _ => trivial
  | x :: xs, put, hf => by
    have hrest : ∀ put, Safe dir (fun _ (_ : List β) => True) (Procedure.each f xs) put :=
      fun put => each fun y hy => hf y (by simp [hy])
    exact bind (hf x (by simp) put) fun put' _ _ _ => bind (hrest put') fun _ _ _ _ => trivial

end Safe

/-! ## The operations -/

/-- A store whose index names files of entries and whose memory holds what was put in. -/
structure Honest (put : Deposits) (dir : String) (c : Cache) : Prop where
  directory : c.directory = dir
  rows : NamesBlobs c.index
  memory : ∀ k e, c.memory.lookup k = some e → e.key = k ∧ (k, e.payload) ∈ put

namespace Honest

variable {put put' : Deposits} {dir key : String} {c : Cache}

theorem mono (h : Honest put dir c) (hput : put ⊆ put') : Honest put' dir c :=
  ⟨h.directory, h.rows, fun k e hk => ⟨(h.memory k e hk).1, hput (h.memory k e hk).2⟩⟩

/-- A store with some of the rows. -/
theorem of_rows {i : Index} (h : Honest put dir c) (hrows : ∀ x ∈ i.rows, x ∈ c.index.rows) :
    Honest put dir { c with index := i } :=
  ⟨h.directory, fun x hx => h.rows x (hrows x hx), h.memory⟩

theorem forget (h : Honest put dir c) (key : String) : Honest put dir (c.forget key) := by
  refine ⟨h.directory, h.rows, fun k e hk => ?_⟩
  rw [Cache.forget, lookup_filter_ne] at hk
  split at hk
  · exact absurd hk (by simp)
  · exact h.memory k e hk

theorem remember (h : Honest put dir c) {e : Entry} (hkey : e.key = key) (hput : (key, e.payload) ∈ put) :
    Honest put dir (c.remember key e) := by
  refine ⟨h.directory, h.rows, fun k e' hk => ?_⟩
  rw [Cache.remember, lookup_replace] at hk
  split at hk
  · rename_i heq
    obtain rfl := Option.some.inj hk
    exact heq ▸ ⟨hkey, hput⟩
  · exact h.memory k e' hk

theorem writeIndex (h : Honest put dir c) : Safe dir (fun _ _ => True) c.writeIndex put := by
  obtain rfl := h.directory
  refine Safe.ask (.replace .index (.index fun i hi x hx => ?_)) fun _ _ _ _ => trivial
  exact h.rows x (c.index.ofBytes?_toBytes.2 i hi x hx)

theorem removeBlob (h : Honest put dir c) (hkey : IsKey key) (put' : Deposits) :
    Safe dir (fun _ _ => True) (c.removeBlob (blobName key)) put' := by
  obtain rfl := h.directory
  exact Safe.ask (.remove (.blob hkey)) fun _ _ _ _ => trivial

theorem evict (h : Honest put dir c) (key : String) :
    Safe dir (fun put c => Honest put dir c) (c.evict key) put := by
  have hforget := h.forget key
  rw [Cache.evict]
  generalize c.forget key = c' at hforget
  cases hrow : c'.index.get? key with
  | none =>
    exact hforget
  | some row =>
    simp only
    obtain ⟨k, hk, hblob⟩ := hforget.rows _ (Index.mem_of_get? hrow)
    rw [hblob]
    refine Safe.bind (hforget.removeBlob hk put) fun put₁ hput₁ _ _ => ?_
    have herased : Honest put₁ dir { c' with index := c'.index.erase key } :=
      (hforget.mono hput₁).of_rows fun x hx => List.mem_of_mem_filter hx
    exact Safe.bind herased.writeIndex fun put₂ hput₂ _ _ => herased.mono hput₂

theorem purge (h : Honest put dir c) : Safe dir (fun put c => Honest put dir c) c.purge put := by
  rw [Cache.purge]
  refine Safe.ask .now fun put₁ hput₁ now _ => ?_
  simp only
  split
  · exact h.mono hput₁
  · have hold : ∀ x ∈ c.index.rows.filter (fun x => c.isExpired now x.2.timestamp), ∀ put,
        Safe dir (fun _ _ => True) (c.removeBlob x.2.blob) put := by
      intro x hx put
      obtain ⟨k, hk, hblob⟩ := h.rows x (List.mem_of_mem_filter hx)
      rw [hblob]
      exact h.removeBlob hk put
    refine Safe.bind (Safe.each hold) fun put₂ hput₂ _ _ => ?_
    have hkept : Honest put₂ dir { c with index := ⟨c.index.rows.filter fun x =>
        !c.isExpired now x.2.timestamp⟩ } :=
      (h.mono (hput₁.trans hput₂)).of_rows fun x hx => List.mem_of_mem_filter hx
    exact Safe.bind hkept.writeIndex fun put₃ hput₃ _ _ => hkept.mono hput₃

end Honest

/-- An index that is read names files of entries. -/
theorem safe_readIndex (dir : String) (put : Deposits) :
    Safe dir (fun _ i => NamesBlobs i) (Cache.readIndex dir) put := by
  rw [Cache.readIndex]
  refine Safe.ask (.read .index) fun put₁ _ answer hanswer => ?_
  have hnone : NamesBlobs {} := fun x hx => absurd hx (by simp)
  cases answer with
  | error f => exact hnone
  | ok bytes =>
    have honly := (hanswer _ bytes .index rfl).of_index
    change NamesBlobs ((Index.ofBytes? bytes).getD {})
    cases hread : Index.ofBytes? bytes with
    | none => exact hnone
    | some i => exact honly i hread

/-- The file of an index is removed if it is there. -/
theorem safe_removeIndex (dir : String) (put : Deposits) :
    Safe dir (fun _ _ => True) (Cache.removeIndex dir) put := by
  rw [Cache.removeIndex]
  refine Safe.ask (.isThere (indexPath dir)) fun put₁ _ there _ => ?_
  cases there with
  | false => exact trivial
  | true => exact Safe.ask (.remove .index) fun _ _ _ _ => trivial

theorem safe_openAt (dir : String) (ttlHours : Nat) (put : Deposits) :
    Safe dir (fun put c => Honest put dir c) (Cache.openAt dir ttlHours) put := by
  rw [Cache.openAt]
  refine Safe.ask .makeDirectory fun put₁ _ _ _ => ?_
  refine Safe.bind (safe_readIndex dir put₁) fun put₂ _ i hi => ?_
  exact Honest.purge (c := ⟨dir, lifetimeOf ttlHours, i, []⟩) ⟨rfl, hi, fun k e hk => absurd hk (by simp)⟩

namespace Honest

variable {put put' : Deposits} {dir key : String} {c : Cache}

/-- What is found under a key was put in under it. -/
theorem fetch (h : Honest put dir c) (key : String) :
    Safe dir (fun put found => Honest put dir found.2 ∧
      ∀ e, found.1 = some e → e.key = key ∧ (key, e.payload) ∈ put) (c.fetch key) put := by
  have hdrop : ∀ put', put ⊆ put' → Safe dir (fun put found => Honest put dir found.2 ∧
      ∀ e, found.1 = some e → e.key = key ∧ (key, e.payload) ∈ put)
      (c.evict key >>= fun c => pure ((none : Option Entry), c)) put' := fun put' hput =>
    Safe.bind ((h.mono hput).evict key) fun _ _ c hc => ⟨hc, fun e he => absurd he (by simp)⟩
  rw [Cache.fetch]
  refine Safe.ask .now fun put₁ hput₁ now _ => ?_
  cases hlook : c.lookUp? now key with
  | some e =>
    refine ⟨h.mono hput₁, fun e' he' => ?_⟩
    obtain rfl := Option.some.inj he'
    obtain ⟨hkey, hmem⟩ := h.memory key e (Option.eq_some_of_filter_eq_some hlook)
    exact ⟨hkey, hput₁ hmem⟩
  | none =>
    simp only
    cases hrow : c.index.get? key with
    | none => exact ⟨h.mono hput₁, fun e he => absurd he (by simp)⟩
    | some row =>
      simp only
      split
      · exact hdrop put₁ hput₁
      · obtain ⟨k, hk, hblob⟩ := h.rows _ (Index.mem_of_get? hrow)
        have hfile : StoreFile dir (c.blobPath row.blob) ["blobs", blobName k] := by
          rw [blobPath, h.directory, hblob]
          exact .blob hk
        refine Safe.ask (.read hfile) fun put₂ hput₂ answer hanswer => ?_
        cases answer with
        | error f => exact hdrop put₂ (hput₁.trans hput₂)
        | ok bytes =>
          have honly := (hanswer _ bytes hfile rfl).of_blob hk
          simp only
          cases hentry : (Entry.ofBytes? bytes).filter (·.key == key) with
          | none => exact hdrop put₂ (hput₁.trans hput₂)
          | some e =>
            obtain ⟨hread, hkey⟩ := Option.filter_eq_some_iff.mp hentry
            have hkey : e.key = key := by simpa using hkey
            have hmem : (key, e.payload) ∈ put₂ := hkey ▸ honly e hread
            refine ⟨(h.mono (hput₁.trans hput₂)).remember hkey hmem, fun e' he' => ?_⟩
            obtain rfl := Option.some.inj he'
            exact ⟨hkey, hmem⟩

theorem set (h : Honest put dir c) (path : String) (modified : Instant) (fingerprint : String) {a : Analysis}
    (hput : (Cache.key path modified fingerprint, a) ∈ put) :
    Safe dir (fun put c => Honest put dir c) (c.set path modified fingerprint a) put := by
  have hkey := isKey_key path modified fingerprint
  rw [Cache.set]
  generalize Cache.key path modified fingerprint = key at hkey hput
  refine Safe.ask .now fun put₁ hput₁ now _ => ?_
  have hfile : StoreFile dir (c.blobPath (blobName key)) ["blobs", blobName key] := by
    rw [blobPath, h.directory]
    exact .blob hkey
  have hmay : MayHold put₁ ["blobs", blobName key] (Entry.toBytes ⟨key, path, now, a⟩) := by
    refine .blob fun e he => ?_
    obtain rfl := (Entry.mk key path now a).ofBytes?_toBytes.2 e he
    exact hput₁ hput
  refine Safe.ask (.replace hfile hmay) fun put₂ hput₂ answer _ => ?_
  have hput₂' := hput₁.trans hput₂
  cases answer with
  | some f => exact h.mono hput₂'
  | none =>
    have hlisted : Honest put₂ dir { c with index := c.index.insert key ⟨blobName key, path, now⟩ } := by
      refine ⟨h.directory, fun x hx => ?_, (h.mono hput₂').memory⟩
      rcases Index.mem_insertRow hx with rfl | hx
      · exact ⟨key, hkey, rfl⟩
      · exact h.rows x hx
    exact Safe.bind hlisted.writeIndex fun put₃ hput₃ _ _ =>
      (hlisted.mono hput₃).remember rfl (hput₃ (hput₂' hput))

theorem clear (h : Honest put dir c) : Safe dir (fun put c => Honest put dir c) c.clear put := by
  obtain rfl := h.directory
  rw [Cache.clear]
  refine Safe.ask .list fun put₁ _ names hnames => ?_
  have hall : ∀ name ∈ names, ∀ put, Safe c.directory (fun _ _ => True) (c.removeBlob name) put := fun name hname _ =>
    Safe.ask (.remove (hnames rfl name hname)) fun _ _ _ _ => trivial
  refine Safe.bind (Safe.each hall) fun put₂ _ _ _ => ?_
  refine Safe.bind (safe_removeIndex c.directory put₂) fun put₃ _ _ _ => ?_
  exact ⟨rfl, fun x hx => absurd hx (by simp), fun k e hk => absurd hk (by simp)⟩

end Honest

/-- What is put in by a use. -/
def Use.deposit? : Use → Option (Ticket × Analysis)
  | .set path modified fingerprint a => some (.of path modified fingerprint, a)
  | _ => none

/-- The ticket that a use asks for. -/
def Use.asked? : Use → Option Ticket
  | .get path modified fingerprint => some (.of path modified fingerprint)
  | _ => none

/-- A use that asks for a ticket is answered with nothing, or with what was put in under its key. -/
def Found (put : Deposits) (u : Use) (reply : Reply) : Prop :=
  ∀ t, u.asked? = some t → ∃ found, reply = .found found ∧
    ∀ e, found = some e → e.key = t.key ∧ (t.key, e.payload) ∈ put

theorem Found.mono {put put' : Deposits} {u : Use} {reply : Reply} (h : Found put u reply)
    (hput : put ⊆ put') : Found put' u reply := by
  intro t ht
  obtain ⟨found, hreply, hfound⟩ := h t ht
  exact ⟨found, hreply, fun e he => ⟨(hfound e he).1, hput (hfound e he).2⟩⟩

/-- **Every use of an honest store is safe**, and it is answered with what was put in. -/
theorem Honest.perform {put : Deposits} {dir : String} {c : Cache} (h : Honest put dir c) (u : Use)
    (hput : ∀ t a, u.deposit? = some (t, a) → (t.key, a) ∈ put) :
    Safe dir (fun put left => Honest put dir left.2 ∧ Found put u left.1) (u.perform c) put := by
  cases u with
  | set path modified fingerprint a =>
    have hdeposit := hput _ a rfl
    rw [Ticket.key_of] at hdeposit
    exact Safe.bind (h.set path modified fingerprint hdeposit) fun _ _ c hc =>
      ⟨hc, fun t ht => absurd ht (by simp [Use.asked?])⟩
  | get path modified fingerprint =>
    refine Safe.bind (h.fetch (Cache.key path modified fingerprint)) fun _ _ found hfound =>
      ⟨hfound.1, fun t ht => ⟨_, rfl, fun e he => ?_⟩⟩
    obtain rfl := Option.some.inj ht
    rw [Ticket.key_of]
    exact hfound.2 e he
  | clear => exact Safe.bind h.clear fun _ _ c hc => ⟨hc, fun t ht => absurd ht (by simp [Use.asked?])⟩
  | size => exact ⟨h, fun t ht => absurd ht (by simp [Use.asked?])⟩
  | reopen ttlHours =>
    rw [Use.perform, h.directory]
    exact Safe.bind (safe_openAt dir ttlHours put) fun _ _ c hc =>
      ⟨hc, fun t ht => absurd ht (by simp [Use.asked?])⟩

end LogHygiene.Cache
