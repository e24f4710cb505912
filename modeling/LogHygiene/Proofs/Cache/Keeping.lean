import LogHygiene.Proofs.Cache.Mooring
import LogHygiene.Proofs.Enforcement.Listing
import LogHygiene.Proofs.Enforcement.Stopping

/-!
# Stores that are used by this library alone

A store is opened in the directory that some path leads to. That directory may be there or not, it may go and come
back, and a store that is open goes on even so. What can be relied on is only this (`Tended`):

> **wherever the path leads, below it is nothing but what a store keeps, and what was put in.**

It takes that no link has the name of a scratch file: the scratch file would be written through it, maybe into a store.

Requests of a store keep this up (`Tended.answer`), and so does whoever replaces a file that a grammar reads, since no
such file is in a store (`Tended.replace`). `Procedure.Tends` says of a procedure that it keeps it up at every step. So
it may be stopped at any of them (`Procedure.Tends.cut`), and the next one finds nothing but what was put in.
-/

set_option autoImplicit false

namespace LogHygiene

open Disk Cache

variable {put : Deposits} {dir path : String} {p q : Place} {d d' : Disk} {w : World} {c : Conditions} {m : Mishaps}

/-! ## Files of stores that are nowhere -/

namespace Cache

theorem StoreFile.not_located (hfile : StoreFile dir path q) (h : Adrift d dir) (whole : Bool) :
    ∃ f, d.locate whole path = .error f := by
  cases hfile with
  | index => exact h.not_located isFileName_index.no_slash whole
  | blob hkey => exact h.blobs.not_located hkey.isFileName.no_slash whole
  | leftover hleft => exact h.blobs.not_located hleft.plain.no_slash whole

theorem Adrift.list (h : Adrift d dir) : d.list (blobDirectory dir) = [] := by
  rw [Disk.list, visit]
  cases hlocate : d.locate true (blobDirectory dir) with
  | error f => rfl
  | ok q =>
    obtain ⟨hpath, hfollows⟩ := locate_eq_ok.mp hlocate
    simp only [bind, Except.bind]
    cases hnode : d.node? q with
    | none => rfl
    | some n =>
      cases n with
      | directory mode => exact absurd ⟨hpath.no_zero, hfollows, mode, hnode⟩ (h.blobs q)
      | file | link => rfl

/-- **What a store that is nowhere asks for fails**, and no more is done than counting a write. -/
theorem Adrift.answer {q : Request} (h : Adrift w.disk dir) (hallowed : Allowed put dir q)
    (hmake : ∀ path, q ≠ .makeDirectory path) :
    ((World.answerUnder c q w).2.disk = w.disk ∨ (World.answerUnder c q w).2.disk = w.disk.count) ∧
      Answered put dir q (World.answerUnder c q w).1 := by
  cases hallowed with
  | now => exact ⟨.inl rfl, trivial⟩
  | isThere => exact ⟨.inl rfl, trivial⟩
  | makeDirectory => exact absurd rfl (hmake _)
  | list =>
    refine ⟨.inl rfl, fun _ name hname => ?_⟩
    rw [World.answerUnder, h.list] at hname
    exact absurd hname (by simp)
  | @read path _ hfile =>
    refine ⟨.inl rfl, fun q body _ hbody => ?_⟩
    obtain ⟨f, hf⟩ := hfile.not_located h true
    have hread : w.disk.read path = .error f := by
      rw [Disk.read, visit, hf]
      rfl
    rw [World.answerUnder_read, hread] at hbody
    cases hunreadable : c.unreadable path <;> rw [hunreadable] at hbody <;> exact absurd hbody (by simp)
  | @remove path _ hfile =>
    obtain ⟨f, hf⟩ := hfile.not_located h false
    refine ⟨.inl ?_, trivial⟩
    rw [World.answerUnder, Disk.remove, hf]
    rfl
  | @replace path _ _ hfile _ =>
    obtain ⟨f, hf⟩ := hfile.not_located h false
    refine ⟨.inr ?_, trivial⟩
    rw [World.answerUnder_replace, Disk.replace, placeFor, hf]
    rfl

end Cache

/-! ## Directories that nobody else uses -/

/-- Wherever the path of a store leads, there is what a store keeps, and what was put in. No link has the name of a
scratch file. -/
structure Cache.Tended (put : Deposits) (dir : String) (d : Disk) : Prop where
  contents : ∀ p, Leads d dir p → Contents put p d
  links : ∀ q, d.IsScratch q → ∀ t, ¬ d.IsLink q t

/-- The directory of a store was there, or nothing is in it when it is made. -/
def Cache.MadeAnew (d : Disk) (dir : String) : Prop :=
  ∀ p, Leads (withDirectory d dir) dir p → Leads d dir p ∨ Contents ∅ p (withDirectory d dir)

namespace Cache.Tended

theorem mono {put' : Deposits} (h : Tended put dir d) (hput : put ⊆ put') : Tended put' dir d :=
  ⟨fun p hp => (h.contents p hp).mono hput, h.links⟩

theorem count (h : Tended put dir d) : Tended put dir d.count :=
  ⟨fun p hp => (h.contents p (hp.mono ⟨rfl, fun _ h => h, fun _ _ => .rfl⟩)).congr fun _ _ => rfl, h.links⟩

theorem of_sound (h : Tended put dir d) (hsound : Sound put dir p d') (hprocess : d'.process = d.process)
    (hways : Ways d d') : Tended put dir d' where
  contents _ hq := hq.unique hsound.stocked.leads ▸ hsound.contents
  links q hq t ht := h.links q ((isScratch_congr hprocess).mp hq) t ((hways.link q t).mp ht)

/-- **A request of a store leaves its directory tended**, whether it is there or not. -/
theorem answer {q : Request} (h : Tended put dir w.disk) (hallowed : Allowed put dir q)
    (hmake : ∀ path, q ≠ .makeDirectory path) :
    Tended put dir (World.answerUnder c q w).2.disk ∧ Answered put dir q (World.answerUnder c q w).1 := by
  by_cases hleads : ∃ p, Leads w.disk dir p
  · obtain ⟨p, hp⟩ := hleads
    have hsound := (h.contents p hp).sound hp
    obtain ⟨hstill, hanswered⟩ := hsound.answer (c := c) hallowed
    have hconfined := hsound.answer_confined (c := c) hallowed
    exact ⟨h.of_sound hstill hconfined.within.process hconfined.ways, hanswered⟩
  · have hadrift : Adrift w.disk dir := fun p hp => hleads ⟨p, hp⟩
    obtain ⟨hdisk, hanswered⟩ := hadrift.answer (c := c) hallowed hmake
    refine ⟨?_, hanswered⟩
    rcases hdisk with hsame | hcount
    · exact hsame ▸ h
    · exact hcount ▸ h.count

/-- So does making the directory, if it is not one that somebody else had filled. -/
theorem withDirectory (h : Tended put dir d) (hanew : MadeAnew d dir) : Tended put dir (withDirectory d dir) where
  contents p hp := by
    rcases hanew p hp with hthere | hempty
    · exact reserved_of_contents hthere (h.contents p hthere) p hp
    · exact hempty.mono (Set.empty_subset put)
  links q hq t ht := by
    have hfurnished := withDirectory_furnished d dir
    exact h.links q ((isScratch_congr hfurnished.process).mp hq) t ((hfurnished.ways.link q t).mp ht)

/-- **Whoever replaces a file that a grammar reads leaves it tended**: he gets in no store, and he makes no way that was
not there. -/
theorem replace {r : Place} (h : Tended put dir d) (hr : d.Denotes path r) (hgrammar : Grammar.ofPath? path ≠ none)
    (m : Mishaps) (body : Bytes) : Tended put dir (d.replace m path body).2 := by
  have hreplaced := replace_replaced m d path body fun s hs => h.links s hs.isScratch
  generalize (d.replace m path body).1 = fault at hreplaced
  generalize (d.replace m path body).2 = d' at hreplaced ⊢
  refine ⟨fun p hp => ?_, fun q hq t ht => h.links q (hreplaced.isScratch.mp hq) t (hreplaced.isLink ht)⟩
  have hled : Leads d dir p := hp.back hreplaced.here (fun _ => hreplaced.isDirectory.mp) fun _ _ => hreplaced.isLink
  have hcontents := h.contents p hled
  have hplace : ∀ q, d.placeFor path = .ok q → q ≠ [] ∧ isApart [p] q := fun q hq =>
    ⟨hr.place_ne_nil hq, isApart_of_grammar (fun p' hp' => List.mem_singleton.mp hp' ▸ hcontents) (placeFor_eq_ok hq).1
      (hr.node?_ne_none hq) (hr.not_isDirectory hq) hgrammar⟩
  exact hcontents.congr fun q hq => hreplaced.node?_of_not_isApart hplace
    (not_isApart_iff.mpr ⟨p, List.mem_singleton.mpr rfl, q, hq, rfl⟩)

end Cache.Tended

/-! ## Procedures that may be stopped -/

/-- Where a procedure that is stopped after so many requests leaves everything. -/
def Procedure.cut {α σ : Type} (answer : (q : Request) → σ → q.Answer × σ) : Nat → Procedure α → σ → σ
  | 0, _, s => s
  | _ + 1, .done _, s => s
  | n + 1, .ask q next, s => (next (answer q s).1).cut answer n (answer q s).2

/-- At every step of a procedure the directory of a store is tended, and what it ends in satisfies `post`. -/
def Procedure.Tends {α : Type} (c : Conditions) (put : Deposits) (dir : String) (post : α → World → Prop) :
    Procedure α → World × Nat → Prop
  | .done a, s => Tended put dir s.1.disk ∧ post a s.1
  | .ask q next, s => Tended put dir s.1.disk ∧
    (next (World.answerUntil c q s).1).Tends c put dir post (World.answerUntil c q s).2

namespace Procedure.Tends

variable {α β : Type} {post : α → World → Prop} {post' : β → World → Prop} {s : World × Nat}

theorem tended : ∀ {x : Procedure α} {s : World × Nat}, x.Tends c put dir post s → Tended put dir s.1.disk
  | .done _, _, h => h.1
  | .ask _ _, _, h => h.1

/-- **Such a procedure ends as it should.** -/
theorem run : ∀ {x : Procedure α} {s : World × Nat}, x.Tends c put dir post s →
    Tended put dir (x.run (World.answerUntil c) s).2.1.disk ∧
      post (x.run (World.answerUntil c) s).1 (x.run (World.answerUntil c) s).2.1
  | .done _, _, h => h
  | .ask _ _, _, h => h.2.run

/-- It may as well be stopped. -/
theorem cut : ∀ (k : Nat) {x : Procedure α} {s : World × Nat}, x.Tends c put dir post s →
    Tended put dir (x.cut (World.answerUntil c) k s).1.disk
  | 0, _, _, h => h.tended
  | _ + 1, .done _, _, h => h.1
  | k + 1, .ask _ _, _, h => h.2.cut k

theorem bind {f : α → Procedure β} : ∀ {x : Procedure α} {s : World × Nat}, x.Tends c put dir post s →
    (∀ a s', Tended put dir s'.1.disk → post a s'.1 → (f a).Tends c put dir post' s') →
    (x >>= f).Tends c put dir post' s
  | .done a, s, h, hf => hf a s h.1 h.2
  | .ask _ _, _, h, hf => ⟨h.1, h.2.bind hf⟩

/-- A request that changes nothing. -/
theorem look {q : Request} {f : q.Answer → Procedure β} (h : Tended put dir s.1.disk)
    (hq : (World.answerUntil c q s).2.1 = s.1)
    (hf : ∀ answer s', s'.1 = s.1 → (f answer).Tends c put dir post' s') :
    (Procedure.request q >>= f).Tends c put dir post' s := ⟨h, hf _ _ hq⟩

/-- **What a store asks for leaves its directory tended**, once the directory is made. -/
theorem of_safe {post : Deposits → α → Prop} : ∀ {x : Procedure α} {s : World × Nat}, Safe dir post x put → x.Heedless →
    Tended put dir s.1.disk → x.Tends c put dir (fun a _ => post put a) s
  | .done _, _, hsafe, _, h => ⟨h, hsafe⟩
  | .ask q next, s, hsafe, hheedless, h => by
    obtain ⟨hstill, hanswered⟩ := h.answer (c := c) hsafe.1 hheedless.1.2
    refine ⟨h, ?_⟩
    rw [World.answerUntil_of_ne c hheedless.1.1]
    exact of_safe (hsafe.2 put subset_rfl _ hanswered) (hheedless.2 _) hstill

end Procedure.Tends

/-- Opening a store makes its directory. -/
theorem Cache.tends_openAt {s : World × Nat} (h : Tended put dir s.1.disk) (hanew : MadeAnew s.1.disk dir)
    (ttlHours : Nat) :
    (Cache.openAt dir ttlHours).Tends c put dir (fun cache _ => Honest put dir cache) s := by
  have hmade := run_makeDirectory c dir s.1
  refine ⟨h, ?_⟩
  rw [World.answerUntil_of_ne c (by simp)]
  refine Procedure.Tends.of_safe ((safe_openAt dir ttlHours put).2 put subset_rfl _ trivial) ?_ ?_
  · exact (heedless_readIndex dir).bind fun i => heedless_purge _
  · rw [hmade]
    exact h.withDirectory hanew

end LogHygiene
