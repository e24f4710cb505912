import LogHygiene.Proofs.Cache.Deposits

/-!
# Many who use one store at once

Any number of handles use the files of one directory, each with an index and a memory of its own. `Step` is
one thing that one of them does: it comes along, begins a use, makes one request, or comes to an end. The
steps of several interleave as they like, and a handle that stops, between whatever two requests, is one
that no further step is about. What goes wrong outside may be different at each request; a replacement is
one request, and one that fails may leave its scratch file behind.

> **Who asks for a ticket gets nothing, or what someone set out to put in under the same key**
> (`reply_was_put`), and under the same ticket as far as digests tell tickets apart.

`Fair` is the invariant: sound files, honest handles, safe procedures in the middle of a use. One lemma says
that a step keeps it (`Fair.step`), and the rest is induction over the steps.
-/

set_option autoImplicit false

namespace LogHygiene.Cache

open Disk

/-! ## Handles and their steps -/

/-- One who uses a store. -/
inductive Handle where
  | idle (c : Cache)
  /-- in the middle of a use, or of opening -/
  | busy (doing : Option Use) (rest : Procedure (Reply × Cache))

/-- Those who share a directory, and what happened so far. -/
structure Commons where
  world : World
  handles : List Handle := []
  /-- the results that someone set out to put in -/
  started : List (Ticket × Analysis) := []
  /-- the uses that came to an end, with their answers -/
  replies : List (Use × Reply) := []

/-- Opening a store, as the first thing that a handle does. -/
def opening (dir : String) (ttlHours : Nat) : Procedure (Reply × Cache) := do
  let c ← openAt dir ttlHours
  pure (.done, c)

/-- What one handle does, or the clock. -/
inductive Step (dir : String) : Commons → Commons → Prop
  | join (s : Commons) (ttlHours : Nat) :
      Step dir s { s with handles := s.handles ++ [.busy none (opening dir ttlHours)] }
  | begin {s : Commons} {i : Nat} {c : Cache} (u : Use) (hidle : s.handles[i]? = some (.idle c)) :
      Step dir s { s with
        handles := s.handles.set i (.busy (some u) (u.perform c))
        started := u.deposit?.toList ++ s.started }
  | ask {s : Commons} {i : Nat} {doing : Option Use} {q : Request} {next : q.Answer → Procedure (Reply × Cache)}
      (c : Conditions) (hbusy : s.handles[i]? = some (.busy doing (.ask q next))) :
      Step dir s { s with
        world := (World.answerUnder c q s.world).2
        handles := s.handles.set i (.busy doing (next (World.answerUnder c q s.world).1)) }
  | finish {s : Commons} {i : Nat} {doing : Option Use} {reply : Reply} {c : Cache}
      (hbusy : s.handles[i]? = some (.busy doing (.done (reply, c)))) :
      Step dir s { s with
        handles := s.handles.set i (.idle c)
        replies := (doing.map (·, reply)).toList ++ s.replies }
  | wait (s : Commons) (now : Nat) : Step dir s { s with world := { s.world with now } }

/-- What can come about from a world without handles. -/
inductive Reachable (dir : String) (w : World) : Commons → Prop
  | start : Reachable dir w { world := w }
  | step {s s' : Commons} (h : Reachable dir w s) (hstep : Step dir s s') : Reachable dir w s'

/-! ## The invariant -/

/-- What was put in so far, by keys. -/
def Commons.deposits (s : Commons) : Deposits := {x | ∃ t, (t, x.2) ∈ s.started ∧ t.key = x.1}

/-- A handle that is honest, or will be when it has ended what it is doing. -/
def FairHandle (put : Deposits) (dir : String) : Handle → Prop
  | .idle c => Honest put dir c
  | .busy doing rest => Safe dir (fun put left =>
      Honest put dir left.2 ∧ ∀ u, doing = some u → Found put u left.1) rest put

/-- Files, handles and answers hold nothing but what was put in. -/
structure Fair (dir : String) (p : Place) (s : Commons) : Prop where
  sound : Sound s.deposits dir p s.world.disk
  handles : ∀ h ∈ s.handles, FairHandle s.deposits dir h
  replies : ∀ x ∈ s.replies, Found s.deposits x.1 x.2

theorem FairHandle.mono {put put' : Deposits} {dir : String} {h : Handle} (hfair : FairHandle put dir h)
    (hput : put ⊆ put') : FairHandle put' dir h := by
  cases h with
  | idle c => exact Honest.mono hfair hput
  | busy doing rest =>
    refine Safe.mono (fun hput' hpost => ?_) hfair hput
    exact ⟨hpost.1.mono hput', fun u hu => (hpost.2 u hu).mono hput'⟩

variable {dir : String} {p : Place} {s s' : Commons} {w : World}

/-- Putting another handle in the place of one. -/
theorem Fair.set_handle (h : Fair dir p s) {i : Nat} {handle : Handle}
    (hhandle : FairHandle s.deposits dir handle) :
    ∀ x ∈ s.handles.set i handle, FairHandle s.deposits dir x := by
  intro x hx
  rcases List.mem_or_eq_of_mem_set hx with hx | rfl
  · exact h.handles x hx
  · exact hhandle

/-- **A step leaves files, handles and answers fair.** -/
theorem Fair.step (h : Fair dir p s) (hstep : Step dir s s') : Fair dir p s' := by
  cases hstep with
  | join ttlHours =>
    refine ⟨h.sound, fun x hx => ?_, h.replies⟩
    rcases List.mem_append.mp hx with hx | hx
    · exact h.handles x hx
    · rw [List.mem_singleton.mp hx]
      exact Safe.bind (safe_openAt dir ttlHours _) fun _ _ c hc => ⟨hc, fun u hu => absurd hu (by simp)⟩
  | begin u hidle =>
    rename_i i c
    have hput : s.deposits ⊆ Commons.deposits { s with
        handles := s.handles.set i (.busy (some u) (u.perform c))
        started := u.deposit?.toList ++ s.started } := by
      rintro x ⟨t, ht, hkey⟩
      exact ⟨t, List.mem_append_right _ ht, hkey⟩
    have hhonest : Honest s.deposits dir c := h.handles _ (List.mem_of_getElem? hidle)
    refine ⟨h.sound.mono hput, fun x hx => ?_, fun x hx => (h.replies x hx).mono hput⟩
    rcases List.mem_or_eq_of_mem_set hx with hx | rfl
    · exact (h.handles x hx).mono hput
    · have hsafe := (hhonest.mono hput).perform u fun t a hdeposit =>
        ⟨t, List.mem_append_left _ (by rw [hdeposit]; exact List.mem_singleton.mpr rfl), rfl⟩
      exact Safe.weaken hsafe fun hpost => ⟨hpost.1, fun u' hu' => Option.some.inj hu' ▸ hpost.2⟩
  | ask c hbusy =>
    have hsafe : FairHandle s.deposits dir (.busy _ (.ask _ _)) := h.handles _ (List.mem_of_getElem? hbusy)
    obtain ⟨hsound, hanswered⟩ := h.sound.answer (c := c) hsafe.1
    exact ⟨hsound, h.set_handle (hsafe.2 _ subset_rfl _ hanswered), h.replies⟩
  | finish hbusy =>
    have hdone : FairHandle s.deposits dir (.busy _ (.done (_, _))) := h.handles _ (List.mem_of_getElem? hbusy)
    refine ⟨h.sound, h.set_handle hdone.1, fun x hx => ?_⟩
    rcases List.mem_append.mp hx with hx | hx
    · obtain ⟨u, hu, rfl⟩ := Option.map_eq_some_iff.mp (Option.mem_toList.mp hx)
      exact hdone.2 u hu
    · exact h.replies x hx
  | wait now => exact ⟨h.sound, h.handles, h.replies⟩

theorem Reachable.fair (hreach : Reachable dir w s) (hleads : Leads w.disk dir p)
    (hempty : ∀ q, q ≠ [] → w.disk.node? (p ++ q) = none) : Fair dir p s := by
  induction hreach with
  | start => exact ⟨Sound.of_empty hleads hempty, fun x hx => absurd hx (by simp), fun x hx => absurd hx (by simp)⟩
  | step _ hstep ih => exact ih.step hstep

/-! ## What is answered -/

/-- **Who asks for a ticket gets nothing, or an entry with the key that was asked for and a result that
someone set out to put in under that key**: whatever handles share a directory that was empty at first,
however their requests interleave and fail, and wherever some of them stop. As far as digests tell tickets
apart, it was put in under that very ticket. -/
theorem reply_was_put (hleads : Leads w.disk dir p) (hempty : ∀ q, q ≠ [] → w.disk.node? (p ++ q) = none)
    (hreach : Reachable dir w s) {path : String} {modified : Instant} {fingerprint : String} {reply : Reply}
    (hreply : (.get path modified fingerprint, reply) ∈ s.replies) :
    ∃ found, reply = .found found ∧ ∀ e, found = some e →
      e.key = Cache.key path modified fingerprint ∧
      ∃ t, (t, e.payload) ∈ s.started ∧ t.key = Cache.key path modified fingerprint ∧
        (ToldApart t (.of path modified fingerprint) → t = .of path modified fingerprint) := by
  obtain ⟨found, heq, hfound⟩ := (hreach.fair hleads hempty).replies _ hreply _ rfl
  refine ⟨found, heq, fun e he => ?_⟩
  obtain ⟨hkey, t, hstarted, htkey⟩ := hfound e he
  rw [← Ticket.key_of]
  exact ⟨hkey, t, hstarted, htkey, fun hapart => hapart.eq_of_key htkey⟩

/-- A handle that nobody gets in the way of carries out what it is doing. -/
theorem Reachable.run {i : Nat} {doing : Option Use} {rest : Procedure (Reply × Cache)}
    (hreach : Reachable dir w s) (hbusy : s.handles[i]? = some (.busy doing rest)) :
    Reachable dir w { s with
      world := (s.world.carryOut rest).2
      handles := s.handles.set i (.idle (s.world.carryOut rest).1.2)
      replies := (doing.map (·, (s.world.carryOut rest).1.1)).toList ++ s.replies } := by
  induction rest generalizing s with
  | done value => exact hreach.step (.finish hbusy)
  | ask q next ih =>
    have hlt : i < s.handles.length := (List.getElem?_eq_some_iff.mp hbusy).1
    have hasked := hreach.step (.ask {} hbusy)
    have hdone := ih (World.answerUnder {} q s.world).1 hasked (List.getElem?_set_self hlt)
    rw [List.set_set] at hdone
    exact hdone

/-- One use, from beginning to end, that nobody gets in the way of. -/
theorem Reachable.use {i : Nat} {c : Cache} (hreach : Reachable dir w s)
    (hidle : s.handles[i]? = some (.idle c)) (u : Use) :
    Reachable dir w
      { world := (s.world.carryOut (u.perform c)).2
        handles := s.handles.set i (.idle (s.world.carryOut (u.perform c)).1.2)
        started := u.deposit?.toList ++ s.started
        replies := (u, (s.world.carryOut (u.perform c)).1.1) :: s.replies } := by
  have hlt : i < s.handles.length := (List.getElem?_eq_some_iff.mp hidle).1
  have hran := (hreach.step (.begin u hidle)).run (List.getElem?_set_self hlt)
  rw [List.set_set] at hran
  exact hran

/-- Another handle that opens the store, and that nobody gets in the way of. -/
theorem Reachable.opened (hreach : Reachable dir w s) (ttlHours : Nat) :
    Reachable dir w { s with
      world := (s.world.carryOut (opening dir ttlHours)).2
      handles := s.handles ++ [.idle (s.world.carryOut (opening dir ttlHours)).1.2] } := by
  have hran := (hreach.step (.join s ttlHours)).run List.getElem?_concat_length
  simpa using hran

/-- What a handle holds in memory needs no file. -/
theorem carryOut_get_of_lookUp? {c : Cache} {path : String} {modified : Instant} {fingerprint : String} {e : Entry}
    (h : c.lookUp? w.now (Cache.key path modified fingerprint) = some e) :
    (w.carryOut (Use.perform c (.get path modified fingerprint))).1.1 = .found (some e) := by
  have hfetch : w.carryOut (c.get path modified fingerprint) = ((some e, c), w) := by
    rw [Cache.get, Cache.fetch, World.carryOut_ask, show World.answer .now w = (w.now, w) from rfl]
    dsimp only
    rw [h, World.carryOut_pure]
  rw [Use.perform, World.carryOut_bind_of w hfetch, World.carryOut_pure]

theorem Reachable.get_of_lookUp? {i : Nat} {c : Cache} (hreach : Reachable dir w s)
    (hidle : s.handles[i]? = some (.idle c)) {path : String} {modified : Instant} {fingerprint : String}
    {e : Entry} (h : c.lookUp? s.world.now (Cache.key path modified fingerprint) = some e) :
    ∃ s', Reachable dir w s' ∧ (.get path modified fingerprint, .found (some e)) ∈ s'.replies := by
  refine ⟨_, hreach.use hidle (.get path modified fingerprint), ?_⟩
  rw [carryOut_get_of_lookUp? h]
  exact List.mem_cons_self

/-- One handle stores a result, and another one removes every entry; the first still has it in memory. -/
theorem reply_was_put_outlivingClear :
    ∃ s, Reachable "/store" oneDirectory s ∧
      (.get "a.js" 7 "f", .found (some ((Ticket.of "a.js" 7 "f").entry (oneDirectory.now, {})))) ∈ s.replies ∧
      ∃ t, (t, {}) ∈ s.started ∧ t.key = Cache.key "a.js" 7 "f" := by
  have hopened : Reachable "/store" oneDirectory _ := Reachable.start.opened 1
  have hstored := hopened.use (i := 0) List.getElem?_concat_length (.set "a.js" 7 "f" {})
  have hcleared := (hstored.opened 1).use (i := 1) rfl .clear
  have hlater := hcleared.step (.wait _ (oneDirectory.now + 60))
  obtain ⟨s, hasked, hreply⟩ : ∃ s, Reachable "/store" oneDirectory s ∧ (.get "a.js" 7 "f",
      .found (some ((Ticket.of "a.js" 7 "f").entry (oneDirectory.now, {})))) ∈ s.replies :=
    hlater.get_of_lookUp? (i := 0) rfl (by decide +kernel)
  obtain ⟨found, hfound, hput⟩ := reply_was_put leads_oneDirectory oneDirectory_empty hasked hreply
  obtain ⟨-, t, hstarted, hkey, -⟩ := hput _ (Reply.found.inj hfound).symm
  exact ⟨s, hasked, hreply, t, hstarted, hkey⟩

end LogHygiene.Cache
