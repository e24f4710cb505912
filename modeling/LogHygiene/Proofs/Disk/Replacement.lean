import LogHygiene.Proofs.Disk.InPlace

/-!
# Putting a file in place changes one place

`Disk.replace` has seven steps, each of which can fail, and a failure can leave the scratch file behind. Every one of
its exits comes down to one of four pictures of the disk (`Disk.Replaced`), which differ from the disk before at the
place of the file and at that of the scratch file at most.

> **A replacement that answers no fault has put the new file at the place, and every other place is as it was. One that
> answers a fault has changed nothing, but for a scratch file that could not be removed** (`replace_replaced`).

This takes that nothing with the name of the scratch file was there before. `Disk.Cleared` is as much of it as one
replacement leaves to the next: a file may have such a name if scratch files cannot be removed.
-/

set_option autoImplicit false

namespace LogHygiene

namespace Disk

variable {d e : Disk} {m : Mishaps} {path : String} {p q s : Place} {body : Bytes} {fault : Option FileFault}

/-! ## What a replacement leaves -/

/-- The place of the next scratch file for a path, if there can be one. -/
def NextScratch (d : Disk) (path : String) (s : Place) : Prop :=
  ∃ p, d.placeFor path = .ok p ∧ isTooLong path p s = false ∧ s = d.scratchAt p d.writes

namespace NextScratch

theorem isScratch (h : d.NextScratch path s) : d.IsScratch s := by
  obtain ⟨p, -, -, rfl⟩ := h
  exact d.isScratch_scratchAt p d.writes

theorem ne_nil (h : d.NextScratch path s) : s ≠ [] := h.isScratch.ne_nil

end NextScratch

/-- What a replacement makes of a disk. The file is for the place `p`, and its scratch file is at `s`. -/
inductive Replaced (m : Mishaps) (d : Disk) (path : String) (body : Bytes) : Option FileFault → Disk → Prop
  | placed {p s : Place} {modified clock : Instant} (hplace : d.placeFor path = .ok p) (hdir : ¬ d.IsDirectory p)
      (hnext : d.NextScratch path s) (hsdir : ¬ d.IsDirectory s) :
      Replaced m d path body none
        (((d.clear s).put p (.file body (d.modeInPlace m path s body) modified)).later clock (d.writes + 1))
  | same {f : FileFault} {clock : Instant} : Replaced m d path body (some f) (d.later clock (d.writes + 1))
  | discarded {f : FileFault} {s : Place} {clock : Instant} (hnext : d.NextScratch path s) (hsdir : ¬ d.IsDirectory s) :
      Replaced m d path body (some f) ((d.clear s).later clock (d.writes + 1))
  | left {f : FileFault} {s : Place} {part : Bytes} {n : DiskNode} {clock : Instant} (hnext : d.NextScratch path s)
      (hsdir : ¬ d.IsDirectory s) (hdiscard : m.fault .discard ≠ none) (hn : IsFile part n) :
      Replaced m d path body (some f) ((d.put s n).later clock (d.writes + 1))

/-- A scratch file whose name is not too long is opened where it is. -/
theorem behind_scratchAt (hplace : d.placeFor path = .ok p) (hlong : isTooLong path p (d.scratchAt p d.writes) = false)
    (hlink : ∀ t, ¬ d.IsLink (d.scratchAt p d.writes) t) :
    d.count.behind (d.scratchAt p d.writes) = .ok (d.scratchAt p d.writes) := by
  have hname : IsName ((d.scratchAt p d.writes).getLastD "") := by
    simp only [isTooLong, Bool.or_eq_false_iff, decide_eq_false_iff_not, Nat.not_lt] at hlong
    rw [scratchAt, List.getLastD_concat] at hlong ⊢
    exact isName_scratchName hlong.1
  refine behind_eq ?_ hname (d.scratchAt_ne_nil p d.writes) hlink
  rw [dropLast_scratchAt]
  exact (placeFor_eq_ok hplace).2

/-- **What a replacement leaves**, if no link has the name of the scratch file. -/
theorem replace_replaced (m : Mishaps) (d : Disk) (path : String) (body : Bytes)
    (hlink : ∀ s, d.NextScratch path s → ∀ t, ¬ d.IsLink s t) :
    Replaced m d path body (d.replace m path body).1 (d.replace m path body).2 := by
  unfold replace
  cases hplace : d.placeFor path with
  | error f => exact .same
  | ok p =>
    simp only
    cases hlong : isTooLong path p (d.scratchAt p d.writes) with
    | true => exact .same
    | false =>
      have hnext : d.NextScratch path (d.scratchAt p d.writes) := ⟨p, hplace, hlong, rfl⟩
      have hbehind := behind_scratchAt hplace hlong (hlink _ hnext)
      have hps := (d.scratchAt_ne p d.writes).symm
      simp only [Bool.false_eq_true, if_false]
      cases houtcome : d.outcome m path p (d.scratchAt p d.writes) body with
      | none =>
        rw [settle_of_none hnext.ne_nil hps hbehind houtcome]
        obtain ⟨-, h⟩ := Option.or_eq_none_iff.mp houtcome
        obtain ⟨hblocked, h⟩ := Option.or_eq_none_iff.mp h
        obtain ⟨-, htaken⟩ := Option.or_eq_none_iff.mp h
        exact .placed hplace (by simpa using htaken) hnext (by simpa using hblocked)
      | some f =>
        obtain ⟨e, hsettle, he⟩ := settle_of_some hnext.ne_nil hps hbehind houtcome
        rw [hsettle]
        simp only
        unfold discard
        split
        · rename_i g hdiscard
          rcases he with rfl | ⟨hsdir, part, mode, rfl⟩
          · exact .same
          · exact .left hnext hsdir (by rw [hdiscard]; simp) ⟨_, _, rfl⟩
        · rename_i mode _ hmode
          rcases he with rfl | ⟨-, part, mode', rfl⟩
          · exact .same
          · rw [node?_holding hnext.ne_nil, if_pos rfl] at hmode
            exact absurd hmode (by simp)
        · rename_i _ hno
          rcases he with rfl | ⟨hsdir, part, mode, rfl⟩
          · exact .discarded hnext fun ⟨mode, hmode⟩ => hno mode hmode
          · rw [clear_holding]
            exact .discarded hnext hsdir

/-- What a replacement answers, if no link has the name of the scratch file. -/
theorem replace_fst (hplace : d.placeFor path = .ok p)
    (hlink : ∀ s, d.NextScratch path s → ∀ t, ¬ d.IsLink s t) :
    (d.replace m path body).1 = if isTooLong path p (d.scratchAt p d.writes) then some .nameTooLong
      else d.outcome m path p (d.scratchAt p d.writes) body := by
  unfold replace
  rw [hplace]
  simp only
  cases hlong : isTooLong path p (d.scratchAt p d.writes) with
  | true => rfl
  | false =>
    have hnext : d.NextScratch path (d.scratchAt p d.writes) := ⟨p, hplace, hlong, rfl⟩
    have hbehind := behind_scratchAt hplace hlong (hlink _ hnext)
    have hps := (d.scratchAt_ne p d.writes).symm
    simp only [Bool.false_eq_true, if_false]
    cases houtcome : d.outcome m path p (d.scratchAt p d.writes) body with
    | none => rw [settle_of_none hnext.ne_nil hps hbehind houtcome]
    | some f =>
      obtain ⟨e, hsettle, -⟩ := settle_of_some hnext.ne_nil hps hbehind houtcome
      rw [hsettle]

namespace Replaced

variable (h : Replaced m d path body fault e)

include h

theorem here : e.here = d.here := by cases h <;> rfl

theorem process : e.process = d.process := by cases h <;> rfl

theorem isScratch : e.IsScratch q ↔ d.IsScratch q := isScratch_congr h.process

/-- Each place has what it had, or the new file, or it is that of the scratch file. -/
theorem node?_cases (q : Place) : e.node? q = d.node? q ∨
    (fault = none ∧ d.placeFor path = .ok q ∧ ¬ d.IsDirectory q ∧ ∃ mode modified,
      e.node? q = some (.file body mode modified)) ∨
    (d.NextScratch path q ∧ ¬ d.IsDirectory q ∧ (e.node? q = none ∨
      m.fault .discard ≠ none ∧ fault ≠ none ∧ e.IsFileAt q)) := by
  cases h with
  | same => exact .inl rfl
  | @placed p s modified clock hplace hdir hnext hsdir =>
    rw [node?_later, node?_put (ne_nil_of_not_isDirectory hdir), node?_clear hnext.ne_nil]
    split
    · rename_i hqp
      exact .inr (.inl ⟨rfl, hqp ▸ hplace, hqp ▸ hdir, _, _, rfl⟩)
    · split
      · rename_i hqs
        exact .inr (.inr ⟨hqs ▸ hnext, hqs ▸ hsdir, .inl rfl⟩)
      · exact .inl rfl
  | @discarded f s clock hnext hsdir =>
    rw [node?_later, node?_clear hnext.ne_nil]
    split
    · rename_i hqs
      exact .inr (.inr ⟨hqs ▸ hnext, hqs ▸ hsdir, .inl rfl⟩)
    · exact .inl rfl
  | @left f s part n clock hnext hsdir hdiscard hn =>
    rw [IsFileAt, node?_later, node?_put hnext.ne_nil]
    split
    · rename_i hqs
      obtain ⟨mode, modified, rfl⟩ := hn
      exact .inr (.inr ⟨hqs ▸ hnext, hqs ▸ hsdir, .inr ⟨hdiscard, by simp, _, _, _, rfl⟩⟩)
    · exact .inl rfl

/-- Where no scratch file can be, at most the new file is new. -/
theorem node?_of_not_isScratch (hq : ¬ d.IsScratch q) (hplace : fault = none → d.placeFor path ≠ .ok q) :
    e.node? q = d.node? q := by
  rcases h.node?_cases q with hsame | ⟨hnone, hq', -⟩ | ⟨hscratch, -⟩
  · exact hsame
  · exact absurd hq' (hplace hnone)
  · exact absurd hscratch.isScratch hq

theorem isDirectory : e.IsDirectory q ↔ d.IsDirectory q := by
  rcases h.node?_cases q with hsame | ⟨-, -, hdir, _, _, hnew⟩ | ⟨-, hdir, hnew | ⟨-, -, _, _, _, hnew⟩⟩
  · rw [IsDirectory, IsDirectory, hsame]
  all_goals exact iff_of_false (fun ⟨k, hk⟩ => absurd (hnew.symm.trans hk) (by simp)) hdir

theorem isLink {t : String} (hlink : e.IsLink q t) : d.IsLink q t := by
  rcases h.node?_cases q with hsame | ⟨-, -, -, _, _, hnew⟩ | ⟨-, -, hnew | ⟨-, -, _, _, _, hnew⟩⟩
  · rwa [IsLink, hsame] at hlink
  all_goals exact absurd (hnew.symm.trans hlink) (by simp)

/-- Where no link is replaced, ways lead where they led. -/
theorem ways (hlink : ∀ q t, d.placeFor path = .ok q ∨ d.NextScratch path q → ¬ d.IsLink q t) : Ways d e where
  here := h.here
  directory _ := h.isDirectory.mpr
  link q t := by
    refine ⟨h.isLink, fun ht => ?_⟩
    rcases h.node?_cases q with hsame | ⟨-, hplace, -⟩ | ⟨hnext, -⟩
    · rwa [IsLink, hsame]
    · exact absurd ht (hlink q t (.inl hplace))
    · exact absurd ht (hlink q t (.inr hnext))

/-- And they led there before. -/
theorem ways_back (hlink : ∀ q t, d.placeFor path = .ok q ∨ d.NextScratch path q → ¬ d.IsLink q t) : Ways e d where
  here := h.here.symm
  directory _ := h.isDirectory.mp
  link q t := ((h.ways hlink).link q t).symm

/-- When nothing fails, the new file is where the path ends. -/
theorem file_of_none (hnone : fault = none) : ∃ p mode modified, d.placeFor path = .ok p ∧ ¬ d.IsDirectory p ∧
    e.node? p = some (.file body mode modified) := by
  cases h with
  | @placed p s modified clock hplace hdir hnext hsdir =>
    refine ⟨p, d.modeInPlace m path s body, modified, hplace, hdir, ?_⟩
    rw [node?_later, node?_put (ne_nil_of_not_isDirectory hdir), if_pos rfl]
  | same | discarded | left => exact absurd hnone (by simp)

end Replaced

/-! ## One replacement after another -/

/-- At a place is nothing, or a file that nobody could remove. -/
def Cleared (m : Mishaps) (d : Disk) (q : Place) : Prop := d.node? q = none ∨ m.fault .discard ≠ none ∧ d.IsFileAt q

theorem ScratchFree.cleared (h : d.ScratchFree) (m : Mishaps) (hq : d.IsScratch q) : Cleared m d q := .inl (h q hq)

namespace Cleared

variable (h : Cleared m d q)

include h

theorem not_isLink (t : String) : ¬ d.IsLink q t := by
  intro hlink
  rcases h with hnone | ⟨-, _, _, _, hfile⟩
  · exact absurd (hnone.symm.trans hlink) (by simp)
  · exact absurd (hfile.symm.trans hlink) (by simp)

theorem not_isDirectory : ¬ d.IsDirectory q := by
  rintro ⟨k, hk⟩
  rcases h with hnone | ⟨-, _, _, _, hfile⟩
  · exact absurd (hnone.symm.trans hk) (by simp)
  · exact absurd (hfile.symm.trans hk) (by simp)

theorem node?_eq_none (hdiscard : m.fault .discard = none) : d.node? q = none :=
  h.resolve_right fun hleft => hleft.1 hdiscard

theorem congr (hsame : e.node? q = d.node? q) : Cleared m e q := by
  rwa [Cleared, IsFileAt, hsame]

end Cleared

/-- The place where the next scratch file is to be is no link, so what a replacement leaves is known. -/
theorem replaced_of_cleared (path : String) (body : Bytes)
    (h : ∀ q, d.NextScratch path q → Cleared m d q) :
    Replaced m d path body (d.replace m path body).1 (d.replace m path body).2 :=
  replace_replaced m d path body fun s hs => (h s hs).not_isLink

namespace Replaced

variable (h : Replaced m d path body fault e)

include h

/-- A place that is cleared stays so, unless the file is put in place there. -/
theorem cleared (hq : Cleared m d q) (hplace : fault = none → d.placeFor path ≠ .ok q) : Cleared m e q := by
  rcases h.node?_cases q with hsame | ⟨hnone, hq', -⟩ | ⟨-, -, hnone | ⟨hdiscard, -, hfile⟩⟩
  · exact hq.congr hsame
  · exact absurd hq' (hplace hnone)
  · exact .inl hnone
  · exact .inr ⟨hdiscard, hfile⟩

end Replaced

/-! ## Where no scratch name is taken -/

/-- Nothing but a directory has the name of a scratch file. -/
def Bare (d : Disk) : Prop := ∀ q, d.IsScratch q → d.node? q = none ∨ d.IsDirectory q

theorem ScratchFree.bare (h : d.ScratchFree) : d.Bare := fun q hq => .inl (h q hq)

theorem Bare.replaced (h : d.Bare) (m : Mishaps) (path : String) (body : Bytes) :
    Replaced m d path body (d.replace m path body).1 (d.replace m path body).2 := by
  refine replace_replaced m d path body fun s hs t ht => ?_
  rcases h s hs.isScratch with hnone | ⟨mode, hmode⟩
  · exact absurd (hnone.symm.trans ht) (by simp)
  · exact absurd (hmode.symm.trans ht) (by simp)

/-- **A replacement puts one file in place or changes nothing**, but for the scratch file that could not be removed. -/
theorem Replaced.swapped (h : Replaced m d path body fault e) (hbare : d.Bare) :
    (fault = none ∧ ∃ p n, d.placeFor path = .ok p ∧ ¬ d.IsDirectory p ∧ IsFile body n ∧ Swapped d p (some n) e) ∨
    (fault ≠ none ∧ ((∀ q, e.node? q = d.node? q) ∨ ∃ s part n, d.NextScratch path s ∧ m.fault .discard ≠ none ∧
      IsFile part n ∧ Swapped d s (some n) e)) := by
  have hfree : ∀ {s}, d.NextScratch path s → ¬ d.IsDirectory s → d.clear s = d := fun hs hdir =>
    clear_of_free hs.ne_nil ((hbare _ hs.isScratch).resolve_right hdir)
  cases h with
  | @placed p s modified clock hplace hdir hnext hsdir =>
    rw [hfree hnext hsdir]
    have hput := (Swapped.refl d p).put (ne_nil_of_not_isDirectory hdir)
      (.file body (d.modeInPlace m path s body) modified)
    exact .inl ⟨rfl, p, _, hplace, hdir, ⟨_, _, rfl⟩, hput.here, hput.there, hput.others⟩
  | same => exact .inr ⟨by simp, .inl fun _ => rfl⟩
  | discarded hnext hsdir =>
    rw [hfree hnext hsdir]
    exact .inr ⟨by simp, .inl fun _ => rfl⟩
  | @left f s part n clock hnext hsdir hdiscard hn =>
    have hput := (Swapped.refl d s).put hnext.ne_nil n
    exact .inr ⟨by simp, .inr ⟨s, part, n, hnext, hdiscard, hn, hput.here, hput.there, hput.others⟩⟩

end Disk

end LogHygiene
