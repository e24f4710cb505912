import LogHygiene.Proofs.Cache.Deposits
import LogHygiene.Proofs.Disk.Apart

/-!
# A store keeps to its directory

Whoever uses a store changes files, and some of these changes fail halfway. But

> **a safe procedure changes nothing that is not below the directory of its store, and no way on the disk**
> (`Safe.run`),

so whoever does not look below the directory sees the disk as it would be without the store, and other stores
keep what they have (`Contents.within`).
-/

set_option autoImplicit false

namespace LogHygiene.Cache

open Disk

variable {put put' : Deposits} {dir path : String} {p q : Place} {d d' : Disk} {w : World} {c : Conditions}

/-! ## What is below a directory -/

/-- Below a place is nothing but what a store keeps, and what was put in. -/
structure Contents (put : Deposits) (p : Place) (d : Disk) : Prop where
  inside : ∀ q n, q ≠ [] → d.node? (p ++ q) = some n → IsStored q n
  files : ∀ q file body, q ≠ [] → d.node? (p ++ q) = some file → IsFile body file → MayHold put q body

theorem Sound.contents (h : Sound put dir p d) : Contents put p d := ⟨h.stocked.inside, h.files⟩

namespace Contents

theorem sound (h : Contents put p d) (hleads : Leads d dir p) : Sound put dir p d := ⟨⟨hleads, h.inside⟩, h.files⟩

theorem mono (h : Contents put p d) (hput : put ⊆ put') : Contents put' p d :=
  ⟨h.inside, fun q file body hq hnode hbody => (h.files q file body hq hnode hbody).mono hput⟩

theorem of_empty (put : Deposits) (hempty : ∀ q, q ≠ [] → d.node? (p ++ q) = none) : Contents put p d where
  inside q n hq hn := by
    rw [hempty q hq] at hn
    exact absurd hn (by simp)
  files q file body hq hnode := by
    rw [hempty q hq] at hnode
    exact absurd hnode (by simp)

/-- Contents are what they are wherever else something happens. -/
theorem congr (h : Contents put p d) (hsame : ∀ q, q ≠ [] → d'.node? (p ++ q) = d.node? (p ++ q)) :
    Contents put p d' where
  inside q n hq hn := h.inside q n hq (by rwa [← hsame q hq])
  files q file body hq hnode := h.files q file body hq (by rwa [← hsame q hq])

/-- Where one directory is not below the other, what happens below the one leaves the other alone. -/
theorem within {p' : Place} (h : Contents put p d) (hne : p ≠ p') (hp : ¬ isBelow p' p) (hp' : ¬ isBelow p p')
    (hwithin : Within p' d d') : Contents put p d' := by
  refine h.congr fun q _ => hwithin.node? ?_
  rw [← Bool.not_eq_true, isBelow_iff]
  rintro ⟨r, -, heq⟩
  -- of two fronts of one place, one is a front of the other
  rcases List.append_eq_append_iff.mp heq with ⟨s, rfl, -⟩ | ⟨s, rfl, -⟩
  · exact hp' (isBelow_iff.mpr ⟨s, fun hs => hne (by simp [hs]), rfl⟩)
  · exact hp (isBelow_iff.mpr ⟨s, fun hs => hne (by simp [hs]), rfl⟩)

end Contents

/-! ## Requests -/

/-- The second disk is the first but for what is below a place, and ways lead where they led. -/
structure Confined (p : Place) (d d' : Disk) : Prop where
  within : Within p d d'
  ways : Ways d d'

namespace Confined

theorem refl (p : Place) (d : Disk) : Confined p d d := ⟨.refl p d, .refl d⟩

theorem trans {d'' : Disk} (h : Confined p d d') (h' : Confined p d' d'') : Confined p d d'' :=
  ⟨h.within.trans h'.within, h.ways.trans h'.ways⟩

end Confined

theorem StoreFile.isBelow (hfile : StoreFile dir path q) (p : Place) : isBelow p (p ++ q) :=
  isBelow_iff.mpr ⟨q, hfile.ne_nil, rfl⟩

theorem StoreFile.replace (hfile : StoreFile dir path q) (h : Stocked d dir p) (m : Mishaps) (body : Bytes) :
    Confined p d (d.replace m path body).2 := by
  have hreplaced := hfile.replaced h m body
  refine ⟨?_, hfile.ways_of_replaced h hreplaced⟩
  have hscratch : ∀ s, d.NextScratch path s → Disk.isBelow p s := by
    intro s hs
    obtain ⟨name, -, rfl | rfl⟩ := hfile.nextScratch h hs <;> exact isBelow_iff.mpr ⟨_, by simp, rfl⟩
  generalize (d.replace m path body).1 = fault at hreplaced
  generalize (d.replace m path body).2 = d' at hreplaced ⊢
  cases hreplaced with
  | same => exact (Within.refl p d).later _ _
  | discarded hnext => exact (Within.clear d (hscratch _ hnext)).later _ _
  | left hnext => exact (Within.put d (hscratch _ hnext) _).later _ _
  | @placed r s modified clock hplace hdir hnext hsdir =>
    obtain rfl := hfile.located h false r (placeFor_eq_ok hplace).1
    exact ((Within.clear d (hscratch _ hnext)).trans (Within.put _ (hfile.isBelow p) _)).later _ _

theorem StoreFile.remove (hfile : StoreFile dir path q) (h : Stocked d dir p) (hremove : d.remove path = .ok d') :
    Confined p d d' := by
  have hlocated := hfile.located h false
  refine ⟨?_, ?_⟩
  · rw [Disk.remove] at hremove
    simp only [bind, Except.bind] at hremove
    cases hlocate : d.locate false path with
    | error f => rw [hlocate] at hremove; exact absurd hremove (by simp)
    | ok r =>
      obtain rfl := hlocated r hlocate
      rw [hlocate] at hremove
      simp only at hremove
      split at hremove
      · exact absurd hremove (by simp)
      · exact absurd hremove (by simp)
      · obtain rfl := Except.ok.inj hremove
        exact .erase d (hfile.isBelow p)
  · have hswapped := hlocated.remove (by simp [hfile.ne_nil]) (hfile.below h) hremove
    exact (hfile.swapped h hswapped (by simp)).1

theorem Stocked.makeDirectory_confined (h : Stocked d dir p) (hmake : d.makeDirectory (blobDirectory dir) = .ok d') :
    Confined p d d' := by
  have hbelow : isBelow p (p ++ ["blobs"]) := isBelow_iff.mpr ⟨["blobs"], by simp, rfl⟩
  refine ⟨?_, ?_⟩
  · cases hnode : d.node? (p ++ ["blobs"]) with
    | none =>
      rcases h.leads.makeDirectory_join isFileName_blobs hnode with ⟨-, herror⟩ | hmade
      · exact absurd (hmake.symm.trans herror) (by simp)
      · obtain rfl := Except.ok.inj (hmake.symm.trans hmade)
        exact .put d hbelow _
    | some n =>
      obtain ⟨mode, rfl⟩ := (h.inside ["blobs"] n (by simp) hnode).of_blobs
      rcases (h.leads.join isFileName_blobs ⟨mode, hnode⟩).makeDirectory with ⟨-, herror⟩ | hmade
      · exact absurd (hmake.symm.trans herror) (by simp)
      · obtain rfl := Except.ok.inj (hmake.symm.trans hmade)
        exact .refl p _
  · rcases h.makeDirectory with ⟨-, herror⟩ | ⟨d'', hmade, mode, hswapped, -⟩
    · exact absurd (hmake.symm.trans herror) (by simp)
    · obtain rfl := Except.ok.inj (hmake.symm.trans hmade)
      refine h.ways (by simp) hswapped (fun m hm => ?_) (by simp)
      obtain rfl := Option.some.inj hm
      exact .blobs mode

/-- **A request of a store changes nothing outside of its directory.** -/
theorem Sound.answer_confined {r : Request} (h : Sound put dir p w.disk) (hallowed : Allowed put dir r) :
    Confined p w.disk (World.answerUnder c r w).2.disk := by
  have hkeep : ∀ result : Except FileFault Disk, (∀ d, result = .ok d → Confined p w.disk d) →
      Confined p w.disk (w.keep result).2.disk := by
    intro result hresult
    cases result with
    | ok d => exact hresult d rfl
    | error f => exact .refl p w.disk
  cases hallowed with
  | now => exact .refl p w.disk
  | makeDirectory => exact hkeep _ fun d hd => h.stocked.makeDirectory_confined hd
  | list => exact .refl p w.disk
  | isThere => exact .refl p w.disk
  | read _ => exact .refl p w.disk
  | remove hfile => exact hkeep _ fun d hd => hfile.remove h.stocked hd
  | replace hfile _ => exact hfile.replace h.stocked c.mishaps _

/-! ## Procedures -/

/-- **A safe procedure that nobody gets in the way of** ends as it should, leaves the store sound and keeps to its
directory. -/
theorem Safe.run {α : Type} {post : Deposits → α → Prop} :
    ∀ {x : Procedure α} {w : World}, Safe dir post x put → Sound put dir p w.disk →
      post put (x.run (World.answerUnder c) w).1 ∧
        Sound put dir p (x.run (World.answerUnder c) w).2.disk ∧
        Confined p w.disk (x.run (World.answerUnder c) w).2.disk
  | .done _, w, hpost, hsound => ⟨hpost, hsound, .refl p w.disk⟩
  | .ask r next, w, ⟨hallowed, hnext⟩, hsound => by
    have hconfined := hsound.answer_confined (c := c) hallowed
    obtain ⟨hstill, hanswered⟩ := hsound.answer (c := c) hallowed
    obtain ⟨hpost, hdone, hrest⟩ := Safe.run (hnext put subset_rfl _ hanswered) hstill
    exact ⟨hpost, hdone, hconfined.trans hrest⟩

end LogHygiene.Cache
