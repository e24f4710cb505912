import LogHygiene.Proofs.Disk.Replacement

/-!
# Files that are renewed

Paths lead to files, no two of them to one file, and some of the files are replaced, in any order. A
replacement puts a file where a file or a link to a file was, and so it is in nobody's way:

> **each path leads where it led before, what is read there is the old text or the new one of this very
> path, and whether and how its replacement fails never changes** (`Renewal.read`, `Renewal.fate`).

`Renewal d paths written e` says what a disk has become: it is the first one but for the texts that were
written to some of the paths, and for scratch files that could not be removed. `Renewal.replace` is its step.

**Scratch files** have names that depend on how many files were put in place before. Two things are asked so that
this is of no account: in the beginning no place has the name of a scratch file (`ScratchFree`), and how many digits
the number of a write has does not settle whether a name is too long (`ScratchRoom`).
-/

set_option autoImplicit false

namespace LogHygiene

namespace Disk

variable {d e : Disk} {whole : Bool} {path path' : String} {p q r s : Place} {body : Bytes} {m : Mishaps}

/-! ## More about ways -/

theorem Follows.more {links : Nat} {at_ goal : Place} {parts : List String}
    (h : Follows d whole links at_ parts goal) (k : Nat) : Follows d whole (links + k) at_ parts goal := by
  induction h with
  | stop => exact .stop
  | stay hdir hpart _ ih => exact .stay hdir hpart ih
  | up hdir _ ih => exact .up hdir ih
  | down hdir hname hlink _ ih => exact .down hdir hname hlink ih
  | @link links at_ goal part target rest hdir hname hlink hgo _ ih =>
    rw [Nat.add_right_comm]
    exact .link hdir hname hlink hgo ih
  | atLink hdir hname hlink hwhole => exact .atLink hdir hname hlink hwhole

/-- How many links may be followed is nothing that a goal depends on. -/
theorem Follows.same_goal {links links' : Nat} {at_ p q : Place} {parts : List String}
    (hp : Follows d whole links at_ parts p) (hq : Follows d whole links' at_ parts q) : p = q :=
  (hp.more links').unique (Nat.add_comm links' links ▸ hq.more links)

/-- A way ends at the goal, or at a link from which the way goes on. -/
def EndsAt (d : Disk) (q goal : Place) : Prop :=
  q = goal ∨ ∃ target links, d.IsLink q target ∧
    Follows d true links (if Path.isAbsolute target then [] else q.dropLast) (Path.parts target) goal

theorem Follows.entry {links : Nat} {at_ goal : Place} {parts : List String}
    (h : Follows d true links at_ parts goal) : ∃ q, Follows d false links at_ parts q ∧ d.EndsAt q goal := by
  induction h with
  | stop => exact ⟨_, .stop, .inl rfl⟩
  | stay hdir hpart _ ih => exact ih.imp fun q hq => ⟨.stay hdir hpart hq.1, hq.2⟩
  | up hdir _ ih => exact ih.imp fun q hq => ⟨.up hdir hq.1, hq.2⟩
  | down hdir hname hlink _ ih => exact ih.imp fun q hq => ⟨.down hdir hname hlink hq.1, hq.2⟩
  | @link links at_ goal part target rest hdir hname hlink hgo hrest ih =>
    cases rest with
    | nil =>
      refine ⟨_, .atLink hdir hname hlink rfl, .inr ⟨target, links, hlink, ?_⟩⟩
      rwa [List.dropLast_concat, ← List.append_nil (Path.parts target)]
    | cons next rest => exact ih.imp fun q hq => ⟨.link hdir hname hlink (.inl (by simp)) hq.1, hq.2⟩
  | atLink hdir hname hlink hwhole => exact absurd hwhole (by simp)

/-- Where no link is at the end, none is followed there. -/
theorem Follows.whole_of_no_link {links : Nat} {at_ goal : Place} {parts : List String}
    (h : Follows d false links at_ parts goal) (hgoal : ∀ t, ¬ d.IsLink goal t) :
    Follows d true links at_ parts goal := by
  induction h with
  | stop => exact .stop
  | stay hdir hpart _ ih => exact .stay hdir hpart (ih hgoal)
  | up hdir _ ih => exact .up hdir (ih hgoal)
  | down hdir hname hlink _ ih => exact .down hdir hname hlink (ih hgoal)
  | link hdir hname hlink _ _ ih => exact .link hdir hname hlink (.inr rfl) (ih hgoal)
  | atLink hdir hname hlink _ => exact absurd hlink (hgoal _)

/-! ## Paths to files -/

theorem IsFileAt.not_isDirectory (h : d.IsFileAt p) : ¬ d.IsDirectory p := by
  obtain ⟨body, mode, modified, h⟩ := h
  rintro ⟨k, hk⟩
  rw [h] at hk
  exact absurd hk (by simp)

theorem IsFileAt.not_isLink (h : d.IsFileAt p) (t : String) : ¬ d.IsLink p t := by
  obtain ⟨body, mode, modified, h⟩ := h
  intro ht
  rw [IsLink, h] at ht
  exact absurd ht (by simp)

/-- A path leads to the file at a place. -/
structure Denotes (d : Disk) (path : String) (r : Place) : Prop where
  locate : d.locate true path = .ok r
  file : d.IsFileAt r

/-- A path leads to a file that may be replaced: it is no scratch file, and there is room for scratch files beside
it. -/
structure Replaceable (d : Disk) (path : String) (r : Place) : Prop extends Denotes d path r where
  plain : ¬ d.IsScratch r
  room : d.ScratchRoom path

/-- Paths that lead to files that may be replaced, each to one of its own. -/
structure Targets (d : Disk) (paths : List String) : Prop where
  replaceable : ∀ path ∈ paths, ∃ r, d.Replaceable path r
  apart : ∀ path ∈ paths, ∀ path' ∈ paths, ∀ r, d.Denotes path r → d.Denotes path' r → path = path'

/-- Each of some paths leads to a file. -/
def AllDenote (d : Disk) (paths : List String) : Prop := ∀ path ∈ paths, ∃ r, d.Denotes path r

theorem Targets.allDenote {paths : List String} (h : Targets d paths) : AllDenote d paths := fun path hpath =>
  (h.replaceable path hpath).imp fun _ hr => hr.toDenotes

namespace Denotes

theorem unique (h : d.Denotes path p) (h' : d.Denotes path q) : p = q :=
  Except.ok.inj (h.locate.symm.trans h'.locate)

theorem entry (h : d.Denotes path r) : ∃ q, d.locate false path = .ok q ∧ d.EndsAt q r := by
  obtain ⟨hpath, hfollows⟩ := locate_eq_ok.mp h.locate
  obtain ⟨q, hq, hends⟩ := hfollows.entry
  exact ⟨q, locate_eq_ok.mpr ⟨hpath, hq⟩, hends⟩

/-- A new file for the path goes where the path ends. -/
theorem endsAt (h : d.Denotes path r) (hplace : d.placeFor path = .ok p) : d.EndsAt p r := by
  obtain ⟨q, hq, hends⟩ := h.entry
  rw [(placeFor_eq_ok hplace).1] at hq
  rwa [Except.ok.inj hq]

/-- What a new file takes the place of. -/
theorem file_or_link (h : d.Denotes path r) (hplace : d.placeFor path = .ok p) :
    d.IsFileAt p ∨ ∃ t, d.IsLink p t := by
  rcases h.endsAt hplace with rfl | ⟨t, links, hlink, -⟩
  · exact .inl h.file
  · exact .inr ⟨t, hlink⟩

theorem not_isDirectory (h : d.Denotes path r) (hplace : d.placeFor path = .ok p) : ¬ d.IsDirectory p := by
  rcases h.file_or_link hplace with hfile | ⟨t, hlink⟩
  · exact hfile.not_isDirectory
  · rintro ⟨k, hk⟩
    rw [IsLink, hk] at hlink
    exact absurd hlink (by simp)

theorem node?_ne_none (h : d.Denotes path r) (hplace : d.placeFor path = .ok p) : d.node? p ≠ none := by
  rcases h.file_or_link hplace with ⟨body, mode, modified, hp⟩ | ⟨t, hp⟩
  · rw [hp]; simp
  · rw [hp]; simp

theorem place_ne_nil (h : d.Denotes path r) (hplace : d.placeFor path = .ok p) : p ≠ [] := by
  rintro rfl
  exact h.not_isDirectory hplace ⟨_, rfl⟩

/-- A link that a new file takes the place of leads to the old file. -/
theorem follows_link {at_ : Place} {part target : String} (h : d.Denotes path r)
    (hplace : d.placeFor path = .ok (at_ ++ [part])) (hlink : d.IsLink (at_ ++ [part]) target) :
    ∃ links, Follows d true links (if Path.isAbsolute target then [] else at_) (Path.parts target) r := by
  rcases h.endsAt hplace with rfl | ⟨t, links, hlink', hfollows⟩
  · exact absurd hlink (h.file.not_isLink target)
  · rw [IsLink, hlink] at hlink'
    obtain rfl := DiskNode.link.inj (Option.some.inj hlink')
    rw [List.dropLast_concat] at hfollows
    exact ⟨links, hfollows⟩

/-- Files have places of their own, also those that links lead to. -/
theorem same_of_place (h : d.Denotes path r) (h' : d.Denotes path' q) (hplace : d.placeFor path = .ok p)
    (hplace' : d.placeFor path' = .ok p) : r = q := by
  rcases h.endsAt hplace with rfl | ⟨t, links, hlink, hfollows⟩
  · rcases h'.endsAt hplace' with rfl | ⟨t, links, hlink, -⟩
    · rfl
    · exact absurd hlink (h.file.not_isLink t)
  · rcases h'.endsAt hplace' with rfl | ⟨t', links', hlink', hfollows'⟩
    · exact absurd hlink (h'.file.not_isLink t)
    · rw [IsLink, hlink] at hlink'
      obtain rfl := DiskNode.link.inj (Option.some.inj hlink')
      exact hfollows.same_goal hfollows'

/-- What can be read is a file. -/
theorem of_read (h : d.read path = .ok body) : ∃ r, d.Denotes path r := by
  rw [Disk.read, visit] at h
  cases hlocate : d.locate true path with
  | error f => rw [hlocate] at h; exact absurd h (by simp [bind, Except.bind])
  | ok r =>
    rw [hlocate] at h
    simp only [bind, Except.bind] at h
    cases hnode : d.node? r with
    | none => rw [hnode] at h; exact absurd h (by simp)
    | some n =>
      rw [hnode] at h
      cases n with
      | file body mode modified => exact ⟨r, hlocate, body, mode, modified, hnode⟩
      | directory _ => exact absurd h (by simp [pure, Except.pure])
      | link _ => exact absurd h (by simp [pure, Except.pure])

theorem read (h : d.Denotes path r) {mode : Nat} {modified : Instant}
    (hnode : d.node? r = some (.file body mode modified)) : d.read path = .ok body := by
  rw [Disk.read, visit, h.locate]
  simp only [bind, Except.bind, hnode, pure, Except.pure]

theorem modified? (h : d.Denotes path r) : ∃ t, d.modified? path = some t := by
  obtain ⟨body, mode, modified, hfile⟩ := h.file
  refine ⟨modified, ?_⟩
  rw [Disk.modified?, visit, h.locate]
  simp only [bind, Except.bind, hfile, pure, Except.pure]

end Denotes

/-- At no place of a scratch file is more than a file that nobody could remove. -/
def Swept (m : Mishaps) (d : Disk) : Prop := ∀ q, d.IsScratch q → Cleared m d q

theorem ScratchFree.swept (h : d.ScratchFree) (m : Mishaps) : Swept m d := fun _ => h.cleared m

theorem ScratchFree.replaceable (hfree : d.ScratchFree) (h : d.Denotes path r) (hroom : d.ScratchRoom path) :
    d.Replaceable path r where
  toDenotes := h
  plain hr := by
    obtain ⟨body, mode, modified, hfile⟩ := h.file
    exact absurd ((hfree r hr).symm.trans hfile) (by simp)
  room := hroom

/-- A new file never gets the name of a scratch file. -/
theorem Replaceable.not_isScratch (h : d.Replaceable path r) (hswept : Swept m d) (hplace : d.placeFor path = .ok p) :
    ¬ d.IsScratch p := by
  intro hp
  rcases h.endsAt hplace with rfl | ⟨t, -, hlink, -⟩
  · exact h.plain hp
  · exact (hswept p hp).not_isLink t hlink

/-! ## Whether a replacement fails -/

/-- What becomes of an attempt to replace the file that a path leads to. -/
def fate (d : Disk) (m : Mishaps) (path : String) : Option FileFault :=
  match d.placeFor path with
  | .error fault => some fault
  | .ok p => if isTooLong path p (d.scratchAt p 0) then some .nameTooLong else m.outcome false false true

/-- Something without ways through it is put where nothing with ways through it is, so ways lead where they led. -/
theorem ways_holding (hs : s ≠ []) (hlink : ∀ t, ¬ d.IsLink s t) (hdir : ¬ d.IsDirectory s) (body : Bytes)
    (mode : Nat) : Ways d (d.holding s body mode) := by
  refine ⟨rfl, fun q ⟨k, hq⟩ => ⟨k, ?_⟩, fun q t => ?_⟩
  · rw [node?_holding hs, if_neg, hq]
    rintro rfl
    exact hdir ⟨k, hq⟩
  · rw [IsLink, IsLink, node?_holding hs]
    by_cases hq : q = s
    · subst hq
      rw [if_pos rfl]
      exact iff_of_false (by simp) (hlink t)
    · rw [if_neg hq]

/-- The old file is still there when its permissions are looked up. -/
theorem Denotes.mode?_midway (h : d.Denotes path r) (hs : s ≠ []) (hlink : ∀ t, ¬ d.IsLink s t)
    (hdir : ¬ d.IsDirectory s) (body : Bytes) : ((d.midway s body).mode? path).isSome := by
  obtain ⟨old, mode, modified, hfile⟩ := h.file
  have hlocate := locate_mono (ways_holding hs hlink hdir body (d.modeAt s)) h.locate
  rw [mode?, visit, midway, hlocate]
  simp only [bind, Except.bind, node?_holding hs, hfile]
  by_cases hrs : r = s
  · rw [if_pos hrs]
    rfl
  · rw [if_neg hrs]
    rfl

/-- **Whether a replacement fails is settled by the path and by what goes wrong.** -/
theorem Replaceable.replace_fst (h : d.Replaceable path r) (hscratch : ∀ q, d.NextScratch path q → Cleared m d q)
    (body : Bytes) :
    (d.replace m path body).1 = d.fate m path := by
  rw [fate]
  cases hplace : d.placeFor path with
  | error f => rw [Disk.replace, hplace]
  | ok p =>
    rw [Disk.replace_fst hplace fun s hs => (hscratch s hs).not_isLink, h.room p hplace]
    simp only
    split
    · rfl
    · rename_i hlong
      have hnext : d.NextScratch path (d.scratchAt p d.writes) :=
        ⟨p, hplace, by rwa [h.room p hplace, ← Bool.not_eq_true], rfl⟩
      have hcleared := hscratch _ hnext
      have hmode := h.mode?_midway hnext.ne_nil hcleared.not_isLink hcleared.not_isDirectory body
      rw [outcome, hmode, decide_eq_false hcleared.not_isDirectory, decide_eq_false (h.not_isDirectory hplace)]

/-! ## What has become of a disk -/

/-- The second disk is the first but for the texts that were written to some of the paths. -/
structure Renewal (m : Mishaps) (d : Disk) (paths : List String) (written : String → Option Bytes) (e : Disk) :
    Prop where
  here : e.here = d.here
  process : e.process = d.process
  renewed : ∀ path ∈ paths, ∀ body, written path = some body →
    ∃ p mode modified, d.placeFor path = .ok p ∧ e.node? p = some (.file body mode modified)
  others : ∀ q, ¬ d.IsScratch q → (∀ path ∈ paths, written path ≠ none → d.placeFor path ≠ .ok q) →
    e.node? q = d.node? q
  scratch : ∀ q, d.IsScratch q → Cleared m e q

namespace Renewal

variable {paths : List String} {written : String → Option Bytes}

theorem refl (h : Swept m d) (paths : List String) : Renewal m d paths (fun _ => none) d where
  here := rfl
  process := rfl
  renewed _ _ _ hnone := absurd hnone (by simp)
  others _ _ _ := rfl
  scratch := h

/-- Each place has what it had, or the new text of a path, or it is that of a scratch file. -/
theorem node?_cases (hswept : Swept m d) (h : Renewal m d paths written e) (q : Place) :
    e.node? q = d.node? q ∨
      (∃ path ∈ paths, written path ≠ none ∧ d.placeFor path = .ok q ∧ e.IsFileAt q) ∨
      (d.IsScratch q ∧ Cleared m d q ∧ Cleared m e q) := by
  by_cases hscratch : d.IsScratch q
  · exact .inr (.inr ⟨hscratch, hswept q hscratch, h.scratch q hscratch⟩)
  · by_cases hq : ∃ path ∈ paths, written path ≠ none ∧ d.placeFor path = .ok q
    · obtain ⟨path, hpath, hwritten, hplace⟩ := hq
      obtain ⟨body, hbody⟩ := Option.ne_none_iff_exists'.mp hwritten
      obtain ⟨p, mode, modified, hplace', hnode⟩ := h.renewed path hpath body hbody
      obtain rfl := Except.ok.inj (hplace'.symm.trans hplace)
      exact .inr (.inl ⟨path, hpath, hwritten, hplace, body, mode, modified, hnode⟩)
    · exact .inl (h.others q hscratch fun path hpath hwritten hplace => hq ⟨path, hpath, hwritten, hplace⟩)

section

variable (hswept : Swept m d) (hled : AllDenote d paths) (h : Renewal m d paths written e)

include hswept hled h

theorem isDirectory (q : Place) : e.IsDirectory q ↔ d.IsDirectory q := by
  rcases h.node?_cases hswept q with hq | ⟨path, hpath, -, hplace, hfile⟩ | ⟨-, hbefore, hafter⟩
  · rw [IsDirectory, IsDirectory, hq]
  · obtain ⟨r, hr⟩ := hled path hpath
    exact ⟨fun hq => absurd hq hfile.not_isDirectory, fun hq => absurd hq (hr.not_isDirectory hplace)⟩
  · exact iff_of_false hafter.not_isDirectory hbefore.not_isDirectory

omit hled in
theorem isLink {q : Place} {t : String} (hlink : e.IsLink q t) : d.IsLink q t := by
  rcases h.node?_cases hswept q with hq | ⟨_, _, _, _, hfile⟩ | ⟨-, -, hafter⟩
  · rwa [IsLink, hq] at hlink
  · exact absurd hlink (hfile.not_isLink t)
  · exact absurd hlink (hafter.not_isLink t)

/-- A way that does not end at a renewed file is there as before. Where a renewed file takes the place of a
link, the link led to a file, and no way goes on behind a file. -/
theorem follows {links : Nat} {at_ goal : Place} {parts : List String}
    (hfollows : Follows d whole links at_ parts goal)
    (hgoal : whole = true → ∀ path ∈ paths, written path ≠ none → ¬ d.Denotes path goal) :
    Follows e whole links at_ parts goal := by
  induction hfollows with
  | stop => exact .stop
  | stay hdir hpart _ ih => exact .stay ((h.isDirectory hswept hled _).mpr hdir) hpart (ih hgoal)
  | up hdir _ ih => exact .up ((h.isDirectory hswept hled _).mpr hdir) (ih hgoal)
  | down hdir hname hlink _ ih =>
    exact .down ((h.isDirectory hswept hled _).mpr hdir) hname (fun t ht' => hlink t (h.isLink hswept ht')) (ih hgoal)
  | @link links at_ goal part target rest hdir hname hlink hgo hrest ih =>
    rcases h.node?_cases hswept (at_ ++ [part]) with hq | ⟨path, hpath, hwritten, hplace, -⟩ | ⟨-, hbefore, -⟩
    · exact .link ((h.isDirectory hswept hled _).mpr hdir) hname (by rwa [IsLink, hq]) hgo (ih hgoal)
    · exfalso
      obtain ⟨r, hr⟩ := hled path hpath
      obtain ⟨k, hfollows'⟩ := hr.follows_link hplace hlink
      by_cases hnil : rest = []
      · subst hnil
        obtain rfl : whole = true := hgo.resolve_left (by simp)
        rw [List.append_nil] at hrest
        rw [hrest.same_goal hfollows'] at hgoal
        exact hgoal rfl path hpath hwritten hr
      · obtain ⟨p, hp, hpdir⟩ := hrest.front fun h => absurd h hnil
        rw [hp.same_goal hfollows'] at hpdir
        exact hr.file.not_isDirectory hpdir
    · exact absurd hlink (hbefore.not_isLink target)
  | @atLink links at_ part target hdir hname hlink hwhole =>
    by_cases hthere : ∃ t, e.IsLink (at_ ++ [part]) t
    · obtain ⟨t, hthere⟩ := hthere
      exact .atLink ((h.isDirectory hswept hled _).mpr hdir) hname hthere hwhole
    · exact .down ((h.isDirectory hswept hled _).mpr hdir) hname (fun t ht' => hthere ⟨t, ht'⟩) .stop

theorem locate_false (hlocate : d.locate false path = .ok q) : e.locate false path = .ok q := by
  obtain ⟨hpath, hfollows⟩ := locate_eq_ok.mp hlocate
  refine locate_eq_ok.mpr ⟨hpath, ?_⟩
  rw [startOf, h.here]
  exact h.follows hswept hled hfollows fun hwhole => absurd hwhole (by simp)

/-- A new file for a path goes where it went before. -/
theorem placeFor (hr : d.Denotes path r) : e.placeFor path = d.placeFor path := by
  obtain ⟨q, hq, -⟩ := hr.entry
  rw [Disk.placeFor, Disk.placeFor, hq, h.locate_false hswept hled hq]
  simp only [bind, Except.bind]
  have hdir := h.isDirectory hswept hled q.dropLast
  split
  · rename_i k hk
    obtain ⟨k', hk'⟩ := hdir.mp ⟨k, hk⟩
    rw [hk']
  · rename_i hno
    split
    · rename_i k hk
      obtain ⟨k', hk'⟩ := hdir.mpr ⟨k, hk⟩
      exact absurd hk' (hno k')
    · rfl

theorem scratchRoom (hr : d.Denotes path r) : e.ScratchRoom path ↔ d.ScratchRoom path := by
  simp only [ScratchRoom, scratchAt_congr h.process, h.placeFor hswept hled hr]

/-- A path that was written to leads to the new file. -/
theorem denotes_of_some (hpath : path ∈ paths) (hbody : written path = some body) :
    ∃ p mode modified, e.Denotes path p ∧ e.node? p = some (.file body mode modified) := by
  obtain ⟨p, mode, modified, hplace, hnode⟩ := h.renewed path hpath body hbody
  have hfile : e.IsFileAt p := ⟨body, mode, modified, hnode⟩
  obtain ⟨hispath, hfollows⟩ := locate_eq_ok.mp (h.locate_false hswept hled (placeFor_eq_ok hplace).1)
  exact ⟨p, mode, modified, ⟨locate_eq_ok.mpr ⟨hispath, hfollows.whole_of_no_link hfile.not_isLink⟩, hfile⟩, hnode⟩

/-- **Whether and how a replacement fails is settled at the beginning.** -/
theorem fate (hr : d.Denotes path r) : e.fate m path = d.fate m path := by
  rw [Disk.fate, Disk.fate, h.placeFor hswept hled hr]
  cases d.placeFor path with
  | error f => rfl
  | ok p =>
    simp only
    rw [scratchAt_congr h.process]

end

variable (hswept : Swept m d) (ht : Targets d paths) (h : Renewal m d paths written e)

include hswept ht h

/-- Who was on the way to a file still is: where a link to a file was passed, it was the end of the way, and a file
is there now. -/
theorem follows_file {links : Nat} {at_ goal : Place} {parts : List String}
    (hfollows : Follows d true links at_ parts goal) (hgoal : d.IsFileAt goal) (hplain : ¬ d.IsScratch goal) :
    ∃ goal', Follows e true links at_ parts goal' ∧ e.IsFileAt goal' ∧ ¬ d.IsScratch goal' := by
  induction hfollows with
  | @stop links at_ =>
    rcases h.node?_cases hswept at_ with hq | ⟨-, -, -, -, hfile⟩ | ⟨hscratch, -, -⟩
    · exact ⟨_, .stop, by rwa [IsFileAt, hq], hplain⟩
    · exact ⟨_, .stop, hfile, hplain⟩
    · exact absurd hscratch hplain
  | stay hdir hpart _ ih =>
    obtain ⟨goal', hgoal', hfile⟩ := ih hgoal hplain
    exact ⟨goal', .stay ((h.isDirectory hswept ht.allDenote _).mpr hdir) hpart hgoal', hfile⟩
  | up hdir _ ih =>
    obtain ⟨goal', hgoal', hfile⟩ := ih hgoal hplain
    exact ⟨goal', .up ((h.isDirectory hswept ht.allDenote _).mpr hdir) hgoal', hfile⟩
  | down hdir hname hlink _ ih =>
    obtain ⟨goal', hgoal', hfile⟩ := ih hgoal hplain
    exact ⟨goal', .down ((h.isDirectory hswept ht.allDenote _).mpr hdir) hname
      (fun t ht' => hlink t (h.isLink hswept ht')) hgoal', hfile⟩
  | @link links at_ goal part target rest hdir hname hlink hgo hrest ih =>
    rcases h.node?_cases hswept (at_ ++ [part]) with hq | ⟨path, hpath, -, hplace, hfile⟩ | ⟨-, hbefore, -⟩
    · obtain ⟨goal', hgoal', hfile⟩ := ih hgoal hplain
      exact ⟨goal', .link ((h.isDirectory hswept ht.allDenote _).mpr hdir) hname (by rwa [IsLink, hq]) hgo hgoal',
        hfile⟩
    · obtain ⟨r, hr⟩ := ht.replaceable path hpath
      obtain ⟨k, hfollows'⟩ := hr.follows_link hplace hlink
      obtain rfl : rest = [] := by
        by_contra hnil
        obtain ⟨p, hp, hpdir⟩ := hrest.front fun h => absurd h hnil
        rw [hp.same_goal hfollows'] at hpdir
        exact hr.file.not_isDirectory hpdir
      exact ⟨_, .down ((h.isDirectory hswept ht.allDenote _).mpr hdir) hname hfile.not_isLink .stop, hfile,
        hr.not_isScratch hswept hplace⟩
    · exact absurd hlink (hbefore.not_isLink target)
  | atLink hdir hname hlink hwhole => exact absurd hwhole (by simp)

/-- **Every path to a file leads to a file still**, maybe to another one. -/
theorem replaceable (hr : d.Replaceable path r) : ∃ r', e.Replaceable path r' := by
  obtain ⟨hpath, hfollows⟩ := locate_eq_ok.mp hr.locate
  obtain ⟨r', hfollows', hfile, hplain⟩ := h.follows_file hswept ht hfollows hr.file hr.plain
  refine ⟨r', ⟨locate_eq_ok.mpr ⟨hpath, ?_⟩, hfile⟩, fun hr' => hplain ((isScratch_congr h.process).mp hr'),
    (h.scratchRoom hswept ht.allDenote hr.toDenotes).mpr hr.room⟩
  rwa [startOf, h.here]

/-- A path that nothing was written to leads to the file that it led to. -/
theorem denotes_of_none (hpath : path ∈ paths) (hnone : written path = none) (hr : d.Replaceable path r) :
    e.Denotes path r ∧ e.node? r = d.node? r := by
  have hother : ∀ path' ∈ paths, written path' ≠ none → ¬ d.Denotes path' r := fun path' hpath' hwritten hr' =>
    hwritten (ht.apart path' hpath' path hpath r hr' hr.toDenotes ▸ hnone)
  obtain ⟨hispath, hfollows⟩ := locate_eq_ok.mp hr.locate
  have hlocate : e.locate true path = .ok r := by
    refine locate_eq_ok.mpr ⟨hispath, ?_⟩
    rw [startOf, h.here]
    exact h.follows hswept ht.allDenote hfollows fun _ => hother
  have hnode : e.node? r = d.node? r := by
    refine h.others r hr.plain fun path' hpath' hwritten hplace => ?_
    obtain ⟨r', hr'⟩ := ht.replaceable path' hpath'
    rcases hr'.endsAt hplace with rfl | ⟨t, links, hlink, -⟩
    · exact hother path' hpath' hwritten hr'.toDenotes
    · exact hr.file.not_isLink t hlink
  refine ⟨⟨hlocate, ?_⟩, hnode⟩
  rw [IsFileAt, hnode]
  exact hr.file

/-- **What is read at a path is what was written to it, or what was there.** -/
theorem read (hpath : path ∈ paths) : e.read path = (written path).elim (d.read path) .ok := by
  cases hwritten : written path with
  | none =>
    obtain ⟨r, hr⟩ := ht.replaceable path hpath
    obtain ⟨body, mode, modified, hfile⟩ := hr.file
    obtain ⟨hr', hnode⟩ := h.denotes_of_none hswept ht hpath hwritten hr
    rw [hr'.read (hnode.trans hfile), hr.read hfile]
    rfl
  | some body =>
    obtain ⟨p, mode, modified, hp, hnode⟩ := h.denotes_of_some hswept ht.allDenote hpath hwritten
    rw [hp.read hnode]
    rfl

/-- **A text that was written stays**: the next file has a place of its own. -/
theorem written_stays (hpath : path ∈ paths) {body : Bytes} {fault : Option FileFault} {e' : Disk}
    (hreplaced : Replaced m e path body fault e') {path' : String} (hpath' : path' ∈ paths) {body' : Bytes}
    (hbody' : written path' = some body') (hne : fault = none → path' ≠ path) :
    ∃ p mode modified, d.placeFor path' = .ok p ∧ e'.node? p = some (.file body' mode modified) := by
  obtain ⟨p', mode', modified', hplace', hnode'⟩ := h.renewed path' hpath' body' hbody'
  obtain ⟨r', hr'⟩ := ht.replaceable path' hpath'
  obtain ⟨r₀, hr₀⟩ := ht.replaceable path hpath
  refine ⟨p', mode', modified', hplace', (hreplaced.node?_of_not_isScratch ?_ fun hnone hsame => ?_).trans hnode'⟩
  · exact fun hq => hr'.not_isScratch hswept hplace' ((isScratch_congr h.process).mp hq)
  · rw [h.placeFor hswept ht.allDenote hr₀.toDenotes] at hsame
    obtain rfl := hr₀.same_of_place hr'.toDenotes hsame hplace'
    exact hne hnone (ht.apart path' hpath' path hpath _ hr'.toDenotes hr₀.toDenotes)

/-- **A replacement adds one text to those that were written**, unless it fails. -/
theorem replace (hpath : path ∈ paths) (body : Bytes) :
    (e.replace m path body).1 = d.fate m path ∧
      Renewal m d paths (if (d.fate m path).isNone then Function.update written path (some body) else written)
        (e.replace m path body).2 := by
  obtain ⟨r₀, hr₀⟩ := ht.replaceable path hpath
  obtain ⟨r, hr⟩ := h.replaceable hswept ht hr₀
  have hscratch : ∀ {q}, e.IsScratch q ↔ d.IsScratch q := isScratch_congr h.process
  have hnext : ∀ q, e.NextScratch path q → Cleared m e q := fun q hq => h.scratch q (hscratch.mp hq.isScratch)
  have hfate : (e.replace m path body).1 = d.fate m path :=
    (hr.replace_fst hnext body).trans (h.fate hswept ht.allDenote hr₀.toDenotes)
  have hreplaced := replaced_of_cleared path body hnext
  have hplace := h.placeFor hswept ht.allDenote hr₀.toDenotes
  rw [hfate] at hreplaced
  generalize (e.replace m path body).2 = e' at hreplaced
  -- the file is not put at a place that a scratch file could have
  have haside : ∀ q, d.IsScratch q → d.placeFor path ≠ .ok q := fun q hq hplace' =>
    hr₀.not_isScratch hswept hplace' hq
  refine ⟨hfate, hreplaced.here.trans h.here, hreplaced.process.trans h.process, fun path' hpath' body' hbody' => ?_,
    fun q hq hothers => ?_, fun q hq => hreplaced.cleared (h.scratch q hq) fun _ => hplace ▸ haside q hq⟩
  · have hstays : written path' = some body' → (d.fate m path = none → path' ≠ path) → _ :=
      h.written_stays hswept ht hpath hreplaced hpath'
    cases hfault : d.fate m path with
    | some f =>
      rw [hfault] at hbody'
      exact hstays hbody' fun hnone => absurd (hfault.symm.trans hnone) (by simp)
    | none =>
      rw [hfault] at hbody' hreplaced
      simp only [Option.isNone_none, if_true] at hbody'
      by_cases hsame : path' = path
      · subst hsame
        rw [Function.update_self] at hbody'
        obtain rfl := Option.some.inj hbody'
        obtain ⟨p, mode, modified, hp, -, hnode⟩ := hreplaced.file_of_none rfl
        exact ⟨p, mode, modified, hplace ▸ hp, hnode⟩
      · rw [Function.update_of_ne hsame] at hbody'
        exact hstays hbody' fun _ => hsame
  · have hfresh : d.fate m path = none → e.placeFor path ≠ .ok q := by
      intro hnone
      rw [hplace]
      exact hothers path hpath (by simp [hnone])
    rw [hreplaced.node?_of_not_isScratch (fun hq' => hq (hscratch.mp hq')) hfresh]
    refine h.others q hq fun path' hpath' hwritten => hothers path' hpath' ?_
    split
    · by_cases hsame : path' = path
      · rw [hsame, Function.update_self]
        simp
      · rwa [Function.update_of_ne hsame]
    · exact hwritten

end Renewal

/-- A new file in the place of the one that a path leads to is what is read there. -/
theorem Denotes.read_of_swapped {mode : Nat} {modified : Instant} (hr : d.Denotes path r) (hfree : d.ScratchFree)
    (hplace : d.placeFor path = .ok p) (h : Swapped d p (some (.file body mode modified)) e)
    (hprocess : e.process = d.process) : e.read path = .ok body := by
  have hp : ∀ q, d.IsScratch q → q ≠ p := by
    rintro q hq rfl
    exact hr.node?_ne_none hplace (hfree q hq)
  have hrenewal : Renewal {} d [path] (fun _ => some body) e := by
    refine ⟨h.here, hprocess, fun path' hpath' body' hbody' => ?_, fun q _ hq => ?_, fun q hq => ?_⟩
    · obtain rfl := List.mem_singleton.mp hpath'
      obtain rfl := Option.some.inj hbody'
      exact ⟨p, mode, modified, hplace, h.there⟩
    · refine h.others q ?_
      rintro rfl
      exact hq path (List.mem_singleton.mpr rfl) (by simp) hplace
    · exact .inl ((h.others q (hp q hq)).trans (hfree q hq))
  have hled : AllDenote d [path] := fun path' hpath' => ⟨r, List.mem_singleton.mp hpath' ▸ hr⟩
  obtain ⟨p', mode', modified', hdenotes, hnode⟩ :=
    hrenewal.denotes_of_some (hfree.swept {}) hled (List.mem_singleton.mpr rfl) rfl
  exact hdenotes.read hnode

/-! ## Contents -/

end Disk

/-- What a node holds, whatever its permissions and whenever it was written. -/
def DiskNode.content : DiskNode → DiskNode
  | file body _ _ => file body 0 0
  | directory _ => directory 0
  | link target => link target

namespace Disk

end Disk

end LogHygiene
