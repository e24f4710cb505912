import LogHygiene.Proofs.Disk.Scratch

/-!
# What comes of putting a file in place

Whether a replacement fails, and with which fault, is settled before it begins: by the steps that go wrong, by whether
there is an old file, and by whether a directory is in the way (`Mishaps.outcome`). And

> **the disk afterwards is the disk before, with the new file put at the place if nothing failed, and with nothing at
> the place of the scratch file** (`settle_of_none`, `settle_of_some`),

unless the scratch file cannot be removed. All that is asked is that no link is where the scratch file is to be.
-/

set_option autoImplicit false

namespace LogHygiene

namespace Mishaps

/-- The first fault between an empty scratch file and the file in place. Permissions are given only if there
is an `old` file to have them from. -/
def late (m : Mishaps) (old : Bool) : Option FileFault :=
  ((m.fault .write).or (m.fault .sync)).or
    ((if old && (m.fault .inspect).isNone then m.fault .permit else none).or (m.fault .rename))

/-- What keeps a file from being put in place, if anything does: a directory may be where the scratch file is to be
(`blocked`), or at the place itself (`taken`). -/
def outcome (m : Mishaps) (blocked taken old : Bool) : Option FileFault :=
  (m.fault .create).or ((if blocked then some .isDirectory else none).or
    ((m.late old).or (if taken then some .isDirectory else none)))

theorem outcome_calm (old : Bool) : outcome {} false false old = none := by cases old <;> rfl

/-- The permissions that a file gets, given those of the old one and those that the scratch file has. -/
def modeFrom (m : Mishaps) (old : Option Nat) (new : Nat) : Nat :=
  (if (m.fault .inspect).isSome then none else old).getD new

end Mishaps

namespace Disk

/-- At the place is a file. -/
def IsFileAt (d : Disk) (p : Place) : Prop := ∃ body mode modified, d.node? p = some (.file body mode modified)

/-- A file with the given bytes. -/
def IsFile (body : Bytes) (n : DiskNode) : Prop := ∃ mode modified, n = .file body mode modified

variable {d e : Disk} {m : Mishaps} {path : String} {p s : Place} {body : Bytes} {f : FileFault}

/-! ## The steps -/

theorem pass_of_none {step : ReplaceStep} (h : m.fault step = none) : e.pass m step = .ok e := by
  rw [pass, h]

theorem pass_of_some {step : ReplaceStep} (h : m.fault step = some f) : e.pass m step = .error (f, e) := by
  rw [pass, h]

theorem openScratch_of_none (hbehind : e.behind s = .ok s) (hdir : ¬ e.IsDirectory s) (h : m.fault .create = none) :
    e.openScratch m s = .ok (s, e.fill s []) := by
  unfold openScratch
  rw [pass_of_none h]
  simp only [bind, Except.bind, hbehind]
  split
  · rename_i mode hmode
    exact absurd ⟨mode, hmode⟩ hdir
  · rfl

theorem openScratch_of_directory (hbehind : e.behind s = .ok s) (hdir : e.IsDirectory s) (h : m.fault .create = none) :
    e.openScratch m s = .error (.isDirectory, e) := by
  obtain ⟨mode, hmode⟩ := hdir
  unfold openScratch
  rw [pass_of_none h]
  simp only [bind, Except.bind, hbehind, hmode]

theorem openScratch_of_some (h : m.fault .create = some f) : e.openScratch m s = .error (f, e) := by
  rw [openScratch, pass_of_some h]
  rfl

theorem fillScratch_of_none (h : (m.fault .write).or (m.fault .sync) = none) :
    e.fillScratch m s body = .ok (e.fill s body) := by
  obtain ⟨hwrite, hsync⟩ := Option.or_eq_none_iff.mp h
  rw [fillScratch, hwrite]
  simp only [Option.isSome_none, Bool.false_eq_true, if_false]
  rw [pass_of_none hwrite]
  exact pass_of_none hsync

theorem fillScratch_of_some (h : (m.fault .write).or (m.fault .sync) = some f) :
    ∃ part, e.fillScratch m s body = .error (f, e.fill s part) := by
  rw [fillScratch]
  cases hwrite : m.fault .write with
  | some g =>
    rw [hwrite] at h
    obtain rfl := Option.some.inj h
    rw [pass_of_some hwrite]
    exact ⟨_, rfl⟩
  | none =>
    rw [hwrite] at h
    rw [pass_of_none hwrite]
    exact ⟨_, pass_of_some (e := e.fill s _) h⟩

/-- The disk while a file is beside the one that it is for: the disk with that file, later. -/
def holding (d : Disk) (s : Place) (body : Bytes) (mode : Nat) : Disk :=
  (d.put s (.file body mode (d.clock + 1))).later (d.clock + 1 + 1) (d.writes + 1)

theorem node?_holding (hs : s ≠ []) (mode : Nat) (q : Place) :
    (d.holding s body mode).node? q = if q = s then some (.file body mode (d.clock + 1)) else d.node? q :=
  node?_put hs _ q

theorem clear_holding (d : Disk) (s : Place) (body : Bytes) (mode : Nat) :
    (d.holding s body mode).clear s = (d.clear s).later (d.clock + 1 + 1) (d.writes + 1) :=
  congrArg (fun e : Disk => e.later (d.clock + 1 + 1) (d.writes + 1)) (clear_put d s _)

/-- A scratch file that was opened is filled. -/
theorem fill_fill (hs : s ≠ []) (d : Disk) (part : Bytes) :
    (d.count.fill s []).fill s part = d.holding s part (d.modeAt s) := by
  have hmode : (d.count.fill s []).modeAt s = d.modeAt s := by
    rw [modeAt, node?_fill hs, if_pos rfl]
    rfl
  rw [fill, hmode, holding, ← put_put d s (.file [] (d.count.modeAt s) d.clock)]
  rfl

/-- A scratch file that is filled gets the permissions of the old file. -/
theorem permitScratch_of_none (hs : s ≠ []) {mode : Nat}
    (h : (if ((d.holding s body mode).mode? path).isSome && (m.fault .inspect).isNone then m.fault .permit
      else none) = none) : (d.holding s body mode).permitScratch m path s =
        .ok (d.holding s body (m.modeFrom ((d.holding s body mode).mode? path) mode)) := by
  unfold permitScratch Mishaps.modeFrom
  rw [node?_holding hs, if_pos rfl]
  cases hinspect : m.fault .inspect with
  | some g => simp
  | none =>
    rw [hinspect] at h
    cases hmode : (d.holding s body mode).mode? path with
    | none => simp
    | some mode' =>
      rw [hmode] at h
      simp only [Option.isSome_some, Option.isNone_none, Bool.and_self, if_true] at h
      simp only [Option.isSome_none, Bool.false_eq_true, if_false]
      rw [pass_of_none h]
      exact congrArg (fun e : Disk => Except.ok (e.later (d.clock + 1 + 1) (d.writes + 1))) (put_put d s _ _)

theorem permitScratch_of_some (hs : s ≠ []) {mode : Nat}
    (h : (if ((d.holding s body mode).mode? path).isSome && (m.fault .inspect).isNone then m.fault .permit
      else none) = some f) : (d.holding s body mode).permitScratch m path s = .error (f, d.holding s body mode) := by
  obtain ⟨hold, hpermit⟩ := Option.ite_none_right_eq_some.mp h
  obtain ⟨hmode, hinspect⟩ := Bool.and_eq_true_iff.mp hold
  obtain ⟨mode, hmode⟩ := Option.isSome_iff_exists.mp hmode
  unfold permitScratch
  rw [node?_holding hs, if_pos rfl, Option.isNone_iff_eq_none.mp hinspect, hmode]
  simp only [Option.isSome_none, Bool.false_eq_true, if_false]
  rw [pass_of_some hpermit]
  rfl

theorem renameScratch_of_none {n : DiskNode} (hdir : ¬ e.IsDirectory p) (hnode : e.node? s = some n)
    (h : m.fault .rename = none) : e.renameScratch m p s = .ok ((e.clear s).put p n) := by
  unfold renameScratch
  rw [pass_of_none h]
  simp only [bind, Except.bind]
  rw [hnode]
  cases hp : e.node? p with
  | none => rfl
  | some there =>
    cases there with
    | file _ _ _ => rfl
    | link _ => rfl
    | directory mode => exact absurd ⟨mode, hp⟩ hdir

theorem renameScratch_of_directory (hdir : e.IsDirectory p) (h : m.fault .rename = none) :
    e.renameScratch m p s = .error (.isDirectory, e) := by
  obtain ⟨mode, hmode⟩ := hdir
  unfold renameScratch
  rw [pass_of_none h]
  simp only [bind, Except.bind, hmode]

theorem renameScratch_of_some (h : m.fault .rename = some f) :
    e.renameScratch m p s = .error (f, e) := by
  unfold renameScratch
  rw [pass_of_some h]
  rfl

/-! ## From the name of a scratch file to the file in place -/

/-- The disk at the moment when the permissions of the old file are looked up. -/
def midway (d : Disk) (s : Place) (body : Bytes) : Disk := d.holding s body (d.modeAt s)

/-- What keeps a file from being put in place, on this disk. -/
def outcome (d : Disk) (m : Mishaps) (path : String) (p s : Place) (body : Bytes) : Option FileFault :=
  m.outcome (decide (d.IsDirectory s)) (decide (d.IsDirectory p)) ((d.midway s body).mode? path).isSome

/-- The permissions that the file is put in place with. -/
def modeInPlace (d : Disk) (m : Mishaps) (path : String) (s : Place) (body : Bytes) : Nat :=
  m.modeFrom ((d.midway s body).mode? path) (d.modeAt s)

/-- **If nothing fails, the file is at its place and nothing is where the scratch file was.** -/
theorem settle_of_none (hs : s ≠ []) (hps : p ≠ s) (hbehind : d.count.behind s = .ok s)
    (h : d.outcome m path p s body = none) : d.count.settle m path p s body =
      .ok (((d.clear s).put p (.file body (d.modeInPlace m path s body) (d.clock + 1))).later (d.clock + 1 + 1)
        (d.writes + 1)) := by
  obtain ⟨hcreate, h⟩ := Option.or_eq_none_iff.mp h
  obtain ⟨hblocked, h⟩ := Option.or_eq_none_iff.mp h
  obtain ⟨hlate, htaken⟩ := Option.or_eq_none_iff.mp h
  obtain ⟨hfill, hlater⟩ := Option.or_eq_none_iff.mp hlate
  obtain ⟨hpermit, hrename⟩ := Option.or_eq_none_iff.mp hlater
  have hdir : ¬ d.IsDirectory s := by simpa using hblocked
  have hpdir : ¬ (d.holding s body (d.modeInPlace m path s body)).IsDirectory p := by
    rintro ⟨k, hk⟩
    rw [node?_holding hs, if_neg hps] at hk
    exact absurd ⟨k, hk⟩ (by simpa using htaken : ¬ d.IsDirectory p)
  have hcleared := d.clear_holding s body (d.modeInPlace m path s body)
  calc d.count.settle m path p s body
      = ((d.count.fill s []).fillScratch m s body >>= fun filled => filled.permitScratch m path s >>= fun ready =>
          ready.renameScratch m p s) := by
        rw [settle, openScratch_of_none hbehind hdir hcreate]
        rfl
    _ = ((d.midway s body).permitScratch m path s >>= fun ready => ready.renameScratch m p s) := by
        rw [fillScratch_of_none hfill, fill_fill hs]
        rfl
    _ = (d.holding s body (d.modeInPlace m path s body)).renameScratch m p s := by
        rw [midway, permitScratch_of_none hs hpermit]
        rfl
    _ = _ := by
        rw [renameScratch_of_none hpdir (by rw [node?_holding hs, if_pos rfl]) hrename, hcleared]
        rfl

/-- **If something fails, no more than the scratch file is new.** -/
theorem settle_of_some (hs : s ≠ []) (hps : p ≠ s) (hbehind : d.count.behind s = .ok s)
    (h : d.outcome m path p s body = some f) : ∃ e, d.count.settle m path p s body = .error (f, e) ∧
      (e = d.count ∨ ¬ d.IsDirectory s ∧ ∃ part mode, e = d.holding s part mode) := by
  rw [settle]
  rcases Option.or_eq_some_iff.mp h with hcreate | ⟨hcreate, h⟩
  · rw [openScratch_of_some hcreate]
    exact ⟨_, rfl, .inl rfl⟩
  rcases Option.or_eq_some_iff.mp h with hblocked | ⟨hblocked, h⟩
  · obtain ⟨hdir, rfl⟩ : d.IsDirectory s ∧ FileFault.isDirectory = f := by simpa using hblocked
    rw [openScratch_of_directory hbehind hdir hcreate]
    exact ⟨_, rfl, .inl rfl⟩
  have hdir : ¬ d.IsDirectory s := by simpa using hblocked
  rw [openScratch_of_none hbehind hdir hcreate]
  show ∃ e, ((d.count.fill s []).fillScratch m s body >>= fun filled => filled.permitScratch m path s >>= fun ready =>
    ready.renameScratch m p s) = _ ∧ _
  cases hfill : (m.fault .write).or (m.fault .sync) with
  | some g =>
    obtain ⟨part, hpart⟩ : ∃ part, (d.count.fill s []).fillScratch m s body =
        .error (g, (d.count.fill s []).fill s part) := fillScratch_of_some hfill
    rw [Mishaps.late, hfill] at h
    obtain rfl := Option.some.inj h
    rw [hpart, fill_fill hs]
    exact ⟨_, rfl, .inr ⟨hdir, part, _, rfl⟩⟩
  | none =>
    rw [fillScratch_of_none hfill, fill_fill hs]
    show ∃ e, ((d.midway s body).permitScratch m path s >>= fun ready => ready.renameScratch m p s) = _ ∧ _
    cases hpermit : (if ((d.midway s body).mode? path).isSome && (m.fault .inspect).isNone then m.fault .permit
      else none) with
    | some g =>
      rw [Mishaps.late, hfill, hpermit] at h
      obtain rfl := Option.some.inj h
      rw [midway, permitScratch_of_some hs hpermit]
      exact ⟨_, rfl, .inr ⟨hdir, body, _, rfl⟩⟩
    | none =>
      rw [midway, permitScratch_of_none hs hpermit]
      refine ⟨d.holding s body (d.modeInPlace m path s body), ?_, .inr ⟨hdir, body, _, rfl⟩⟩
      cases hrename : m.fault .rename with
      | some g =>
        rw [Mishaps.late, hfill, hpermit, hrename] at h
        obtain rfl := Option.some.inj h
        exact renameScratch_of_some hrename
      | none =>
        have hlate : m.late ((d.midway s body).mode? path).isSome = none := by
          rw [Mishaps.late, hfill, hpermit, hrename]
          rfl
        rw [hlate] at h
        obtain ⟨⟨k, hk⟩, rfl⟩ : d.IsDirectory p ∧ FileFault.isDirectory = f := by simpa using h
        exact renameScratch_of_directory ⟨k, by rw [node?_holding hs, if_neg hps, hk]⟩ hrename

end Disk

end LogHygiene
