import LogHygiene.Disk.Basic
import LogHygiene.Proofs.Paths
import LogHygiene.Proofs.Rows
import Mathlib.Order.Lattice

/-!
# Where a path leads

`Disk.follow` goes from place to place under a bound on its steps. `Disk.Follows` is the way itself, with
one constructor for each thing that a part of a path can be, and `locate_eq_ok` says that the bound is
never what ends a search that the way would not end:

> **a path is located at a place exactly if the way leads there** and the text is one that a path can be.

Everything else about places is said about the way. It depends on the directories and links alone, so it
leads to the same place on a disk that has more (`Follows.mono`); and the file `name` in a directory is
where a path to the directory leads, and then `name` (`Leads.locate_join`).
-/

set_option autoImplicit false

namespace LogHygiene

namespace Disk

/-! ## The way -/

/-- A part of a path that names something in a directory. -/
structure IsName (part : String) : Prop where
  ne_empty : part ≠ ""
  ne_current : part ≠ "."
  ne_parent : part ≠ ".."
  short : part.utf8ByteSize ≤ maxName

/-- At the place is a directory. -/
def IsDirectory (d : Disk) (p : Place) : Prop := ∃ mode, d.node? p = some (.directory mode)

instance (d : Disk) (p : Place) : Decidable (d.IsDirectory p) :=
  decidable_of_iff ((match d.node? p with
    | some (.directory _) => true
    | _ => false) = true) (by unfold IsDirectory; split <;> simp_all)

/-- At the place is a link. -/
def IsLink (d : Disk) (p : Place) (target : String) : Prop := d.node? p = some (.link target)

/-- The way over the parts of a path from a place to another one, with so many links allowed. -/
inductive Follows (d : Disk) (whole : Bool) : Nat → Place → List String → Place → Prop
  | stop {links : Nat} {at_ : Place} : Follows d whole links at_ [] at_
  | stay {links : Nat} {at_ goal : Place} {part : String} {rest : List String}
      (hdir : d.IsDirectory at_) (hpart : part = "" ∨ part = ".")
      (hrest : Follows d whole links at_ rest goal) : Follows d whole links at_ (part :: rest) goal
  | up {links : Nat} {at_ goal : Place} {rest : List String} (hdir : d.IsDirectory at_)
      (hrest : Follows d whole links at_.dropLast rest goal) :
      Follows d whole links at_ (".." :: rest) goal
  | down {links : Nat} {at_ goal : Place} {part : String} {rest : List String}
      (hdir : d.IsDirectory at_) (hname : IsName part) (hnode : ∀ t, ¬ d.IsLink (at_ ++ [part]) t)
      (hrest : Follows d whole links (at_ ++ [part]) rest goal) :
      Follows d whole links at_ (part :: rest) goal
  | link {links : Nat} {at_ goal : Place} {part target : String} {rest : List String}
      (hdir : d.IsDirectory at_) (hname : IsName part) (hnode : d.IsLink (at_ ++ [part]) target)
      (hgo : rest ≠ [] ∨ whole = true)
      (hrest : Follows d whole links (if Path.isAbsolute target then [] else at_)
        (Path.parts target ++ rest) goal) :
      Follows d whole (links + 1) at_ (part :: rest) goal
  | atLink {links : Nat} {at_ : Place} {part target : String} (hdir : d.IsDirectory at_)
      (hname : IsName part) (hnode : d.IsLink (at_ ++ [part]) target) (hwhole : whole = false) :
      Follows d whole links at_ [part] (at_ ++ [part])

variable {d d' : Disk} {whole : Bool}

/-- A search that ends went the way. -/
theorem follows_of_follow : ∀ {n links : Nat} {at_ goal : Place} {parts : List String},
    d.follow whole n links at_ parts = .ok goal → Follows d whole links at_ parts goal
  | 0, _, _, _, _, h => absurd h (by simp [follow])
  | n + 1, links, at_, goal, [], h => by
    rw [follow] at h
    obtain rfl := Except.ok.inj h
    exact .stop
  | n + 1, links, at_, goal, part :: rest, h => by
    rw [follow] at h
    split at h
    · exact absurd h (by simp)
    · rename_i mode hnode
      have hdir : d.IsDirectory at_ := ⟨mode, hnode⟩
      split at h
      · rename_i hpart
        exact .stay hdir (by simpa using hpart) (follows_of_follow h)
      · rename_i hpart
        have hpart : part ≠ "" ∧ part ≠ "." := by simpa using hpart
        split at h
        · rename_i hup
          obtain rfl : part = ".." := by simpa using hup
          exact .up hdir (follows_of_follow h)
        · rename_i hup
          split at h
          · exact absurd h (by simp)
          · rename_i hshort
            have hname : IsName part := ⟨hpart.1, hpart.2, by simpa using hup, by omega⟩
            simp only at h
            split at h
            · rename_i target hlink
              split at h
              · rename_i hend
                obtain ⟨hrest, hwhole⟩ : rest = [] ∧ whole = false := by simpa using hend
                subst hrest
                obtain rfl := Except.ok.inj h
                exact .atLink hdir hname hlink hwhole
              · rename_i hend
                have hgo : rest ≠ [] ∨ whole = true := by
                  by_cases hrest : rest = []
                  · exact .inr (by simpa [hrest] using hend)
                  · exact .inl hrest
                split at h
                · exact absurd h (by simp)
                · exact .link hdir hname hlink hgo (follows_of_follow h)
            · rename_i hlink
              exact .down hdir hname (fun t ht => hlink t ht) (follows_of_follow h)
    · exact absurd h (by simp)

section Step

variable {n links : Nat} {at_ : Place} {part : String} {rest : List String}

theorem follow_stay (hdir : d.IsDirectory at_) (hpart : part = "" ∨ part = ".") :
    d.follow whole (n + 1) links at_ (part :: rest) = d.follow whole n links at_ rest := by
  obtain ⟨mode, hnode⟩ := hdir
  rw [follow, hnode]
  simp only
  rw [if_pos (by simpa using hpart)]

theorem follow_up (hdir : d.IsDirectory at_) :
    d.follow whole (n + 1) links at_ (".." :: rest) = d.follow whole n links at_.dropLast rest := by
  obtain ⟨mode, hnode⟩ := hdir
  rw [follow, hnode]
  simp only
  rw [if_neg (by decide), if_pos (by decide)]

/-- What a name leads to, depending on what is there. -/
theorem follow_name (hdir : d.IsDirectory at_) (hname : IsName part) :
    d.follow whole (n + 1) links at_ (part :: rest) =
      match d.node? (at_ ++ [part]) with
      | some (.link target) =>
        if rest.isEmpty && !whole then .ok (at_ ++ [part])
        else match links with
          | 0 => .error .tooManyLinks
          | links + 1 =>
            d.follow whole n links (if Path.isAbsolute target then [] else at_) (Path.parts target ++ rest)
      | _ => d.follow whole n links (at_ ++ [part]) rest := by
  obtain ⟨mode, hnode⟩ := hdir
  have hshort := hname.short
  rw [follow, hnode]
  simp only
  have hplain : ¬ (part == "" || part == ".") = true := by simp [hname.ne_empty, hname.ne_current]
  have hdown : ¬ (part == "..") = true := by simp [hname.ne_parent]
  exact (if_neg hplain).trans ((if_neg hdown).trans (if_neg (by omega)))

end Step

/-- A search with so many steps that each part, also of the links that it may follow, can take one, goes
all of the way. -/
theorem Follows.follow {links : Nat} {at_ goal : Place} {parts : List String}
    (h : Follows d whole links at_ parts goal) {longest : Nat}
    (hlongest : ∀ q t, d.IsLink q t → (Path.parts t).length ≤ longest) :
    ∀ {n : Nat}, parts.length + links * longest < n → d.follow whole n links at_ parts = .ok goal := by
  induction h with
  | stop => intro n hn; obtain ⟨n, rfl⟩ := Nat.exists_eq_add_one.mpr (Nat.zero_lt_of_lt hn); rfl
  | stay hdir hpart _ ih =>
    intro n hn
    obtain ⟨n, rfl⟩ := Nat.exists_eq_add_one.mpr (Nat.zero_lt_of_lt hn)
    rw [List.length_cons] at hn
    rw [follow_stay hdir hpart]
    exact ih (by omega)
  | up hdir _ ih =>
    intro n hn
    obtain ⟨n, rfl⟩ := Nat.exists_eq_add_one.mpr (Nat.zero_lt_of_lt hn)
    rw [List.length_cons] at hn
    rw [follow_up hdir]
    exact ih (by omega)
  | down hdir hname hlink _ ih =>
    intro n hn
    obtain ⟨n, rfl⟩ := Nat.exists_eq_add_one.mpr (Nat.zero_lt_of_lt hn)
    rw [List.length_cons] at hn
    rw [follow_name hdir hname]
    split
    · rename_i t ht
      exact absurd ht (hlink t)
    · exact ih (by omega)
  | @link links at_ goal part target rest hdir hname hlink hgo _ ih =>
    intro n hn
    obtain ⟨n, rfl⟩ := Nat.exists_eq_add_one.mpr (Nat.zero_lt_of_lt hn)
    have htarget := hlongest _ _ hlink
    have hend : ¬ ((rest.isEmpty && !whole) = true) := by
      rcases hgo with hgo | rfl
      · simp [hgo]
      · simp
    rw [List.length_cons, Nat.add_mul, Nat.one_mul] at hn
    rw [follow_name hdir hname, hlink]
    simp only
    rw [if_neg hend]
    exact ih (by rw [List.length_append]; omega)
  | atLink hdir hname hlink hwhole =>
    intro n hn
    obtain ⟨n, rfl⟩ := Nat.exists_eq_add_one.mpr (Nat.zero_lt_of_lt hn)
    rw [follow_name hdir hname, hlink]
    simp [hwhole]

/-! ## The way and the search -/

/-- Where following a path starts. -/
def startOf (d : Disk) (path : String) : Place := if Path.isAbsolute path then [] else d.here

/-- A text that a path can be. -/
structure IsPath (path : String) : Prop where
  ne_empty : path ≠ ""
  no_zero : '\x00' ∉ path.toList
  short : path.utf8ByteSize ≤ maxPath

/-- `foldl max` is at least every number it goes over. -/
theorem le_longest {q : Place} {t : String} : ∀ {nodes : List (Place × DiskNode)} {m : Nat},
    (q, DiskNode.link t) ∈ nodes → (Path.parts t).length ≤ nodes.foldl (fun m e => match e.2 with
      | .link target => max m (Path.parts target).length
      | _ => m) m := by
  have hgrows : ∀ (nodes : List (Place × DiskNode)) (m : Nat),
      m ≤ nodes.foldl (fun m e => match e.2 with
        | .link target => max m (Path.parts target).length
        | _ => m) m := by
    intro nodes
    induction nodes with
    | nil => exact fun m => le_refl m
    | cons e nodes ih =>
      intro m
      refine le_trans ?_ (ih _)
      simp only
      split
      · exact le_max_left _ _
      · exact le_refl m
  intro nodes
  induction nodes with
  | nil => exact fun h => absurd h (by simp)
  | cons e nodes ih =>
    intro m h
    rcases List.mem_cons.mp h with rfl | h
    · exact le_trans (le_max_right _ _) (hgrows nodes _)
    · exact ih h

theorem mem_of_isLink {q : Place} {t : String} (h : d.IsLink q t) : (q, DiskNode.link t) ∈ d.nodes := by
  unfold IsLink node? at h
  split at h
  · exact absurd h (by simp)
  · exact mem_of_lookup h

theorem locate_eq_ok {path : String} {p : Place} :
    d.locate whole path = .ok p ↔
      IsPath path ∧ Follows d whole maxLinks (d.startOf path) (Path.parts path) p := by
  unfold locate
  split
  · rename_i h
    exact ⟨fun h => absurd h (by simp), fun h' => absurd (by simpa using h) h'.1.ne_empty⟩
  · rename_i hempty
    split
    · rename_i h
      exact ⟨fun h => absurd h (by simp), fun h' => absurd (by simpa using h) h'.1.no_zero⟩
    · rename_i hzero
      split
      · rename_i h
        exact ⟨fun h => absurd h (by simp), fun h' => absurd h'.1.short (by omega)⟩
      · rename_i hshort
        refine ⟨fun h => ⟨⟨by simpa using hempty, by simpa using hzero, by omega⟩, follows_of_follow h⟩,
          fun h => h.2.follow (fun q t hlink => le_longest (m := 0) (mem_of_isLink hlink)) ?_⟩
        exact Nat.lt_add_of_pos_right (by decide)

/-- A path that is too long leads nowhere. -/
theorem locate_of_long {path : String} (hzero : '\x00' ∉ path.toList) (hlong : maxPath < path.utf8ByteSize) :
    d.locate whole path = .error .nameTooLong := by
  have hempty : path ≠ "" := by rintro rfl; exact absurd hlong (by decide)
  rw [locate, if_neg (by simpa using hempty), if_neg (by simpa using hzero), if_pos hlong]

/-! ## What a way depends on -/

/-- The second disk has the directories of the first one, and the same links. -/
structure Ways (d d' : Disk) : Prop where
  here : d'.here = d.here
  directory : ∀ q, d.IsDirectory q → d'.IsDirectory q
  link : ∀ q t, d'.IsLink q t ↔ d.IsLink q t

namespace Ways

theorem refl (d : Disk) : Ways d d := ⟨rfl, fun _ h => h, fun _ _ => .rfl⟩

theorem trans {d'' : Disk} (h : Ways d d') (h' : Ways d' d'') : Ways d d'' :=
  ⟨h'.here.trans h.here, fun q hq => h'.directory q (h.directory q hq),
    fun q t => (h'.link q t).trans (h.link q t)⟩

end Ways

theorem Follows.mono {links : Nat} {at_ goal : Place} {parts : List String}
    (h : Follows d whole links at_ parts goal) (hways : Ways d d') :
    Follows d' whole links at_ parts goal := by
  induction h with
  | stop => exact .stop
  | stay hdir hpart _ ih => exact .stay (hways.directory _ hdir) hpart ih
  | up hdir _ ih => exact .up (hways.directory _ hdir) ih
  | down hdir hname hlink _ ih =>
    exact .down (hways.directory _ hdir) hname (fun t ht => hlink t ((hways.link _ t).mp ht)) ih
  | link hdir hname hlink hgo _ ih =>
    exact .link (hways.directory _ hdir) hname ((hways.link _ _).mpr hlink) hgo ih
  | atLink hdir hname hlink hwhole =>
    exact .atLink (hways.directory _ hdir) hname ((hways.link _ _).mpr hlink) hwhole

/-- A way was there before if its directories were and no link is new: where something was put in the place of a link,
the way ends. -/
theorem Follows.back {links : Nat} {at_ goal : Place} {parts : List String}
    (hdir : ∀ q, d'.IsDirectory q → d.IsDirectory q) (hlink : ∀ q t, d'.IsLink q t → d.IsLink q t)
    (h : Follows d' whole links at_ parts goal)
    (hgoal : whole = true → d'.IsDirectory goal) : Follows d whole links at_ parts goal := by
  induction h with
  | stop => exact .stop
  | stay hat hpart _ ih => exact .stay (hdir _ hat) hpart (ih hgoal)
  | up hat _ ih => exact .up (hdir _ hat) (ih hgoal)
  | @down _ at_ goal part rest hat hname hnode hrest ih =>
    by_cases hwas : ∃ t, d.IsLink (at_ ++ [part]) t
    · obtain ⟨t, ht⟩ := hwas
      have hno : ¬ d.IsDirectory (at_ ++ [part]) := fun ⟨mode, hmode⟩ => absurd (ht.symm.trans hmode) (by simp)
      cases hrest with
      | stop => exact .atLink (hdir _ hat) hname ht (by simpa using fun hwhole => hno (hdir _ (hgoal hwhole)))
      | stay hon | up hon | down hon | link hon | atLink hon => exact absurd (hdir _ hon) hno
    · exact .down (hdir _ hat) hname (fun t ht => hwas ⟨t, ht⟩) (ih hgoal)
  | link hat hname hnode hgo _ ih => exact .link (hdir _ hat) hname (hlink _ _ hnode) hgo (ih hgoal)
  | atLink hat hname hnode hwhole => exact .atLink (hdir _ hat) hname (hlink _ _ hnode) hwhole

/-- A path that leads somewhere leads there on every disk that has the same ways. -/
theorem locate_mono {path : String} {p : Place} (hways : Ways d d') (h : d.locate whole path = .ok p) :
    d'.locate whole path = .ok p := by
  obtain ⟨hpath, hfollows⟩ := locate_eq_ok.mp h
  refine locate_eq_ok.mpr ⟨hpath, ?_⟩
  rw [startOf, hways.here]
  exact hfollows.mono hways

/-! ## From a directory to a file in it -/

/-- One name more, behind a way that may end with an empty part. -/
theorem Follows.append {links : Nat} {at_ goal : Place} {tail ps : List String} {name : String}
    (htail : tail = [] ∨ tail = [""]) (hdir : d.IsDirectory goal) (hname : IsName name)
    (hlink : ∀ t, ¬ d.IsLink (goal ++ [name]) t)
    (h : Follows d true links at_ (ps ++ tail) goal) :
    Follows d whole links at_ (ps ++ [name]) (goal ++ [name]) := by
  generalize hparts : ps ++ tail = parts at h
  induction h generalizing ps with
  | stop =>
    obtain ⟨rfl, rfl⟩ := List.append_eq_nil_iff.mp hparts
    exact .down hdir hname hlink .stop
  | @stay links at_ goal part rest hat hpart hrest ih =>
    cases ps with
    | nil =>
      rcases htail with rfl | rfl
      · exact absurd hparts (by simp)
      · -- the empty part at the end is taken away, and what is left of the way is no step
        obtain ⟨rfl, rfl⟩ := List.cons.inj hparts
        cases hrest
        exact .down hdir hname hlink .stop
    | cons p ps =>
      obtain ⟨rfl, hrow⟩ := List.cons.inj (List.cons_append ▸ hparts)
      exact .stay hat hpart (ih hdir hlink hrow)
  | @up links at_ goal rest hat hrest ih =>
    cases ps with
    | nil => rcases htail with rfl | rfl <;> exact absurd hparts (by simp)
    | cons p ps =>
      obtain ⟨rfl, hrow⟩ := List.cons.inj (List.cons_append ▸ hparts)
      exact .up hat (ih hdir hlink hrow)
  | @down links at_ goal part rest hat hpart hnode hrest ih =>
    cases ps with
    | nil =>
      rcases htail with rfl | rfl
      · exact absurd hparts (by simp)
      · exact absurd (List.cons.inj hparts).1.symm hpart.ne_empty
    | cons p ps =>
      obtain ⟨rfl, hrow⟩ := List.cons.inj (List.cons_append ▸ hparts)
      exact .down hat hpart hnode (ih hdir hlink hrow)
  | @link links at_ goal part target rest hat hpart hnode hgo hrest ih =>
    cases ps with
    | nil =>
      rcases htail with rfl | rfl
      · exact absurd hparts (by simp)
      · exact absurd (List.cons.inj hparts).1.symm hpart.ne_empty
    | cons p ps =>
      obtain ⟨rfl, rfl⟩ := List.cons.inj (List.cons_append ▸ hparts)
      refine .link hat hpart hnode (.inl (by simp)) ?_
      change Follows d whole links _ (Path.parts target ++ (ps ++ [name])) _
      rw [← List.append_assoc]
      exact ih hdir hlink (List.append_assoc _ _ _)
  | atLink hat hpart hnode hwhole => exact absurd hwhole (by simp)

/-- The parts that come first lead to a directory if others come behind them. -/
theorem Follows.front {links : Nat} {at_ goal : Place} {ps qs : List String}
    (h : Follows d whole links at_ (ps ++ qs) goal) (hend : qs = [] → whole = true ∧ d.IsDirectory goal) :
    ∃ p, Follows d true links at_ ps p ∧ d.IsDirectory p := by
  generalize hparts : ps ++ qs = parts at h
  induction h generalizing ps with
  | stop =>
    obtain ⟨rfl, rfl⟩ := List.append_eq_nil_iff.mp hparts
    exact ⟨_, .stop, (hend rfl).2⟩
  | stay hat hpart hrest ih =>
    cases ps with
    | nil => exact ⟨_, .stop, hat⟩
    | cons p ps =>
      obtain ⟨rfl, hrow⟩ := List.cons.inj (List.cons_append ▸ hparts)
      obtain ⟨q, hq, hqdir⟩ := ih hend hrow
      exact ⟨q, .stay hat hpart hq, hqdir⟩
  | up hat hrest ih =>
    cases ps with
    | nil => exact ⟨_, .stop, hat⟩
    | cons p ps =>
      obtain ⟨rfl, hrow⟩ := List.cons.inj (List.cons_append ▸ hparts)
      obtain ⟨q, hq, hqdir⟩ := ih hend hrow
      exact ⟨q, .up hat hq, hqdir⟩
  | down hat hpart hnode hrest ih =>
    cases ps with
    | nil => exact ⟨_, .stop, hat⟩
    | cons p ps =>
      obtain ⟨rfl, hrow⟩ := List.cons.inj (List.cons_append ▸ hparts)
      obtain ⟨q, hq, hqdir⟩ := ih hend hrow
      exact ⟨q, .down hat hpart hnode hq, hqdir⟩
  | link hat hpart hnode hgo hrest ih =>
    cases ps with
    | nil => exact ⟨_, .stop, hat⟩
    | cons p ps =>
      obtain ⟨rfl, rfl⟩ := List.cons.inj (List.cons_append ▸ hparts)
      obtain ⟨q, hq, hqdir⟩ := ih hend (List.append_assoc _ _ _)
      exact ⟨q, .link hat hpart hnode (.inr rfl) hq, hqdir⟩
  | atLink hat hpart hnode hwhole =>
    cases ps with
    | nil => exact ⟨_, .stop, hat⟩
    | cons p ps =>
      -- the link is the last part, and behind it nothing comes
      obtain ⟨rfl, hrow⟩ := List.cons.inj (List.cons_append ▸ hparts)
      obtain ⟨-, rfl⟩ := List.append_eq_nil_iff.mp hrow
      exact absurd (hend rfl).1 (by simp [hwhole])

theorem parts_ne_nil (path : String) : Path.parts path ≠ [] := by
  rw [Path.parts, Ne, List.map_eq_nil_iff]
  exact List.splitOn_ne_nil _ _

/-- The last part of a way is a way of its own. -/
theorem Follows.last {links : Nat} {at_ goal : Place} {parts : List String} {part : String}
    (h : Follows d whole links at_ parts goal) (hlast : parts.getLast? = some part) :
    ∃ links' at', Follows d whole links' at' [part] goal := by
  have hrest : ∀ {first : String} {rest : List String}, (first :: rest).getLast? = some part →
      rest = [] ∧ first = part ∨ rest.getLast? = some part := by
    intro first rest h
    cases rest with
    | nil => exact .inl ⟨rfl, Option.some.inj h⟩
    | cons _ _ => exact .inr (by rwa [List.getLast?_cons_cons] at h)
  induction h with
  | stop => exact absurd hlast (by simp)
  | stay hat hpart hway ih =>
    rcases hrest hlast with ⟨rfl, rfl⟩ | hlast
    · exact ⟨_, _, .stay hat hpart hway⟩
    · exact ih hlast
  | up hat hway ih =>
    rcases hrest hlast with ⟨rfl, rfl⟩ | hlast
    · exact ⟨_, _, .up hat hway⟩
    · exact ih hlast
  | down hat hname hlink hway ih =>
    rcases hrest hlast with ⟨rfl, rfl⟩ | hlast
    · exact ⟨_, _, .down hat hname hlink hway⟩
    · exact ih hlast
  | link hat hname hlink hgo hway ih =>
    rcases hrest hlast with ⟨rfl, rfl⟩ | hlast
    · exact ⟨_, _, .link hat hname hlink hgo hway⟩
    · exact ih (by rw [List.getLast?_append, hlast]; rfl)
  | @atLink links _ _ _ hat hname hlink hwhole =>
    obtain rfl := Option.some.inj hlast
    exact ⟨links, _, .atLink hat hname hlink hwhole⟩

/-- A way that does not follow a link at its end leads to a place that is named as its last part, unless that part goes
elsewhere. -/
theorem Follows.getLastD {links : Nat} {at_ goal : Place} {parts : List String} {part : String}
    (h : Follows d false links at_ parts goal) (hlast : parts.getLast? = some part) :
    (part = "" ∨ part = ".") ∧ d.IsDirectory goal ∨ part = ".." ∨ goal.getLastD "" = part := by
  obtain ⟨links', at', hend⟩ := h.last hlast
  cases hend with
  | stay hat hpart hway =>
    cases hway
    exact .inl ⟨hpart, hat⟩
  | up => exact .inr (.inl rfl)
  | down _ _ _ hway =>
    cases hway
    exact .inr (.inr List.getLastD_concat)
  | link _ _ _ hgo => exact absurd hgo (by simp)
  | atLink => exact .inr (.inr List.getLastD_concat)

/-- A way leads to one place only. -/
theorem Follows.unique {links : Nat} {at_ p q : Place} {parts : List String}
    (hp : Follows d whole links at_ parts p) (hq : Follows d whole links at_ parts q) : p = q := by
  have hlongest : ∀ r t, d.IsLink r t → (Path.parts t).length ≤ d.nodes.foldl (fun m e => match e.2 with
      | .link target => max m (Path.parts target).length
      | _ => m) 0 := fun r t hlink => le_longest (mem_of_isLink hlink)
  have hfollow := hp.follow hlongest (Nat.lt_succ_self _)
  rw [hq.follow hlongest (Nat.lt_succ_self _)] at hfollow
  exact (Except.ok.inj hfollow).symm

/-! ## Directories -/

/-- A path leads to a directory. -/
structure Leads (d : Disk) (dir : String) (p : Place) : Prop where
  no_zero : '\x00' ∉ dir.toList
  follows : Follows d true maxLinks (d.startOf dir) (Path.parts dir) p
  directory : d.IsDirectory p

/-- The name of a file in a directory, as a path. -/
structure IsFileName (name : String) : Prop extends IsName name where
  no_slash : '/' ∉ name.toList
  no_zero : '\x00' ∉ name.toList

namespace Leads

variable {dir name : String} {p : Place}

theorem mono (h : Leads d dir p) (hways : Ways d d') : Leads d' dir p where
  no_zero := h.no_zero
  follows := by
    rw [startOf, hways.here]
    exact h.follows.mono hways
  directory := hways.directory p h.directory

/-- A path leads to no directory to which it did not lead before. -/
theorem back (hhere : d'.here = d.here) (hdir : ∀ q, d'.IsDirectory q → d.IsDirectory q)
    (hlink : ∀ q t, d'.IsLink q t → d.IsLink q t) (h : Leads d' dir p) : Leads d dir p where
  no_zero := h.no_zero
  follows := by
    rw [startOf, ← hhere]
    exact h.follows.back hdir hlink fun _ => h.directory
  directory := hdir p h.directory

theorem follows_join (h : Leads d dir p) (hname : IsFileName name)
    (hlink : ∀ t, ¬ d.IsLink (p ++ [name]) t) :
    Follows d whole maxLinks (d.startOf (Path.join dir name)) (Path.parts (Path.join dir name))
      (p ++ [name]) := by
  obtain ⟨-, habs, ps, tail, htail, hdir, hjoin⟩ := Path.join_cases dir hname.no_slash
  have hfollows := h.follows
  rw [hdir] at hfollows
  rw [startOf, habs, hjoin]
  exact hfollows.append htail h.directory hname.toIsName hlink

theorem no_zero_join (h : Leads d dir p) (hname : IsFileName name) :
    '\x00' ∉ (Path.join dir name).toList := by
  obtain ⟨⟨between, hjoin, -, hbetween⟩, -⟩ := Path.join_cases dir hname.no_slash
  simp [hjoin, h.no_zero, hbetween, hname.no_zero]

/-- **A file in a directory is where the directory is, and then its name**, unless a link is there or the
path is too long. -/
theorem locate_join (h : Leads d dir p) (hname : IsFileName name)
    (hlink : ∀ t, ¬ d.IsLink (p ++ [name]) t) (hshort : (Path.join dir name).utf8ByteSize ≤ maxPath) :
    d.locate whole (Path.join dir name) = .ok (p ++ [name]) := by
  refine locate_eq_ok.mpr ⟨⟨?_, h.no_zero_join hname, hshort⟩, h.follows_join hname hlink⟩
  obtain ⟨⟨between, hjoin, -⟩, -⟩ := Path.join_cases dir hname.no_slash
  simp [hjoin, hname.ne_empty]

/-- A directory in a directory. -/
theorem join (h : Leads d dir p) (hname : IsFileName name) (hdir : d.IsDirectory (p ++ [name])) :
    Leads d (Path.join dir name) (p ++ [name]) where
  no_zero := h.no_zero_join hname
  follows := h.follows_join hname fun t ht => by
    obtain ⟨mode, hmode⟩ := hdir
    rw [IsLink, hmode] at ht
    exact absurd ht (by simp)
  directory := hdir

end Leads

theorem size_join_le (dir : String) {name : String} (hname : '/' ∉ name.toList) :
    (Path.join dir name).utf8ByteSize ≤ dir.utf8ByteSize + 1 + name.utf8ByteSize := by
  obtain ⟨⟨between, hjoin, hsize, -⟩, -⟩ := Path.join_cases dir hname
  rw [hjoin, String.utf8ByteSize_append, String.utf8ByteSize_append]
  omega

end Disk

end LogHygiene
