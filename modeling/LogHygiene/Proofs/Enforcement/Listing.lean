import LogHygiene.Enforcement.Run
import LogHygiene.Proofs.Cache.Confining
import LogHygiene.Proofs.Disk.Renewal

/-!
# A store is not listed

A run that looks for files goes over all that is below the root, and the directory of a store may be there: under
the name that the settings give it, then it is passed over, or under another one. It makes no difference, since no
grammar reads what a store keeps. And no grammar reads a scratch file, so those that were left make no difference either
(`Grammar.ofPath?_join`):

> **with and without stores, the same files are found** (`Enforcer.filesOf_alike`).
-/

set_option autoImplicit false

namespace LogHygiene

open Disk Cache

/-! ## Names -/

theorem Path.getLast?_components {path part : String} {front : List String} {x : Component}
    (hparts : Path.parts path = front ++ [part]) (hpart : Path.component? part = some x) :
    (Path.components path).getLast? = some x := by
  have hlast : (front ++ [part]).filterMap Path.component? = front.filterMap Path.component? ++ [x] := by
    rw [List.filterMap_append, List.filterMap_cons_some hpart, List.filterMap_nil]
  simp only [Path.components, hparts, hlast]
  split
  · rw [← List.cons_append, List.getLast?_concat]
  · split
    · rw [← List.cons_append, List.getLast?_concat]
    · rw [List.getLast?_concat]

theorem Path.fileName?_of_parts {path name : String} {front : List String} (hparts : Path.parts path = front ++ [name])
    (hname : Path.component? name = some (.named name)) : Path.fileName? path = some name := by
  rw [Path.fileName?, Path.getLast?_components hparts hname]

/-- The name ends like that of a record or of a scratch file. -/
def Grammar.Skips (name : String) : Prop := ∃ stem ext, (ext = ".json" ∨ ext = ".tmp") ∧ name = stem ++ ext

/-- No grammar reads records or scratch files. -/
theorem Grammar.ofPath?_of_parts {path name : String} {front : List String} (h : Grammar.Skips name)
    (hparts : Path.parts path = front ++ [name]) : Grammar.ofPath? path = none := by
  obtain ⟨stem, ext, hext, rfl⟩ := h
  have hsize : 4 ≤ (stem ++ ext).length := by
    rw [String.length_append]
    rcases hext with rfl | rfl <;> exact Nat.le_add_left_of_le (by decide)
  have hlong : ∀ short : String, short.length < 4 → stem ++ ext ≠ short := by
    rintro short hshort rfl
    omega
  have hname : Path.component? (stem ++ ext) = some (.named (stem ++ ext)) := by
    rw [Path.component?, if_neg (by simp [hlong "" (by decide), hlong "." (by decide)]),
      if_neg (by simp [hlong ".." (by decide)])]
  obtain ⟨front', hback, hplain, hunknown⟩ : ∃ back : List Char,
      (stem ++ ext).toList.reverse = back ++ '.' :: stem.toList.reverse ∧ (∀ c ∈ back, (c != '.') = true) ∧
        Grammar.ofExtension? (String.ofList back.reverse) = none := by
    rw [String.toList_append, List.reverse_append]
    rcases hext with rfl | rfl
    · exact ⟨['n', 'o', 's', 'j'], rfl, List.all_eq_true.mp rfl, by decide⟩
    · exact ⟨['p', 'm', 't'], rfl, List.all_eq_true.mp rfl, by decide⟩
  rw [Grammar.ofPath?, Path.extension?, Path.fileName?_of_parts hparts hname]
  simp only [bind, Option.bind_some, hback]
  split
  · rw [Option.bind_some, List.takeWhile_append_of_pos hplain, List.takeWhile_cons_of_neg (by decide), List.append_nil]
    exact hunknown
  · rfl

/-- No grammar reads a path that goes up in the end. -/
theorem Grammar.ofPath?_of_parent {path : String} {front : List String} (hparts : Path.parts path = front ++ [".."]) :
    Grammar.ofPath? path = none := by
  rw [Grammar.ofPath?, Path.extension?, Path.fileName?, Path.getLast?_components hparts (x := .parent) (by decide)]
  rfl

theorem Grammar.ofPath?_join (dir : String) {name : String} (h : Grammar.Skips name)
    (hname : Path.isAbsolute name = false) :
    Grammar.ofPath? (Path.join dir name) = none := by
  obtain ⟨-, -, ps, tail, -, -, hjoin⟩ := Path.join_relative dir hname
  obtain ⟨stem, ext, hext, rfl⟩ := h
  obtain ⟨front, last, -, hparts⟩ := Path.parts_append_plain stem
    (show '/' ∉ ext.toList by rcases hext with rfl | rfl <;> decide)
  rw [hparts, ← List.append_assoc] at hjoin
  exact Grammar.ofPath?_of_parts ⟨last, ext, hext, rfl⟩ hjoin

theorem IsScratchName.skips {process : Nat} {name : String} (h : IsScratchName process name) : Grammar.Skips name := by
  obtain ⟨serial, base, rfl⟩ := h
  exact ⟨_, ".tmp", .inr rfl, rfl⟩

theorem IsScratchName.not_isAbsolute {process : Nat} {name : String} (h : IsScratchName process name) :
    Path.isAbsolute name = false := by
  rw [Path.isAbsolute, h.starts]
  rfl

namespace Selection.Selector

variable {s : Selector} {path name : String}

theorem root_eq {root : String} {config : Config} {patterns : List String}
    (h : ofConfig root config patterns = .ok s) : s.root = root := by
  rw [ofConfig] at h
  simp only [bind, Except.bind] at h
  split at h
  · exact absurd h (by simp)
  · split at h
    · exact absurd h (by simp)
    · rw [← Except.ok.inj h]

/-- The files that one entry of a directory stands for. -/
def filesAt (s : Selector) (path : String) : String × DirectoryTree → List String
  | (name, .directory entries) =>
    if s.denies (Path.join path name) name then [] else s.filesBelow (Path.join path name) entries
  | (name, .file) => if s.accepts (Path.join path name) then [Path.join path name] else []
  | (_, .link) => []

theorem filesBelow_nil (s : Selector) (path : String) : s.filesBelow path [] = [] := by
  rw [filesBelow.eq_def s path []]

theorem filesBelow_eq_flatMap (s : Selector) (path : String) : ∀ entries : List (String × DirectoryTree),
    s.filesBelow path entries = entries.flatMap (s.filesAt path)
  | [] => s.filesBelow_nil path
  | (name, .directory entries) :: rest => by
    rw [filesBelow.eq_def s path ((name, .directory entries) :: rest), List.flatMap_cons,
      ← filesBelow_eq_flatMap s path rest]
    rfl
  | (name, .file) :: rest => by
    rw [filesBelow.eq_def s path ((name, .file) :: rest), List.flatMap_cons, ← filesBelow_eq_flatMap s path rest]
    rfl
  | (name, .link) :: rest => by
    rw [filesBelow.eq_def s path ((name, .link) :: rest), List.flatMap_cons, ← filesBelow_eq_flatMap s path rest]
    rfl

/-- An empty directory stands for no file. -/
theorem filesAt_empty (s : Selector) (path name : String) : s.filesAt path (name, .directory []) = [] := by
  rw [filesAt, filesBelow_nil, ite_self]

/-- A file that no grammar reads stands for none. -/
theorem filesAt_file (s : Selector) (path : String) (h : Grammar.Skips name) (hname : Path.isAbsolute name = false) :
    s.filesAt path (name, .file) = [] := by
  rw [filesAt, accepts, Grammar.ofPath?_join path h hname]
  rfl

end Selection.Selector

/-! ## Directories -/

namespace Disk

variable {d e : Disk} {m : Mishaps} {stores : List Place} {p q : Place} {name : String}

/-- What is in a directory, each at most so deep. -/
def below (d : Disk) (n : Nat) (p : Place) : List (String × DirectoryTree) :=
  (d.entries p).map fun name => (name, d.treeAt n (p ++ [name]))

/-- So deep goes nothing on the disk, seen from a place. -/
def Deep (d : Disk) (n : Nat) (p : Place) : Prop := ∀ x ∈ d.nodes, x.1.length < n + p.length

theorem Deep.step {n : Nat} (h : Deep d (n + 1) p) (name : String) : Deep d n (p ++ [name]) := by
  intro x hx
  have hlt := h x hx
  rw [List.length_append, List.length_singleton]
  omega

/-- What is in a directory can be looked at. -/
theorem Deep.pos {n : Nat} (h : Deep d n p) (hname : name ∈ d.entries p) : ∃ m, n = m + 1 := by
  obtain ⟨node, hnode⟩ := mem_entries.mp hname
  have hlt := h _ hnode
  rw [List.length_append, List.length_singleton] at hlt
  exact Nat.exists_eq_add_one.mpr (by omega)

theorem length_le_deepest {x : Place × DiskNode} : ∀ {nodes : List (Place × DiskNode)} {m : Nat}, x ∈ nodes →
    x.1.length ≤ nodes.foldl (fun m e => max m e.1.length) m := by
  have hgrows : ∀ (nodes : List (Place × DiskNode)) (m : Nat),
      m ≤ nodes.foldl (fun m e => max m e.1.length) m := by
    intro nodes
    induction nodes with
    | nil => exact fun m => le_refl m
    | cons e nodes ih => exact fun m => le_trans (le_max_left _ _) (ih _)
  intro nodes
  induction nodes with
  | nil => exact fun h => absurd h (by simp)
  | cons e nodes ih =>
    intro m h
    rcases List.mem_cons.mp h with rfl | h
    · exact le_trans (le_max_right _ _) (hgrows nodes _)
    · exact ih h

theorem treeAt_directory {n mode : Nat} (h : d.node? p = some (.directory mode)) :
    d.treeAt (n + 1) p = .directory (d.below n p) := by rw [treeAt, h]; rfl

theorem treeAt_file {n mode : Nat} {body : Bytes} {modified : Instant}
    (h : d.node? p = some (.file body mode modified)) : d.treeAt (n + 1) p = .file := by rw [treeAt, h]

/-- The files of a store have names that no grammar reads. -/
theorem IsStored.skips {node : DiskNode} (h : IsStored q node) : (∃ mode, node = .directory mode ∧ q = ["blobs"]) ∨
    (∃ body mode modified, node = .file body mode modified) ∧ Grammar.Skips (q.getLastD "") ∧
      Path.isAbsolute (q.getLastD "") = false := by
  cases h with
  | blobs mode => exact .inl ⟨mode, rfl, rfl⟩
  | index => exact .inr ⟨⟨_, _, _, rfl⟩, ⟨"index", ".json", .inl rfl, rfl⟩, by decide⟩
  | blob hkey =>
    exact .inr ⟨⟨_, _, _, rfl⟩, ⟨_, ".json", .inl rfl, rfl⟩, Path.isAbsolute_of_plain hkey.isFileName.no_slash⟩
  | indexScratch hleft | blobScratch hleft =>
    obtain ⟨process, hscratch⟩ := hleft.scratch
    exact .inr ⟨⟨_, _, _, rfl⟩, hscratch.skips, hscratch.not_isAbsolute⟩

/-- **No file that a grammar reads is in a store**, and no link with a name that a grammar reads. -/
theorem isApart_of_grammar {put : Deposits} {path : String} (hcontents : ∀ p ∈ stores, Contents put p d)
    (hlocate : d.locate false path = .ok q) (hnode : d.node? q ≠ none) (hdir : ¬ d.IsDirectory q)
    (hgrammar : Grammar.ofPath? path ≠ none) : isApart stores q := by
  rw [isApart_iff]
  intro p hp hbelow
  obtain ⟨r, hr, rfl⟩ := isBelow_iff.mp hbelow
  obtain ⟨node, hnode⟩ := Option.ne_none_iff_exists'.mp hnode
  have hskips : Grammar.Skips (r.getLastD "") := by
    rcases IsStored.skips ((hcontents p hp).inside r node hr hnode) with ⟨mode, rfl, -⟩ | ⟨-, hskips, -⟩
    · exact absurd ⟨mode, hnode⟩ hdir
    · exact hskips
  rcases List.eq_nil_or_concat' (Path.parts path) with hnil | ⟨front, part, hparts⟩
  · exact absurd hnil (parts_ne_nil path)
  · have hlast : (Path.parts path).getLast? = some part := by rw [hparts, List.getLast?_concat]
    rcases (locate_eq_ok.mp hlocate).2.getLastD hlast with ⟨-, hthere⟩ | rfl | hname
    · exact hdir hthere
    · exact hgrammar (Grammar.ofPath?_of_parent hparts)
    · rw [List.getLastD_eq_getLast?, List.getLast?_append_of_ne_nil _ hr, ← List.getLastD_eq_getLast?] at hname
      exact hgrammar (Grammar.ofPath?_of_parts (hname ▸ hskips) hparts)

/-- What is in a store is no file to look at. -/
theorem filesAt_store {put : Deposits} (h : Contents put p d) (s : Selection.Selector) (path : String) (n : Nat)
    (hname : name ∈ d.entries (p ++ q)) (hblobs : q ++ [name] ≠ ["blobs"]) :
    s.filesAt path (name, d.treeAt n (p ++ q ++ [name])) = [] := by
  obtain ⟨node, hnode⟩ := mem_entries.mp hname
  obtain ⟨node', hnode'⟩ := Option.isSome_iff_exists.mp (node?_isSome hnode)
  cases n with
  | zero => exact s.filesAt_empty path name
  | succ n =>
    rcases IsStored.skips (h.inside (q ++ [name]) node' (by simp) (by rwa [← List.append_assoc])) with
      ⟨-, -, hq⟩ | ⟨⟨body, mode, modified, rfl⟩, hskips, habsolute⟩
    · exact absurd hq hblobs
    · rw [List.getLastD_concat] at hskips habsolute
      rw [treeAt_file hnode']
      exact s.filesAt_file path hskips habsolute

/-- Nothing in a store is looked for. -/
theorem filesBelow_store {put : Deposits} (h : Contents put p d) (s : Selection.Selector) (path : String) (n : Nat) :
    s.filesBelow path (d.below n p) = [] := by
  have hblobs : ∀ path n, s.filesBelow path (d.below n (p ++ ["blobs"])) = [] := by
    intro path n
    rw [s.filesBelow_eq_flatMap, List.flatMap_eq_nil_iff]
    intro x hx
    obtain ⟨name, hname, rfl⟩ := List.mem_map.mp hx
    exact filesAt_store h s path n hname (by simp)
  rw [s.filesBelow_eq_flatMap, List.flatMap_eq_nil_iff]
  intro x hx
  obtain ⟨name, hname, rfl⟩ := List.mem_map.mp hx
  by_cases hname' : name = "blobs"
  · subst hname'
    obtain ⟨node, hnode⟩ := mem_entries.mp hname
    obtain ⟨node', hnode'⟩ := Option.isSome_iff_exists.mp (node?_isSome hnode)
    obtain ⟨mode, rfl⟩ := (h.inside ["blobs"] node' (by simp) hnode').of_blobs
    cases n with
    | zero => exact s.filesAt_empty path "blobs"
    | succ n =>
      rw [treeAt_directory hnode', Selection.Selector.filesAt]
      split
      · rfl
      · exact hblobs _ n
  · have hentry := filesAt_store (q := []) h s path n (by rwa [List.append_nil]) (by simpa using hname')
    rwa [List.append_nil] at hentry

/-- At the place of a scratch file is no file to look at. -/
theorem filesAt_scratch (h : Cleared m d (p ++ [name])) (hscratch : d.IsScratch (p ++ [name])) (s : Selection.Selector)
    (path : String) (n : Nat) : s.filesAt path (name, d.treeAt n (p ++ [name])) = [] := by
  rw [IsScratch, List.getLastD_concat] at hscratch
  cases n with
  | zero => exact s.filesAt_empty path name
  | succ n =>
    rcases h with hnone | ⟨-, body, mode, modified, hfile⟩
    · rw [treeAt, hnone]
      rfl
    · rw [treeAt_file hfile]
      exact s.filesAt_file path hscratch.skips hscratch.not_isAbsolute

/-- What is in a directory that is apart, and that is not one of a store, is apart too. -/
theorem isApart_child (hp : ∀ r ∈ stores, ¬ r <+: p) (name : String) : Disk.isApart stores (p ++ [name]) := by
  rw [isApart_iff]
  intro r hr hbelow
  simp only [isBelow, List.dropLast_concat, Bool.and_eq_true, List.isPrefixOf_iff_prefix] at hbelow
  exact hp r hr hbelow.2

open Classical in
/-- What is in a directory, but for scratch files. -/
noncomputable def plainEntries (d : Disk) (p : Place) : List String :=
  (d.entries p).filter fun name => !decide (IsScratchName d.process name)

/-- Scratch files make no difference to what is found. -/
theorem filesBelow_plain (h : ∀ name, d.IsScratch (p ++ [name]) → Cleared m d (p ++ [name])) (s : Selection.Selector)
    (path : String) (n : Nat) : s.filesBelow path (d.below n p) =
      (d.plainEntries p).flatMap fun name => s.filesAt path (name, d.treeAt n (p ++ [name])) := by
  classical
  have hfilter : ∀ names : List String, (names.flatMap fun name => s.filesAt path (name, d.treeAt n (p ++ [name]))) =
      (names.filter fun name => !decide (IsScratchName d.process name)).flatMap fun name =>
        s.filesAt path (name, d.treeAt n (p ++ [name])) := by
    intro names
    induction names with
    | nil => rfl
    | cons name names ih =>
      rw [List.flatMap_cons, ih, List.filter_cons]
      by_cases hname : IsScratchName d.process name
      · have hscratch : d.IsScratch (p ++ [name]) := by rwa [IsScratch, List.getLastD_concat]
        rw [filesAt_scratch (h name hscratch) hscratch s path n, if_neg (by simpa using hname), List.nil_append]
      · rw [if_pos (by simpa using hname), List.flatMap_cons]
  rw [s.filesBelow_eq_flatMap, below, List.flatMap_map]
  exact hfilter _

namespace Alike

theorem plainEntries (h : Alike m stores d e) (hp : ∀ r ∈ stores, ¬ r <+: p) : d.plainEntries p = e.plainEntries p := by
  have hcount : ∀ d : Disk, d.plainEntries p = (d.apart m stores).filterMap fun x =>
      if x.1.dropLast == p && !x.1.isEmpty then x.1.getLast? else none := by
    intro d
    rw [Disk.plainEntries, Disk.entries, Disk.apart, List.filterMap_map, List.filterMap_filter, List.filter_filterMap]
    refine List.filterMap_congr fun x _ => ?_
    obtain ⟨q, node⟩ := x
    simp only [Function.comp_apply]
    by_cases hchild : (q.dropLast == p && !q.isEmpty) = true
    · obtain ⟨hdrop, hne⟩ := Bool.and_eq_true_iff.mp hchild
      obtain ⟨name, hq⟩ : ∃ name, q = p ++ [name] := by
        refine ⟨q.getLast (by simpa using hne), ?_⟩
        rw [← beq_iff_eq.mp hdrop, List.dropLast_append_getLast]
      subst hq
      have hapart := isApart_child hp name
      rw [if_pos hchild, List.getLast?_concat, Option.filter_some, isCompared, hapart, List.getLastD_concat,
        Bool.true_and]
    · rw [if_neg hchild, Option.filter_none, ite_self]
  rw [hcount d, hcount e, h.nodes]

/-- No place in a store is on the disk without stores. -/
theorem entries_store (h : Alike m stores d e) (hp : p ∈ stores) : e.entries p = [] := by
  refine List.eq_nil_iff_forall_not_mem.mpr fun name hname => ?_
  obtain ⟨node, hnode⟩ := mem_entries.mp hname
  have hnone := h.bare (p ++ [name]) (not_isApart_iff.mpr ⟨p, hp, [name], by simp, rfl⟩)
  exact absurd hnone (Option.isSome_iff_ne_none.mp (node?_isSome hnode))

theorem not_prefix (hp : Disk.isApart stores p) (hstore : p ∉ stores) : ∀ r ∈ stores, ¬ r <+: p := by
  rintro r hr ⟨s, rfl⟩
  cases s with
  | nil => exact hstore (by rwa [List.append_nil])
  | cons name s => exact isApart_iff.mp hp r hr (isBelow_iff.mpr ⟨_, by simp, rfl⟩)

/-- **Below a place that is apart the same files are found.** -/
theorem filesBelow {put : Deposits} (h : Alike m stores d e) (hcontents : ∀ p ∈ stores, Contents put p d)
    (s : Selection.Selector) (n : Nat) : ∀ {m : Nat} {p : Place} (path : String), Disk.isApart stores p → Deep d n p →
      Deep e m p → s.filesBelow path (d.below n p) = s.filesBelow path (e.below m p) := by
  induction n using Nat.strong_induction_on with
  | _ n ih =>
    intro m p path hp hn hm
    by_cases hstore : p ∈ stores
    · rw [filesBelow_store (hcontents p hstore), below, h.entries_store hstore, List.map_nil, s.filesBelow_nil]
    · have hprefix := not_prefix hp hstore
      have hentries := h.plainEntries hprefix
      have hscratch := fun name => h.scratch (p ++ [name]) (isApart_child hprefix name)
      rw [filesBelow_plain (fun name hname => (hscratch name hname).1),
        filesBelow_plain (fun name hname => (hscratch name (h.isScratch.mpr hname)).2), ← hentries]
      refine List.flatMap_congr fun name hname => ?_
      have hentry : name ∈ e.plainEntries p := hentries ▸ hname
      obtain ⟨n, rfl⟩ := hn.pos (List.mem_of_mem_filter hname)
      obtain ⟨m, rfl⟩ := hm.pos (List.mem_of_mem_filter hentry)
      have hplain : ¬ d.IsScratch (p ++ [name]) := by
        rw [IsScratch, List.getLastD_concat]
        simpa using (List.mem_filter.mp hname).2
      have hchild := isApart_child hprefix name
      cases hnode : e.node? (p ++ [name]) with
      | none => rw [treeAt, treeAt, hnode, (h.free hchild hplain).mpr hnode]
      | some node =>
        cases node with
        | file body mode modified =>
          obtain ⟨mode', modified', hnode', -⟩ := h.file (fun hscratch => hplain (h.isScratch.mpr hscratch)) hnode
          rw [treeAt_file hnode, treeAt_file hnode']
        | directory mode =>
          obtain ⟨mode', hnode'⟩ := h.directory ⟨mode, hnode⟩
          rw [treeAt_directory hnode, treeAt_directory hnode', Selection.Selector.filesAt, Selection.Selector.filesAt,
            ih n (Nat.lt_succ_self n) _ hchild (hn.step name) (hm.step name)]
        | link t =>
          have hnode' : d.node? (p ++ [name]) = some (.link t) := h.isLink_iff.mpr hnode
          rw [treeAt, treeAt, hnode, hnode']

/-- **Below a path to a directory the same files are found.** -/
theorem tree {put : Deposits} (h : Alike m stores d e) (hcontents : ∀ p ∈ stores, Contents put p d)
    (s : Selection.Selector) {root : String} (hroot : Leads e root p) :
    (d.tree root).map (s.filesIn root) = (e.tree root).map (s.filesIn root) := by
  have hdeep : ∀ (d : Disk) (p : Place), Deep d (d.nodes.foldl (fun m e => max m e.1.length) 0 + 1) p := by
    intro d p x hx
    have hle := length_le_deepest (m := 0) hx
    omega
  obtain ⟨mode, he⟩ := hroot.directory
  obtain ⟨mode', hd⟩ := h.directory hroot.directory
  have hfound := h.filesBelow hcontents s _ root (h.isApart (by rw [he]; simp)) (hdeep d p) (hdeep e p)
  by_cases hpath : IsPath root
  · have hlocate : e.locate true root = .ok p := locate_eq_ok.mpr ⟨hpath, hroot.follows⟩
    obtain ⟨q, hq, hends⟩ := hroot.follows.entry
    have hlocate' : e.locate false root = .ok q := locate_eq_ok.mpr ⟨hpath, hq⟩
    rw [Disk.tree, Disk.tree, hlocate', locate_mono h.ways hlocate']
    rcases hends with rfl | ⟨t, -, hlink, -⟩
    · simp only [bind, Except.bind, hd, he, pure, Except.pure, treeAt_directory hd, treeAt_directory he, Except.map]
      exact congrArg Except.ok hfound
    · have hlink' := h.isLink_iff.mpr hlink
      rw [IsLink] at hlink hlink'
      rw [visit, visit, hlocate, locate_mono h.ways hlocate]
      simp only [bind, Except.bind, hlink, hlink', hd, he, pure, Except.pure, treeAt_directory hd, treeAt_directory he,
        Except.map]
      exact congrArg Except.ok hfound
  · have hno : ∃ f, ∀ d : Disk, d.locate false root = .error f := by
      by_cases hempty : root = ""
      · exact ⟨.notFound, fun d => by rw [hempty]; rfl⟩
      · exact ⟨.nameTooLong, fun d => locate_of_long hroot.no_zero
          (by by_contra hlong; exact hpath ⟨hempty, hroot.no_zero, by omega⟩)⟩
    obtain ⟨f, hf⟩ := hno
    rw [Disk.tree, Disk.tree, hf, hf]
    rfl

end Alike

end Disk

/-! ## Runs -/

/-- **With and without stores, the same files are found.** -/
theorem Enforcer.filesOf_alike {m : Mishaps} {stores : List Place} {put : Deposits} {w wU : World} {root : Place}
    {c : Conditions} {e : Enforcer} (h : Disk.Alike m stores w.disk wU.disk)
    (hcontents : ∀ p ∈ stores, Contents put p w.disk) (hroot : Leads wU.disk e.project.root root) (target : Target) :
    ((e.filesOf target).run (World.answerUnder c) w).1 = ((e.filesOf target).run (World.answerUnder c) wU).1 := by
  unfold Enforcer.filesOf
  cases target with
  | files paths => rfl
  | matching patterns =>
    simp only
    cases hselector : Selection.Selector.ofConfig e.project.root e.project.config patterns with
    | error fault => rfl
    | ok s =>
      have hsroot := Selection.Selector.root_eq hselector
      have htree := h.tree hcontents s (hsroot ▸ hroot)
      have hasked : ∀ w : World,
          (Procedure.request (.tree s.root)).run (World.answerUnder c) w = (w.disk.tree s.root, w) := fun _ => rfl
      simp only [Procedure.run_bind, hasked]
      cases hd : w.disk.tree s.root with
      | error f =>
        cases he : wU.disk.tree s.root with
        | error f' =>
          rw [hd, he] at htree
          obtain rfl := Except.error.inj htree
          rfl
        | ok t' => rw [hd, he] at htree; exact absurd htree (by simp [Except.map])
      | ok t =>
        cases he : wU.disk.tree s.root with
        | error f' => rw [hd, he] at htree; exact absurd htree (by simp [Except.map])
        | ok t' =>
          rw [hd, he] at htree
          have hfiles : s.filesIn s.root t = s.filesIn s.root t' := Except.ok.inj htree
          simp only [Selection.Selector.collect, hfiles, Procedure.run_pure]

end LogHygiene
