import LogHygiene.Proofs.Enforcement.Listing
import LogHygiene.Proofs.Logger.Naming
import LogHygiene.Proofs.Selection.Shown
import LogHygiene.Proofs.Selection.Sorting

/-!
# Which files are found

The search goes into a directory or passes it over, and says of each file that it meets whether it is looked for. What
comes of that can be said without a search: a file is found if it is looked for and no directory between the root and the
file is passed over.

> **exactly these files are found, in order, each once** (`collect_selected`).

What a pattern is held against is the text that is *shown* for a file. That is its path from the root, as long as no name
on the way has a backslash.
-/

set_option autoImplicit false

namespace LogHygiene

/-! ## Rows of names -/

/-- What an entry of a directory may be called. -/
@[mk_iff]
structure IsEntryName (name : String) : Prop where
  ne_empty : name ≠ ""
  ne_current : name ≠ "."
  ne_parent : name ≠ ".."
  no_slash : '/' ∉ name.toList

instance (name : String) : Decidable (IsEntryName name) := decidable_of_iff _ (isEntryName_iff name).symm

namespace DirectoryTree

/-- A row of names leads from a directory to something below it. -/
inductive Holds : List (String × DirectoryTree) → List String → DirectoryTree → Prop
  | here {entries : List (String × DirectoryTree)} {name : String} {t : DirectoryTree} :
      (name, t) ∈ entries → Holds entries [name] t
  | down {entries inner : List (String × DirectoryTree)} {name : String} {names : List String} {t : DirectoryTree} :
      (name, .directory inner) ∈ entries → Holds inner names t → Holds entries (name :: names) t

/-- Each entry has a name of its own in its directory. -/
def IsLegal : List (String × DirectoryTree) → Prop
  | [] => True
  | (name, .directory inner) :: rest =>
    IsEntryName name ∧ name ∉ rest.map Prod.fst ∧ IsLegal inner ∧ IsLegal rest
  | (name, .file) :: rest => IsEntryName name ∧ name ∉ rest.map Prod.fst ∧ IsLegal rest
  | (name, .link) :: rest => IsEntryName name ∧ name ∉ rest.map Prod.fst ∧ IsLegal rest

variable {entries inner rest : List (String × DirectoryTree)} {names : List String} {name : String}
  {t t' : DirectoryTree}

theorem not_holds_nil : ¬ Holds [] names t := by
  intro h
  cases h with
  | here h => exact absurd h (by simp)
  | down h _ => exact absurd h (by simp)

/-- What is in a directory is the first entry, in the first entry or in the rest. -/
theorem holds_cons : Holds ((name, t') :: rest) names t ↔
    (names = [name] ∧ t = t') ∨
    (∃ inner names', t' = .directory inner ∧ names = name :: names' ∧ Holds inner names' t) ∨ Holds rest names t := by
  constructor
  · intro h
    cases h with
    | here h =>
      rcases List.mem_cons.mp h with heq | h
      · cases heq
        exact .inl ⟨rfl, rfl⟩
      · exact .inr (.inr (.here h))
    | down h hinner =>
      rcases List.mem_cons.mp h with heq | h
      · cases heq
        exact .inr (.inl ⟨_, _, rfl, rfl, hinner⟩)
      · exact .inr (.inr (.down h hinner))
  · rintro (⟨rfl, rfl⟩ | ⟨inner, names', rfl, rfl, hinner⟩ | h)
    · exact .here List.mem_cons_self
    · exact .down List.mem_cons_self hinner
    · cases h with
      | here h => exact .here (List.mem_cons_of_mem _ h)
      | down h hinner => exact .down (List.mem_cons_of_mem _ h) hinner

/-- The files in a directory are its first entry, those in its first entry and those in the rest. -/
theorem exists_holds_cons {P : List String → Prop} : (∃ names, Holds ((name, t) :: rest) names .file ∧ P names) ↔
    (t = .file ∧ P [name] ∨ ∃ inner, t = .directory inner ∧ ∃ names, Holds inner names .file ∧ P (name :: names)) ∨
      ∃ names, Holds rest names .file ∧ P names := by
  constructor
  · rintro ⟨names, h, hP⟩
    rcases holds_cons.mp h with ⟨rfl, hfile⟩ | ⟨inner, names', rfl, rfl, hinner⟩ | hlater
    · exact .inl (.inl ⟨hfile.symm, hP⟩)
    · exact .inl (.inr ⟨inner, rfl, names', hinner, hP⟩)
    · exact .inr ⟨names, hlater, hP⟩
  · rintro ((⟨rfl, hP⟩ | ⟨inner, rfl, names, hinner, hP⟩) | ⟨names, hlater, hP⟩)
    · exact ⟨[name], holds_cons.mpr (.inl ⟨rfl, rfl⟩), hP⟩
    · exact ⟨name :: names, holds_cons.mpr (.inr (.inl ⟨inner, names, rfl, rfl, hinner⟩)), hP⟩
    · exact ⟨names, holds_cons.mpr (.inr (.inr hlater)), hP⟩

theorem Holds.head_mem (h : Holds entries (name :: names) t) : name ∈ entries.map Prod.fst := by
  cases h with
  | here h => exact List.mem_map_of_mem h
  | down h _ => exact List.mem_map_of_mem h

theorem Holds.ne_nil (h : Holds entries names t) : names ≠ [] := by
  cases h <;> simp

theorem isLegal_nil : IsLegal [] := by
  rw [IsLegal]
  trivial

theorem isLegal_cons : IsLegal ((name, t) :: rest) ↔ IsEntryName name ∧ name ∉ rest.map Prod.fst ∧
    (∀ inner, t = .directory inner → IsLegal inner) ∧ IsLegal rest := by
  cases t with
  | directory inner =>
    rw [IsLegal]
    simp only [directory.injEq, forall_eq']
  | _ =>
    rw [IsLegal]
    simp only [reduceCtorEq, false_implies, forall_const, true_and]

theorem IsLegal.isEntryName : ∀ {entries : List (String × DirectoryTree)} {names : List String}, IsLegal entries →
    Holds entries names t → ∀ name ∈ names, IsEntryName name
  | [], _, _, h => absurd h not_holds_nil
  | (first, t') :: rest, names, hlegal, h => by
    obtain ⟨hfirst, -, hinner, hrest⟩ := isLegal_cons.mp hlegal
    rcases holds_cons.mp h with ⟨rfl, -⟩ | ⟨inner, names', rfl, rfl, hbelow⟩ | hlater
    · exact List.forall_mem_singleton.mpr hfirst
    · exact List.forall_mem_cons.mpr ⟨hfirst, IsLegal.isEntryName (hinner inner rfl) hbelow⟩
    · exact IsLegal.isEntryName hrest hlater

end DirectoryTree

/-! ## Paths to what is below a directory -/

namespace Path

variable {dir name : String} {names : List String}

/-- The path to what a row of names leads to. -/
def under (dir : String) (names : List String) : String := names.foldl Path.join dir

theorem components_join_name (dir : String) (h : IsEntryName name) :
    components (Path.join dir name) = components dir ++ [.named name] := by
  obtain ⟨-, habsolute, ps, tail, htail, hdir, hjoin⟩ := join_cases dir h.no_slash
  have hcomponent : component? name = some (.named name) := by
    simp [component?, h.ne_empty, h.ne_current, h.ne_parent]
  have hhollow : tail.filterMap component? = [] := by
    rcases htail with rfl | rfl
    · rfl
    · rfl
  have hmeant : (ps ++ [name]).filterMap component? = (ps ++ tail).filterMap component? ++ [.named name] := by
    rw [List.filterMap_append, List.filterMap_append, hhollow, List.append_nil, List.filterMap_cons_some hcomponent,
      List.filterMap_nil]
  -- a name in front of which there is nothing is no `.`
  have hcurrent : ((ps ++ [name]).head? == some ".") = ((ps ++ tail).head? == some ".") := by
    cases ps with
    | cons p ps => rfl
    | nil =>
      have hname : (some name == some ".") = false := beq_false_of_ne fun heq => h.ne_current (Option.some.inj heq)
      rcases htail with rfl | rfl
      · exact hname
      · exact hname
  simp only [components, habsolute, hjoin, hdir, hmeant, hcurrent]
  split
  · rfl
  · split
    · rfl
    · rfl

theorem component?_of_isEntryName (h : IsEntryName name) : component? name = some (.named name) := by
  simp [component?, h.ne_empty, h.ne_current, h.ne_parent]

theorem components_under (dir : String) (h : ∀ name ∈ names, IsEntryName name) :
    components (under dir names) = components dir ++ names.map .named := by
  induction names generalizing dir with
  | nil => exact (List.append_nil _).symm
  | cons name names ih =>
    obtain ⟨hname, hnames⟩ := List.forall_mem_cons.mp h
    rw [under, List.foldl_cons, ← under, ih _ hnames, components_join_name dir hname, List.append_assoc]
    rfl

/-- A file that is reached through a directory in two steps is reached in one. -/
theorem join_join_name (dir : String) (hname : IsEntryName name) {path : String} (hpath : isAbsolute path = false) :
    Path.join (Path.join dir name) path = Path.join dir (name ++ "/" ++ path) := by
  obtain ⟨⟨between, hjoin, -, -⟩, -, -⟩ := join_cases dir hname.no_slash
  have hne : name.toList ≠ [] := fun h => hname.ne_empty (String.toList_eq_nil_iff.mp h)
  have hlast : (Path.join dir name).toList.getLast? ≠ some '/' := by
    rw [hjoin, String.toList_append, List.getLast?_append_of_ne_nil _ hne]
    exact fun h => hname.no_slash (List.mem_of_getLast? h)
  have hjoined : Path.join dir name ≠ "" := by
    intro h
    rw [hjoin] at h
    exact hname.ne_empty (String.append_eq_empty_iff.mp h).2
  have hrelative : isAbsolute (name ++ ("/" ++ path)) = isAbsolute name := isAbsolute_append hname.ne_empty
  have hstep : Path.join (Path.join dir name) path = Path.join dir name ++ "/" ++ path := by
    rw [Path.join, if_neg (by simp [hpath, hjoined]), if_neg (by simpa using hlast)]
  rw [hstep, show name ++ "/" ++ path = name ++ ("/" ++ path) from String.append_assoc]
  unfold Path.join
  rw [hrelative]
  split
  · rw [String.append_assoc]
  · split
    · simp only [String.append_assoc]
    · simp only [String.append_assoc]

/-- The names of what is below a directory, with slashes between them, are a path to it from there. -/
theorem under_eq_join (dir : String) (hne : names ≠ []) (h : ∀ name ∈ names, IsEntryName name) :
    under dir names = Path.join dir ("/".intercalate names) := by
  induction names generalizing dir with
  | nil => exact absurd rfl hne
  | cons name names ih =>
    obtain ⟨hname, hnames⟩ := List.forall_mem_cons.mp h
    cases names with
    | nil =>
      rw [String.intercalate_singleton]
      rfl
    | cons next rest =>
      obtain ⟨hnext, -⟩ := List.forall_mem_cons.mp hnames
      rw [under, List.foldl_cons, ← under, ih _ (by simp) hnames,
        join_join_name dir hname (isAbsolute_intercalate hnext.ne_empty hnext.no_slash), String.intercalate_cons_cons]

/-! ## What is shown -/

/-- What is shown for a row of names: the names with slashes between them, where a backslash counts as one more slash and
`./` in front goes. -/
def shown (names : List String) : String :=
  String.ofList (relative.strip (("/".intercalate names).toList.map fun c => if c == '\\' then '/' else c))

theorem stripBase?_under (dir : String) (hne : names ≠ []) (h : ∀ name ∈ names, IsEntryName name) :
    stripBase? dir (under dir names) = some ("/".intercalate names) := by
  have hparts : parts ("/".intercalate names) = names := parts_intercalate hne fun name hname => (h name hname).no_slash
  have hrelative : isAbsolute ("/".intercalate names) = false := by
    obtain ⟨name, rest, rfl⟩ := List.exists_cons_of_ne_nil hne
    obtain ⟨hname, -⟩ := List.forall_mem_cons.mp h
    exact isAbsolute_intercalate hname.ne_empty hname.no_slash
  have hmeant : ∀ name ∈ names, (component? name).isSome = true := fun name hname => by
    rw [component?_of_isEntryName (h name hname)]
    rfl
  obtain ⟨-, -, ps, tail, htail, hdir, hpath⟩ := join_relative dir hrelative
  rw [hparts, ← under_eq_join dir hne h] at hpath
  rw [stripBase?, components_under dir h, if_pos (List.isPrefixOf_iff_prefix.mpr (List.prefix_append _ _))]
  split
  · rename_i hbase
    obtain rfl := eq_empty_of_components (List.isEmpty_iff.mp hbase)
    have hunder : under "" names = "/".intercalate names := by
      rw [under_eq_join "" hne h, Path.join, if_pos (by simp)]
    have hkept : (names.reverse.dropWhile fun p => (component? p).isNone).reverse = names := by
      rw [dropWhile_hollow_of_forall fun name hname => hmeant name (List.mem_reverse.mp hname), List.reverse_reverse]
    have hall : names.all (fun p => (component? p).isNone) = false := by
      obtain ⟨name, rest, rfl⟩ := List.exists_cons_of_ne_nil hne
      have hname := hmeant name List.mem_cons_self
      rw [List.all_cons, ← Option.not_isSome, hname]
      rfl
    simp only [hunder, hparts, hkept, hall]
    rfl
  · obtain ⟨hollow, hhollow, hdrop⟩ := dropComponents_append ps names
    have hlength : ((components dir).filter fun c => c != .root && c != .current).length =
        (ps.filterMap component?).length := by
      rw [filter_components, hdir, List.filterMap_append]
      rcases htail with rfl | rfl
      · rw [List.filterMap_nil, List.append_nil]
      · rw [show [""].filterMap component? = [] from rfl, List.append_nil]
    simp only [hlength, hpath, hdrop, trimParts_append hhollow hmeant]

/-- What is shown for a file below the root depends on the names behind the root only. -/
theorem relative_under (root : String) (hne : names ≠ []) (h : ∀ name ∈ names, IsEntryName name) :
    relative root (under root names) = shown names := by
  rw [relative, stripBase?_under root hne h]
  rfl

/-- What is shown is the path from the root exactly if no name has a backslash. -/
theorem shown_eq_iff (hne : names ≠ []) (h : ∀ name ∈ names, IsEntryName name) :
    shown names = "/".intercalate names ↔ ∀ name ∈ names, '\\' ∉ name.toList := by
  have hparts : parts ("/".intercalate names) = names := parts_intercalate hne fun name hname => (h name hname).no_slash
  have hback : '\\' ∈ ("/".intercalate names).toList ↔ ∃ name ∈ names, '\\' ∈ name.toList := by
    rw [mem_iff_mem_parts (by decide), hparts]
  rw [← relative_under "" hne h]
  constructor
  · intro hsame name hname hmem
    refine backslash_not_mem_relative "" (under "" names) ?_
    rw [hsame]
    exact hback.mpr ⟨name, hname, hmem⟩
  · intro hplain
    refine relative_of_stripBase? (stripBase?_under "" hne h) (fun hmem => ?_) ?_
    · obtain ⟨name, hname, hin⟩ := hback.mp hmem
      exact hplain name hname hin
    · obtain ⟨name, rest, rfl⟩ := List.exists_cons_of_ne_nil hne
      refine current_not_prefix_intercalate (fun name hname => (h name hname).no_slash) ?_
      rw [component?_of_isEntryName (h name List.mem_cons_self)]
      rfl

end Path

/-! ## The search -/

namespace Selection.Selector

open DirectoryTree LogHygiene.Path

variable {s : Selector} {path file name : String} {names : List String}
  {entries inner rest : List (String × DirectoryTree)} {t : DirectoryTree}

/-- No directory on the way to what a row of names leads to is passed over. -/
def IsReached (s : Selector) (path : String) (names : List String) : Prop :=
  ∀ front name back, names = front ++ name :: back → back ≠ [] → s.denies (under path (front ++ [name])) name = false

theorem isReached_singleton (s : Selector) (path name : String) : s.IsReached path [name] := by
  intro front d back hsplit hback
  rcases List.append_eq_cons_iff.mp hsplit.symm with ⟨rfl, hsplit⟩ | ⟨front', -, hsplit⟩
  · exact absurd (List.cons.inj hsplit).2.symm hback
  · simp at hsplit

/-- What is in a directory is reached if the directory is not passed over and it is reached from there. -/
theorem isReached_cons (hne : names ≠ []) :
    s.IsReached path (name :: names) ↔
      s.denies (Path.join path name) name = false ∧ s.IsReached (Path.join path name) names := by
  constructor
  · intro h
    refine ⟨h [] name names rfl hne, fun front d back hsplit hback => ?_⟩
    exact h (name :: front) d back (by rw [hsplit]; rfl) hback
  · rintro ⟨hfirst, hrest⟩ front d back hsplit hback
    cases front with
    | nil =>
      obtain ⟨rfl, rfl⟩ := List.cons.inj hsplit
      exact hfirst
    | cons first front =>
      obtain ⟨rfl, hlater⟩ := List.cons.inj hsplit
      exact hrest front d back hlater hback

/-- What is found at and below the first entry of a directory, and in the rest of it. -/
theorem mem_filesBelow_cons : file ∈ s.filesBelow path ((name, t) :: rest) ↔
    file ∈ s.filesAt path (name, t) ∨ file ∈ s.filesBelow path rest := by
  rw [filesBelow_eq_flatMap, List.flatMap_cons, List.mem_append, ← filesBelow_eq_flatMap]

/-- **A file is found if it is looked for and reached.** -/
theorem mem_filesBelow (s : Selector) (path : String) : ∀ entries : List (String × DirectoryTree),
    file ∈ s.filesBelow path entries ↔ ∃ names, Holds entries names .file ∧
      (file = under path names ∧ s.accepts file = true ∧ s.IsReached path names)
  | [] => by
    rw [filesBelow_nil]
    exact iff_of_false (by simp) fun ⟨_, h, _⟩ => not_holds_nil h
  | (name, .directory inner) :: rest => by
    rw [mem_filesBelow_cons, exists_holds_cons, mem_filesBelow s path rest]
    refine or_congr_left ?_
    have hreached : ∀ {names}, Holds inner names .file → (s.IsReached path (name :: names) ↔
        s.denies (Path.join path name) name = false ∧ s.IsReached (Path.join path name) names) :=
      fun h => isReached_cons h.ne_nil
    rw [filesAt]
    cases hdenied : s.denies (Path.join path name) name with
    | true =>
      refine iff_of_false (by simp) ?_
      rintro (⟨hfile, -⟩ | ⟨_, heq, names, h, -, -, hopen⟩)
      · exact absurd hfile (by simp)
      · obtain rfl := DirectoryTree.directory.inj heq
        exact absurd (hdenied.symm.trans ((hreached h).mp hopen).1) (by simp)
    | false =>
      rw [if_neg (by simp), mem_filesBelow s (Path.join path name) inner]
      constructor
      · rintro ⟨names, h, heq, haccepts, hopen⟩
        exact .inr ⟨inner, rfl, names, h, heq, haccepts, (hreached h).mpr ⟨hdenied, hopen⟩⟩
      · rintro (⟨hfile, -⟩ | ⟨_, heq, names, h, hunder, haccepts, hopen⟩)
        · exact absurd hfile (by simp)
        · obtain rfl := DirectoryTree.directory.inj heq
          exact ⟨names, h, hunder, haccepts, ((hreached h).mp hopen).2⟩
  | (name, .file) :: rest => by
    rw [mem_filesBelow_cons, exists_holds_cons, mem_filesBelow s path rest]
    refine or_congr_left ?_
    rw [filesAt]
    constructor
    · intro h
      rw [List.mem_ite_nil_right, List.mem_singleton] at h
      obtain ⟨haccepts, rfl⟩ := h
      exact .inl ⟨rfl, rfl, haccepts, s.isReached_singleton path name⟩
    · rintro (⟨-, rfl, haccepts, -⟩ | ⟨_, heq, -⟩)
      · rw [List.mem_ite_nil_right]
        exact ⟨haccepts, List.mem_singleton.mpr rfl⟩
      · exact absurd heq (by simp)
  | (name, .link) :: rest => by
    rw [mem_filesBelow_cons, exists_holds_cons, mem_filesBelow s path rest]
    refine or_congr_left (iff_of_false (by simp [filesAt]) ?_)
    rintro (⟨hfile, -⟩ | ⟨_, heq, -⟩)
    · exact absurd hfile (by simp)
    · exact absurd heq (by simp)

/-- What is found in a directory lies behind one of its names. -/
theorem components_of_mem_filesBelow (hlegal : IsLegal entries) (h : file ∈ s.filesBelow path entries) :
    ∃ name ∈ entries.map Prod.fst, ∃ rest, components file = components path ++ .named name :: rest := by
  obtain ⟨names, hheld, rfl, -, -⟩ := (s.mem_filesBelow path entries).mp h
  obtain ⟨name, rest, rfl⟩ := List.exists_cons_of_ne_nil hheld.ne_nil
  exact ⟨name, hheld.head_mem, rest.map .named, components_under path (hlegal.isEntryName hheld)⟩

/-- No file is found twice. -/
theorem filesBelow_apart (s : Selector) (path : String) : ∀ entries : List (String × DirectoryTree), IsLegal entries →
    (s.filesBelow path entries).Pairwise fun a b => components a ≠ components b
  | [], _ => by
    rw [filesBelow_nil]
    exact .nil
  | (name, t) :: rest, hlegal => by
    obtain ⟨hname, hnew, hinner, hrest⟩ := isLegal_cons.mp hlegal
    have hfirst : IsLegal [(name, t)] := isLegal_cons.mpr ⟨hname, by simp, hinner, isLegal_nil⟩
    have hsplit : s.filesBelow path ((name, t) :: rest) =
        s.filesBelow path [(name, t)] ++ s.filesBelow path rest := by
      simp only [filesBelow_eq_flatMap, List.flatMap_cons, List.flatMap_nil, List.append_nil]
    rw [hsplit]
    refine List.pairwise_append.mpr ⟨?_, filesBelow_apart s path rest hrest, fun a ha b hb => ?_⟩
    · rw [filesBelow_eq_flatMap, List.flatMap_singleton]
      match t, hinner with
      | .directory inner, hinner =>
        rw [filesAt]
        split
        · exact .nil
        · exact filesBelow_apart s (Path.join path name) inner (hinner inner rfl)
      | .file, _ =>
        rw [filesAt]
        split
        · exact List.pairwise_singleton _ _
        · exact .nil
      | .link, _ => exact .nil
    · obtain ⟨first, hmem, behind, hfound⟩ := components_of_mem_filesBelow hfirst ha
      obtain ⟨later, hlater, behind', hfoundLater⟩ := components_of_mem_filesBelow hrest hb
      obtain rfl : first = name := by simpa using hmem
      rw [hfound, hfoundLater]
      intro hsame
      have hnames := (List.cons.inj (List.append_cancel_left hsame)).1
      exact hnew (Component.named.inj hnames ▸ hlater)

/-- The files that are found come in strictly increasing order. -/
theorem collect_ascending (s : Selector) (hlegal : IsLegal entries) :
    (s.collect (.directory entries)).Pairwise Precedes := by
  have hle : ∀ a b, (Path.compare a b != .gt) = (Path.compare a b).isLE := fun a b => by
    cases Path.compare a b <;> rfl
  have hsorted : (s.collect (.directory entries)).Pairwise fun a b => (Path.compare a b != .gt) = true := by
    refine List.pairwise_mergeSort (fun a b c hab hbc => ?_) (fun a b => ?_) _
    · rw [hle] at hab hbc ⊢
      exact Std.TransCmp.isLE_trans hab hbc
    · rw [hle, hle, @Std.OrientedCmp.eq_swap _ Path.compare _ b a]
      cases Path.compare a b <;> rfl
  have hapart : (s.collect (.directory entries)).Pairwise fun a b => components a ≠ components b :=
    (s.filesBelow_apart s.root entries hlegal).perm (List.mergeSort_perm _ _).symm fun hne heq => hne heq.symm
  refine (hsorted.and hapart).imp fun {a b} ⟨hle, hne⟩ => ?_
  cases hcompare : Path.compare a b with
  | lt => exact hcompare
  | eq => exact absurd (compare_eq_iff.mp hcompare) hne
  | gt => exact absurd hle (by rw [hcompare]; decide)

end Selection.Selector

/-! ## Which settings find what -/

theorem requireGlobs_eq_ok {field : String} {patterns : List String} :
    requireGlobs field patterns = .ok () ↔ ∀ p ∈ patterns, ∃ tokens, Glob.ofPattern? p = .ok tokens := by
  have hfault : Glob.firstFault? patterns = none ↔ ∀ p ∈ patterns, ∃ tokens, Glob.ofPattern? p = .ok tokens := by
    rw [Glob.firstFault?, List.findSome?_eq_none_iff]
    refine forall₂_congr fun p _ => ?_
    cases Glob.ofPattern? p with
    | error fault => simp
    | ok tokens => simp
  rw [← hfault, requireGlobs]
  cases Glob.firstFault? patterns with
  | none => simp
  | some fault => simp

namespace Selection

open DirectoryTree LogHygiene.Path

variable {root : String} {c : Config} {patterns names : List String} {entries : List (String × DirectoryTree)}

/-- The selector that settings and patterns ask for. -/
def Selector.asked (root : String) (c : Config) (patterns : List String) : Selector :=
  ⟨root, if patterns.isEmpty then c.includes else patterns, c.excludes, Path.join root c.cache.directory⟩

/-- Settings that are accepted and patterns that can be read make a selector. -/
theorem Selector.ofConfig_of_check (root : String) (hvalid : c.check = .ok ())
    (hpatterns : ∀ p ∈ patterns, ∃ tokens, Glob.ofPattern? p = .ok tokens) :
    ofConfig root c patterns = .ok (asked root c patterns) := by
  unfold Config.check at hvalid
  obtain ⟨-, hvalid⟩ := bind_unit_eq_ok.mp hvalid
  obtain ⟨-, hvalid⟩ := bind_unit_eq_ok.mp hvalid
  obtain ⟨hincludes, hvalid⟩ := bind_unit_eq_ok.mp hvalid
  obtain ⟨hexcludes, -⟩ := bind_unit_eq_ok.mp hvalid
  have hasked : ∀ field, requireGlobs field (if patterns.isEmpty then c.includes else patterns) = .ok () := by
    intro field
    split
    · exact requireGlobs_eq_ok.mpr (requireGlobs_eq_ok.mp hincludes)
    · exact requireGlobs_eq_ok.mpr hpatterns
  simp only [ofConfig, hasked, hexcludes]
  rfl

/-- What a project wants of a file that a row of names leads to: a grammar reads it, the patterns ask for it and none
leaves it out, and no directory on the way is denied or holds the stored results. -/
structure IsWanted (root : String) (c : Config) (patterns names : List String) : Prop where
  readable : (Grammar.ofPath? (under root names)).isSome = true
  asked : Glob.anyAccepts (if patterns.isEmpty then c.includes else patterns) (shown names) = true
  kept : Glob.anyAccepts c.excludes (shown names) = false
  reached : ∀ front name back, names = front ++ name :: back → back ≠ [] →
    name ∉ deniedDirectories ∧
      components (under root (front ++ [name])) ≠ components (Path.join root c.cache.directory)

theorem Selector.asked_accepts (hne : names ≠ []) (h : ∀ name ∈ names, IsEntryName name) :
    (asked root c patterns).accepts (under root names) = true ↔ (Grammar.ofPath? (under root names)).isSome = true ∧
      Glob.anyAccepts (if patterns.isEmpty then c.includes else patterns) (shown names) = true ∧
      Glob.anyAccepts c.excludes (shown names) = false := by
  have hroot : (asked root c patterns).root = root := rfl
  rw [accepts, hroot, relative_under root hne h, Bool.and_eq_true, Bool.and_eq_true, Bool.not_eq_true']
  rfl

theorem Selector.asked_denies {path name : String} : (asked root c patterns).denies path name = false ↔
    name ∉ deniedDirectories ∧ components path ≠ components (Path.join root c.cache.directory) := by
  rw [denies, Bool.or_eq_false_iff, beq_eq_false_iff_ne, List.contains_eq_mem, decide_eq_false_iff_not]
  rfl

theorem isWanted_iff (hne : names ≠ []) (h : ∀ name ∈ names, IsEntryName name) :
    IsWanted root c patterns names ↔
      (Selector.asked root c patterns).accepts (under root names) = true ∧
        (Selector.asked root c patterns).IsReached root names := by
  rw [Selector.asked_accepts hne h, Selector.IsReached]
  simp only [Selector.asked_denies]
  constructor
  · rintro ⟨hreadable, hasked, hkept, hreached⟩
    exact ⟨⟨hreadable, hasked, hkept⟩, hreached⟩
  · rintro ⟨⟨hreadable, hasked, hkept⟩, hreached⟩
    exact ⟨hreadable, hasked, hkept, hreached⟩

/-- **Exactly these files are found, in order, each once**: the files below the root that the project wants. What the
patterns are held against is the path from the root, if no name on the way has a backslash, and only then. -/
theorem collect_selected (root : String) (hvalid : c.check = .ok ())
    (hpatterns : ∀ p ∈ patterns, ∃ tokens, Glob.ofPattern? p = .ok tokens) (hlegal : IsLegal entries) :
    ∃ s, Selector.ofConfig root c patterns = .ok s ∧
      (s.collect (.directory entries)).Pairwise (fun a b => Path.compare a b = .lt) ∧
      (∀ path, path ∈ s.collect (.directory entries) ↔
        ∃ names, Holds entries names .file ∧ path = under root names ∧ IsWanted root c patterns names) ∧
      ∀ names, Holds entries names .file →
        (shown names = "/".intercalate names ↔ ∀ name ∈ names, '\\' ∉ name.toList) := by
  refine ⟨_, Selector.ofConfig_of_check root hvalid hpatterns, Selector.collect_ascending _ hlegal, fun path => ?_,
    fun names hheld => shown_eq_iff hheld.ne_nil (hlegal.isEntryName hheld)⟩
  rw [Selector.collect, List.mem_mergeSort]
  refine (Selector.mem_filesBelow _ _ _).trans (exists_congr fun names => and_congr_right fun hheld => ?_)
  refine and_congr_right ?_
  rintro rfl
  exact (isWanted_iff hheld.ne_nil (hlegal.isEntryName hheld)).symm

/-- A pattern for the files in `a` finds one there, none in a directory below it that is denied, and also a file at the
root that has a backslash in its name. -/
theorem collect_selected_backslash :
    let inner : List (String × DirectoryTree) := [("c.js", .file), ("vendor", .directory [("d.js", .file)])]
    let entries : List (String × DirectoryTree) := [("a\\b.js", .file), ("a", .directory inner), ("e.js", .link)]
    (Config.default.check = .ok () ∧ (∀ p ∈ ["a/**/*.js"], ∃ tokens, Glob.ofPattern? p = .ok tokens) ∧
      IsLegal entries) ∧
    ∃ s, Selector.ofConfig "/repo" Config.default ["a/**/*.js"] = .ok s ∧
      (s.collect (.directory entries)).Pairwise (fun a b => Path.compare a b = .lt) ∧
      "/repo/a/c.js" ∈ s.collect (.directory entries) ∧ "/repo/a\\b.js" ∈ s.collect (.directory entries) ∧
      shown ["a\\b.js"] = "a/b.js" ∧ Glob.accepts "a/**/*.js" "a\\b.js" = false := by
  intro inner entries
  have hvalid : Config.default.check = .ok () := by decide +kernel
  have hpatterns : ∀ p ∈ ["a/**/*.js"], ∃ tokens, Glob.ofPattern? p = .ok tokens :=
    requireGlobs_eq_ok.mp (show requireGlobs "patterns" ["a/**/*.js"] = .ok () by decide +kernel)
  have hlegal : IsLegal entries := by simp [entries, inner, IsLegal, isEntryName_iff]
  obtain ⟨s, hs, hordered, hfound, -⟩ := collect_selected "/repo" hvalid hpatterns hlegal
  refine ⟨⟨hvalid, hpatterns, hlegal⟩, s, hs, hordered, ?_, ?_, by decide +kernel, by decide +kernel⟩
  · refine (hfound _).mpr ⟨["a", "c.js"], .down (List.mem_cons_of_mem _ List.mem_cons_self) (.here List.mem_cons_self),
      by decide +kernel, (isWanted_iff (by simp) (by decide)).mpr ⟨by decide +kernel, ?_⟩⟩
    exact (Selector.isReached_cons (by simp)).mpr ⟨by decide +kernel, Selector.isReached_singleton _ _ _⟩
  · exact (hfound _).mpr ⟨["a\\b.js"], .here List.mem_cons_self, by decide +kernel,
      (isWanted_iff (by simp) (by decide)).mpr ⟨by decide +kernel, Selector.isReached_singleton _ _ _⟩⟩

end Selection

end LogHygiene
