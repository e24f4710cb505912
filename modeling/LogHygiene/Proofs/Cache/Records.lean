import LogHygiene.Proofs.Cache.Index
import LogHygiene.Proofs.Json.Reading
import LogHygiene.Proofs.Text.Utf8

/-!
# What is stored is read back

Entries and the index are written as records and read field by field. Fields that have nothing to say are left out and
read as nothing, names of alternatives are looked up in the list of all of them, and texts are escaped; of all this
nothing is lost. Only numbers have a limit, for a reader takes 64 bits at most. So

> **an entry is read back from its bytes exactly if its numbers fit, and an index exactly if its numbers fit and its
> keys stand in order** (`readBack_iff`).

`ReadsBack` carries the three things that have to be known of a part before it can be put into a record: it is read back
if it fits, it is never read as something else, and it is not read at all if it does not fit.
-/

set_option autoImplicit false

namespace LogHygiene

/-- Reading gives back what was written if it fits, and else nothing. -/
structure ReadsBack {α : Type} (fits : Prop) (a : α) (read : Except Mismatch α) : Prop where
  back : fits → read = .ok a
  only : ∀ b, read = .ok b → b = a
  fits : ∀ b, read = .ok b → fits

namespace ReadsBack

variable {α β : Type} {fits more : Prop} {a : α} {b : β}

theorem ok (a : α) : ReadsBack True a (.ok a) :=
  ⟨fun _ => rfl, fun _ h => (Except.ok.inj h).symm, fun _ _ => trivial⟩

theorem congr {read : Except Mismatch α} (h : ReadsBack fits a read) (hiff : more ↔ fits) :
    ReadsBack more a read := ⟨fun hmore => h.back (hiff.mp hmore), h.only, fun b hb => hiff.mpr (h.fits b hb)⟩

theorem eq_ok_iff {read : Except Mismatch α} (h : ReadsBack fits a read) : read = .ok a ↔ fits := ⟨h.fits a, h.back⟩

theorem bind {read : Except Mismatch α} {next : α → Except Mismatch β} (h : ReadsBack fits a read)
    (hnext : ReadsBack more b (next a)) : ReadsBack (fits ∧ more) b (read >>= next) := by
  -- if the first part is read at all, it is read as what was written
  have hfirst : ∀ c, read >>= next = .ok c → read = .ok a ∧ next a = .ok c := by
    intro c hc
    cases hread : read with
    | error m =>
      rw [hread] at hc
      exact absurd hc (by simp [Bind.bind, Except.bind])
    | ok a' =>
      rw [hread] at hc
      obtain rfl := h.only a' hread
      exact ⟨rfl, hc⟩
  exact
    { back := fun hboth => by rw [h.back hboth.1]; exact hnext.back hboth.2
      only := fun c hc => hnext.only c (hfirst c hc).2
      fits := fun c hc => ⟨h.fits a (hfirst c hc).1, hnext.fits c (hfirst c hc).2⟩ }

end ReadsBack

namespace Json

variable {α : Type}

theorem toNatural_nat (n : Nat) (expected : String) :
    ReadsBack (n < Nat.pow 2 64) n ((nat n).toNatural expected) := by
  unfold toNatural nat
  simp only [Int.natCast_nonneg, decide_true, Int.toNat_natCast, Bool.true_and, decide_eq_true_eq]
  split
  · rename_i hlt
    exact (ReadsBack.ok n).congr (iff_true_intro hlt)
  · rename_i hlarge
    refine ⟨fun hlt => absurd hlt hlarge, fun b hb => ?_, fun b hb => ?_⟩ <;>
      split at hb <;> exact absurd hb (by simp)

theorem mapM_readsBack {write : α → Json} {read : Json → Except Mismatch α} {fits : α → Prop} :
    ∀ {xs : List α}, (∀ x ∈ xs, ReadsBack (fits x) x (read (write x))) →
      ReadsBack (∀ x ∈ xs, fits x) xs ((xs.map write).mapM read)
  | [], _ => (ReadsBack.ok []).congr (by simp)
  | x :: xs, h => by
    have hx := h x (by simp)
    have hxs : ReadsBack (∀ y ∈ xs, fits y) xs ((xs.map write).mapM read) :=
      mapM_readsBack fun y hy => h y (by simp [hy])
    rw [List.map_cons, List.mapM_cons]
    have hcons : ReadsBack (fits x ∧ (∀ y ∈ xs, fits y) ∧ True) (x :: xs)
        (read (write x) >>= fun b => (xs.map write).mapM read >>= fun bs => pure (b :: bs)) :=
      hx.bind (hxs.bind (.ok _))
    exact hcons.congr (by simp)

theorem toOneOf_label {all : List α} {label : α → String} {a : α}
    (h : all.find? (fun b => label b == label a) = some a) :
    toOneOf all label (.str (label a)) = .ok a := by
  simp [toOneOf, h]

namespace RecordType

variable (t : RecordType α)

theorem readFields_of_nodup : ∀ {seen : List String} {a : α} {fields : List (String × Json)},
    (seen.reverse ++ fields.map Prod.fst).Nodup → (∀ f ∈ fields, f.1 ∈ t.fields) →
    t.readFields seen a fields =
      (fields.foldlM (fun a f => t.read f.1 a f.2) a).map fun b => ((fields.map Prod.fst).reverse ++ seen, b)
  | seen, a, [], _, _ => rfl
  | seen, a, (name, j) :: rest, hnodup, hknown => by
    have hname : t.fields.contains name = true := by simpa using hknown (name, j) (by simp)
    have hnew : seen.contains name = false := by
      have := List.nodup_append.mp hnodup
      rw [Bool.eq_false_iff]
      intro hseen
      exact this.2.2 name (by simpa using hseen) name (by simp) rfl
    have ih : ∀ a', t.readFields (name :: seen) a' rest = (rest.foldlM (fun a f => t.read f.1 a f.2) a').map
        fun b => ((rest.map Prod.fst).reverse ++ name :: seen, b) := fun a' =>
      readFields_of_nodup (by simpa using hnodup) fun f hf => hknown f (by simp [hf])
    simp only [readFields, hname, hnew, Bool.not_true, Bool.false_eq_true, if_false, List.foldlM_cons, ih]
    cases t.read name a j with
    | error m => rfl
    | ok a' => simp [Bind.bind, Except.bind]

/-- An object that names fields once each, all of them known and all that are required among them, is read
field by field. -/
theorem decode_obj {start : α} {fields : List (String × Json)} (hnodup : t.fields.Nodup)
    (hsub : (fields.map Prod.fst).Sublist t.fields) (hrequired : ∀ n ∈ t.required, n ∈ fields.map Prod.fst) :
    t.decode start (.obj fields) = fields.foldlM (fun a f => t.read f.1 a f.2) start := by
  rw [decode, t.readFields_of_nodup (by simpa using hsub.nodup hnodup)
    fun f hf => hsub.subset (List.mem_map_of_mem hf)]
  have hnone : t.required.find? (!((fields.map Prod.fst).reverse ++ []).contains ·) = none := by
    refine List.find?_eq_none.mpr fun n hn => ?_
    simpa using hrequired n hn
  cases fields.foldlM (fun a f => t.read f.1 a f.2) start with
  | error m => rfl
  | ok b => simp only [Except.map, Bind.bind, Except.bind, hnone]

theorem optional_plain {d : Nat} (name : String) (o : Option String) :
    ∀ f ∈ optional name o, Plain d f.2 := by
  cases o with
  | none => exact fun f hf => absurd hf (by simp [optional])
  | some s => exact fun f hf => by rw [List.mem_singleton.mp hf]; exact .atom (.str s)

theorem optional_sublist (name : String) (o : Option String) :
    ((optional name o).map Prod.fst).Sublist [name] := by
  cases o <;> simp [optional]

end RecordType

end Json

namespace Violation

/-- The place of a violation is one that a record can hold. -/
def Fits (v : Violation) : Prop := v.line < Nat.pow 2 64 ∧ v.column < Nat.pow 2 64

theorem plain_toJson (d : Nat) (v : Violation) : Json.Plain (d + 1) v.toJson := by
  have hmethod := Json.RecordType.optional_plain (d := d) "method" v.method
  refine .obj ?_
  simp only [List.forall_mem_append, List.forall_mem_cons, List.not_mem_nil, false_implies, implies_true, and_true]
  exact ⟨⟨⟨.atom (.str _), .atom (.int _), .atom (.int _), .atom (.str _)⟩, hmethod⟩, .atom (.str _),
    .atom (.str _), .atom (.str _)⟩

theorem ofJson_toJson (v : Violation) : ReadsBack v.Fits v (ofJson v.toJson) := by
  obtain ⟨path, line, column, kind, method, level, severity, message⟩ := v
  have hkind : Json.toOneOf [.print, .console] CallKind.label (.str kind.label) = .ok kind :=
    Json.toOneOf_label (by cases kind <;> decide)
  have hlevel : Json.toOneOf [.info, .warn, .error, .debug] Level.label (.str level.label) = .ok level :=
    Json.toOneOf_label (by cases level <;> decide)
  have hseverity : Json.toOneOf Severity.all Severity.label (.str severity.label) = .ok severity :=
    Json.toOneOf_label (by cases severity <;> decide)
  have hfields : ofJson (toJson ⟨path, line, column, kind, method, level, severity, message⟩) =
      (Json.nat line).toNatural "usize" >>= fun line =>
        (Json.nat column).toNatural "usize" >>= fun column =>
          .ok ⟨path, line, column, kind, method, level, severity, message⟩ := by
    rw [ofJson, toJson, Json.RecordType.decode_obj]
    · cases method <;>
        simp only [Json.optional, recordType, List.foldlM_append, List.foldlM_cons, List.foldlM_nil,
          Json.toText, Json.toOption, hkind, hlevel, hseverity, Except.map, bind, Except.bind, pure,
          Except.pure] <;>
        cases (Json.nat line).toNatural "usize" <;> simp only [] <;>
        cases (Json.nat column).toNatural "usize" <;> rfl
    · decide
    · have hmethod := Json.RecordType.optional_sublist "method" method
      simp only [List.map_append, List.map_cons, List.map_nil]
      exact ((List.Sublist.refl _).append hmethod).append (List.Sublist.refl _)
    · simp [recordType]
  rw [hfields]
  exact ReadsBack.congr ((Json.toNatural_nat line _).bind ((Json.toNatural_nat column _).bind (.ok _)))
    (and_congr_right fun _ => (iff_of_eq (and_true _)).symm)

end Violation

namespace Analysis

/-- The places of all violations are ones that a record can hold. -/
def Fits (a : Analysis) : Prop := ∀ v ∈ a.violations, v.Fits

theorem plain_toJson (d : Nat) (a : Analysis) : Json.Plain (d + 3) a.toJson := by
  have hoptional := fun name o => Json.RecordType.optional_plain (d := d + 2) name o
  have hviolations : Json.Plain (d + 2) (.arr (a.violations.map Violation.toJson)) := .arr fun j hj => by
    obtain ⟨v, -, rfl⟩ := List.mem_map.mp hj
    exact v.plain_toJson d
  have hnames : Json.Plain (d + 2) (.texts a.loggerNames) := .arr fun j hj => by
    obtain ⟨name, -, rfl⟩ := List.mem_map.mp hj
    exact .atom (.str name)
  refine .obj ?_
  simp only [List.forall_mem_append, List.forall_mem_cons, List.not_mem_nil, false_implies, implies_true, and_true]
  exact ⟨⟨⟨⟨⟨⟨.atom (.str _), hoptional _ _⟩, .atom (.bool _)⟩, hoptional _ _⟩, hviolations,
    .atom (.bool _), .atom (.bool _), hnames⟩, hoptional _ _⟩, hoptional _ _⟩

theorem ofJson_toJson (a : Analysis) : ReadsBack a.Fits a (ofJson a.toJson) := by
  obtain ⟨path, family, excluded, exemption, violations, hasImport, hasInstance, loggerNames, error,
    errorKind⟩ := a
  have hfamily : ∀ f : Family, Json.toOneOf Family.all Family.label (.str f.label) = .ok f :=
    fun f => Json.toOneOf_label (by cases f <;> decide)
  have hexemption : ∀ e : Exemption, Json.toOneOf Exemption.all Exemption.label (.str e.label) = .ok e :=
    fun e => Json.toOneOf_label (by cases e <;> decide)
  have hkind : ∀ k : FailureKind, Json.toOneOf FailureKind.all FailureKind.label (.str k.label) = .ok k :=
    fun k => Json.toOneOf_label (by cases k <;> decide)
  have hnames : (loggerNames.map Json.str).mapM Json.toText = .ok loggerNames := by
    have hback : ReadsBack (∀ x ∈ loggerNames, True) loggerNames ((loggerNames.map Json.str).mapM Json.toText) :=
      Json.mapM_readsBack fun _ _ => .ok _
    exact hback.back fun _ _ => trivial
  -- the last field is read by the branch for all other names, which has to be taken by hand
  have hlast : ∀ (a : Analysis) (j : Json), recordType.read "error_kind" a j =
      (j.toOption (Json.toOneOf FailureKind.all FailureKind.label)).map
        fun x => { a with errorKind := x } := fun _ _ => rfl
  have hfields : ofJson (toJson ⟨path, family, excluded, exemption, violations, hasImport, hasInstance,
      loggerNames, error, errorKind⟩) =
      (violations.map Violation.toJson).mapM Violation.ofJson >>= fun violations =>
        .ok ⟨path, family, excluded, exemption, violations, hasImport, hasInstance, loggerNames, error,
          errorKind⟩ := by
    rw [ofJson, toJson, Json.RecordType.decode_obj]
    · cases family <;> cases exemption <;> cases error <;> cases errorKind <;>
        simp only [Json.optional, List.foldlM_append, List.foldlM_cons, List.foldlM_nil, hlast,
          Option.map] <;>
        simp only [recordType, Json.toText, Json.toBool, Json.toOption, Json.toList, Json.texts, hfamily,
          hexemption, hkind, hnames, Except.map, bind, Except.bind, pure, Except.pure] <;>
        cases (violations.map Violation.toJson).mapM Violation.ofJson <;> rfl
    · decide
    · simp only [List.map_append, List.map_cons, List.map_nil]
      have hoptional := Json.RecordType.optional_sublist
      exact ((((((List.Sublist.refl _).append (hoptional _ _)).append (List.Sublist.refl _)).append
        (hoptional _ _)).append (List.Sublist.refl _)).append (hoptional _ _)).append (hoptional _ _)
    · simp [recordType]
  rw [hfields]
  have hviolations : ReadsBack (∀ v ∈ violations, v.Fits) violations
      ((violations.map Violation.toJson).mapM Violation.ofJson) := Json.mapM_readsBack fun v _ => v.ofJson_toJson
  exact ReadsBack.congr (hviolations.bind (.ok (Analysis.mk path family excluded exemption violations hasImport
    hasInstance loggerNames error errorKind))) (iff_of_eq (and_true _)).symm

end Analysis

namespace Cache

/-! ## Entries -/

namespace Entry

/-- The numbers of an entry are ones that a record can hold. -/
def Fits (e : Entry) : Prop := e.timestamp < Nat.pow 2 64 ∧ e.payload.Fits

theorem plain_toJson (e : Entry) : Json.Plain Json.maxDepth e.toJson := by
  change Json.Plain (123 + 4) e.toJson
  refine .obj ?_
  simp only [List.forall_mem_cons, List.not_mem_nil, false_implies, implies_true, and_true]
  exact ⟨.atom (.str _), .atom (.str _), .atom (.int _), e.payload.plain_toJson 123⟩

theorem decode_toJson (e : Entry) : ReadsBack e.Fits e (recordType.decode ⟨"", "", 0, {}⟩ e.toJson) := by
  obtain ⟨key, path, timestamp, payload⟩ := e
  have hfields : recordType.decode ⟨"", "", 0, {}⟩ (toJson ⟨key, path, timestamp, payload⟩) =
      (Json.nat timestamp).toNatural "u64" >>= fun timestamp =>
        Analysis.ofJson payload.toJson >>= fun payload => .ok ⟨key, path, timestamp, payload⟩ := by
    rw [toJson, Json.RecordType.decode_obj]
    · simp only [recordType, List.foldlM_cons, List.foldlM_nil, Json.toText, Except.map, bind, Except.bind,
        pure, Except.pure]
      cases (Json.nat timestamp).toNatural "u64" with
      | error m => rfl
      | ok n => cases Analysis.ofJson payload.toJson <;> rfl
    · decide
    · exact List.Sublist.refl _
    · simp [recordType]
  rw [hfields]
  exact ReadsBack.congr ((Json.toNatural_nat timestamp _).bind (payload.ofJson_toJson.bind
    (.ok (Entry.mk key path timestamp payload)))) (and_congr_right fun _ => (iff_of_eq (and_true _)).symm)

/-- The bytes of an entry are read as its record is. -/
theorem ofBytes?_eq (e : Entry) : ofBytes? e.toBytes = (recordType.decode ⟨"", "", 0, {}⟩ e.toJson).toOption := by
  rw [ofBytes?, toBytes, Bytes.text?_ofText]
  simp only [Option.bind_eq_bind, Option.bind_some, e.plain_toJson.ofText?_compact]
  cases recordType.decode ⟨"", "", 0, {}⟩ e.toJson <;> rfl

theorem ofBytes?_eq_some_iff (e e' : Entry) :
    ofBytes? e.toBytes = some e' ↔ recordType.decode ⟨"", "", 0, {}⟩ e.toJson = .ok e' := by
  rw [ofBytes?_eq]
  cases recordType.decode ⟨"", "", 0, {}⟩ e.toJson <;> simp [Except.toOption]

/-- **An entry is read back from the bytes that it is stored as**, if its numbers fit; bytes that an entry
was stored as are never read as another one. -/
theorem ofBytes?_toBytes (e : Entry) :
    (e.Fits → ofBytes? e.toBytes = some e) ∧ ∀ e', ofBytes? e.toBytes = some e' → e' = e :=
  ⟨fun hfits => (ofBytes?_eq_some_iff e e).mpr (e.decode_toJson.back hfits),
    fun e' he' => e.decode_toJson.only e' ((ofBytes?_eq_some_iff e e').mp he')⟩

theorem ofBytes?_toBytes_iff (e : Entry) : ofBytes? e.toBytes = some e ↔ e.Fits :=
  (ofBytes?_eq_some_iff e e).trans e.decode_toJson.eq_ok_iff

end Entry

/-! ## The index -/

namespace IndexRow

theorem ofJson_toJson (r : IndexRow) : ReadsBack (r.timestamp < Nat.pow 2 64) r (ofJson r.toJson) := by
  obtain ⟨blob, path, timestamp⟩ := r
  have hfields : ofJson (toJson ⟨blob, path, timestamp⟩) =
      (Json.nat timestamp).toNatural "u64" >>= fun timestamp => .ok ⟨blob, path, timestamp⟩ := by
    rw [ofJson, toJson, Json.RecordType.decode_obj]
    · simp only [recordType, List.foldlM_cons, List.foldlM_nil, Json.toText, Except.map, bind, Except.bind,
        pure, Except.pure]
      cases (Json.nat timestamp).toNatural "u64" <;> rfl
    · decide
    · exact List.Sublist.refl _
    · simp [recordType]
  rw [hfields]
  exact ReadsBack.congr ((Json.toNatural_nat timestamp _).bind (.ok (IndexRow.mk blob path timestamp)))
    (iff_of_eq (and_true _)).symm

end IndexRow

namespace Index

/-- The numbers of an index are ones that a record can hold. -/
def Fits (i : Index) : Prop := ∀ x ∈ i.rows, x.2.timestamp < Nat.pow 2 64

theorem plain_toJson (i : Index) : Json.Plain Json.maxDepth i.toJson := by
  change Json.Plain (125 + 2) i.toJson
  refine .obj fun f hf => ?_
  obtain ⟨x, -, rfl⟩ := List.mem_map.mp hf
  refine .obj ?_
  simp only [List.forall_mem_cons, List.not_mem_nil, false_implies, implies_true, and_true]
  exact ⟨.atom (.str _), .atom (.str _), .atom (.int _)⟩

/-- Reading the fields of an index one by one into `i`. -/
def ofFields? (i : Index) (fields : List (String × Json)) : Option Index :=
  fields.foldlM (fun i (k, j) =>
    match IndexRow.ofJson j with
    | .ok r => some (i.insert k r)
    | .error _ => none) i

theorem ofFields?_cons (i : Index) (k : String) (r : IndexRow) (rest : List (String × Json)) :
    ofFields? i ((k, r.toJson) :: rest) = match IndexRow.ofJson r.toJson with
      | .ok r => ofFields? (i.insert k r) rest
      | .error _ => none := by
  rw [ofFields?, List.foldlM_cons]
  simp only
  cases IndexRow.ofJson r.toJson <;> rfl

theorem ofBytes?_eq (i : Index) :
    ofBytes? i.toBytes = ofFields? {} (i.rows.map fun (k, r) => (k, r.toJson)) := by
  rw [ofBytes?, toBytes, Bytes.text?_ofText]
  simp only [Option.bind_eq_bind, Option.bind_some, i.plain_toJson.ofText?_pretty]
  rfl

/-- Rows that are read in one by one, each behind all that are there, make up a row. -/
theorem ofFields?_of_sorted : ∀ {rows : List (String × IndexRow)} {i : Index},
    (i.rows ++ rows).Pairwise (fun a b => a.1 < b.1) → (∀ x ∈ rows, x.2.timestamp < Nat.pow 2 64) →
    ofFields? i (rows.map fun (k, r) => (k, r.toJson)) = some ⟨i.rows ++ rows⟩
  | [], i, _, _ => by simp [ofFields?]
  | (k, r) :: rest, i, hsorted, hfits => by
    have hread := r.ofJson_toJson.back (hfits (k, r) (by simp))
    have hlast : insertRow k r i.rows = i.rows ++ [(k, r)] :=
      insertRow_of_lt fun x hx => (List.pairwise_append.mp hsorted).2.2 x hx (k, r) (by simp)
    have hrows : (i.insert k r).rows ++ rest = i.rows ++ (k, r) :: rest := by
      rw [insert, hlast, List.append_assoc, List.singleton_append]
    have ih : ofFields? (i.insert k r) (rest.map fun (k, r) => (k, r.toJson)) = some ⟨(i.insert k r).rows ++ rest⟩ :=
      ofFields?_of_sorted (by rwa [hrows]) fun x hx => hfits x (by simp [hx])
    rw [hrows] at ih
    rw [← ih, List.map_cons, ofFields?_cons, hread]

/-- Whatever is read in was there. -/
theorem mem_of_ofFields? : ∀ {rows : List (String × IndexRow)} {i i' : Index},
    ofFields? i (rows.map fun (k, r) => (k, r.toJson)) = some i' →
    ∀ x ∈ i'.rows, x ∈ i.rows ∨ x ∈ rows
  | [], i, i', h, x, hx => by
    obtain rfl : i = i' := by simpa [ofFields?] using h
    exact .inl hx
  | (k, r) :: rest, i, i', h, x, hx => by
    rw [List.map_cons, ofFields?_cons] at h
    cases hread : IndexRow.ofJson r.toJson with
    | error m => rw [hread] at h; exact absurd h (by simp)
    | ok r' =>
      obtain rfl := r.ofJson_toJson.only r' hread
      rw [hread] at h
      rcases mem_of_ofFields? (i := i.insert k r') h x hx with hold | hrest
      · rcases mem_insertRow hold with rfl | hold
        · exact .inr List.mem_cons_self
        · exact .inl hold
      · exact .inr (List.mem_cons_of_mem _ hrest)

/-- Rows that are read in had numbers that fit. -/
theorem fits_of_ofFields? : ∀ {rows : List (String × IndexRow)} {i i' : Index},
    ofFields? i (rows.map fun (k, r) => (k, r.toJson)) = some i' → ∀ x ∈ rows, x.2.timestamp < Nat.pow 2 64
  | (k, r) :: rest, i, i', h, x, hx => by
    rw [List.map_cons, ofFields?_cons] at h
    cases hread : IndexRow.ofJson r.toJson with
    | error m => rw [hread] at h; exact absurd h (by simp)
    | ok r' =>
      rw [hread] at h
      rcases List.mem_cons.mp hx with rfl | hrest
      · exact r.ofJson_toJson.fits r' hread
      · exact fits_of_ofFields? (i := i.insert k r') h x hrest

/-- Rows that are read in one by one are put where they belong, whoever wrote them. -/
theorem sorted_ofFields? : ∀ {fields : List (String × Json)} {i i' : Index},
    i.Sorted → ofFields? i fields = some i' → i'.Sorted
  | [], _, _, hsorted, h => Option.some.inj h ▸ hsorted
  | field :: fields, i, i', hsorted, h => by
    rw [ofFields?, List.foldlM_cons] at h
    obtain ⟨next, hnext, hrest⟩ := Option.bind_eq_some_iff.mp h
    simp only at hnext
    split at hnext
    · exact sorted_ofFields? (Option.some.inj hnext ▸ hsorted.insert _ _) hrest
    · exact absurd hnext (by simp)

/-- An index that is read is sorted, whatever the bytes are. -/
theorem sorted_ofBytes? {bytes : Bytes} {i : Index} (h : ofBytes? bytes = some i) : i.Sorted := by
  simp only [ofBytes?, Option.bind_eq_bind, Option.bind_eq_some_iff] at h
  obtain ⟨-, -, j, -, hj⟩ := h
  cases j with
  | obj fields => exact sorted_ofFields? (i := {}) List.Pairwise.nil hj
  | _ => exact absurd hj (by simp [ofJson?])

/-- **A sorted index is read back from the bytes that it is stored as**, if its numbers fit; and of any
index, only rows that it has are read. -/
theorem ofBytes?_toBytes (i : Index) :
    (i.Sorted → i.Fits → ofBytes? i.toBytes = some i) ∧
      ∀ i', ofBytes? i.toBytes = some i' → ∀ x ∈ i'.rows, x ∈ i.rows := by
  rw [ofBytes?_eq]
  refine ⟨fun hsorted hfits => ?_, fun i' h x hx => ?_⟩
  · exact ofFields?_of_sorted (i := {}) hsorted hfits
  · exact (mem_of_ofFields? h x hx).resolve_left (by simp)

theorem ofBytes?_toBytes_iff (i : Index) : ofBytes? i.toBytes = some i ↔ i.Sorted ∧ i.Fits where
  mp h := ⟨sorted_ofBytes? h, fits_of_ofFields? (i.ofBytes?_eq ▸ h)⟩
  mpr h := i.ofBytes?_toBytes.1 h.1 h.2

end Index

/-- **What is stored is read back exactly if it fits.** The numbers of an entry or an index have to be ones of 64 bits,
and the keys of an index have to stand in order, as those of an ordered map do; whatever else there is in either, it is
not lost. -/
theorem readBack_iff :
    (∀ e : Entry, Entry.ofBytes? e.toBytes = some e ↔ e.Fits) ∧
      ∀ i : Index, Index.ofBytes? i.toBytes = some i ↔ i.Sorted ∧ i.Fits :=
  ⟨Entry.ofBytes?_toBytes_iff, Index.ofBytes?_toBytes_iff⟩

end Cache

end LogHygiene
