import Mathlib.Tactic.Common
import Timeslice.Proofs.Json.RoundTrip
import Timeslice.Schema.Codec
import Timeslice.Settings

/-!
# Schemas and settings read back

A schema is read from what is written of it, whether or not a table may have it. The options that a
column lacks are left out, and a column has none of the options whose fields are missing. Settings
are read from what is written of them exactly if a client can run with them.
-/

namespace Timeslice

namespace Json

variable {α : Type} {fields : List (String × Json)} {name : String} {v : Json}

theorem toFields?_ofFields (fields : List (String × Json)) :
    (ofFields fields).toFields? = some fields := by
  rw [ofFields, toFields?]
  induction fields with
  | nil => rfl
  | cons f fields ih =>
    rw [List.map_cons, List.mapM_cons, ih]
    rfl

theorem toInt?_ofInt (i : Int) : (ofInt i).toInt? = some i :=
  JsonNumber.toInt?_ofInt i

theorem unsigned32?_ofNat (n : UInt32) : (ofNat n.toNat).unsigned32? = some n := by
  rw [unsigned32?, ofNat, toInt?_ofInt, Option.bind_some, Word.unsigned32?_toNat]

theorem unsigned64?_ofNat (n : UInt64) : (ofNat n.toNat).unsigned64? = some n := by
  rw [unsigned64?, ofNat, toInt?_ofInt, Option.bind_some, Word.unsigned64?_toNat]

theorem signed64?_ofInt (n : Int64) : (ofInt n.toInt).signed64? = some n := by
  rw [signed64?, toInt?_ofInt, Option.bind_some, Word.signed64?_toInt]

def HasFields (fields : List (String × Json)) (name : String) (found : List (String × Json)) :
    Prop :=
  (fields.filter fun f => f.1 == name) = found

theorem HasFields.field? (h : HasFields fields name [(name, v)]) :
    field? fields name = some (some v) := by
  rw [Json.field?, h]

theorem HasFields.required? (h : HasFields fields name [(name, v)]) :
    required? fields name = some v := by
  rw [Json.required?, h.field?]
  rfl

theorem HasFields.optional? {decode : Json → Option α} {encode : α → Json} {a? : Option α}
    (h : HasFields fields name (TableColumn.fieldOf name encode a?))
    (hdecode : ∀ a, decode (encode a) = some a) (hnull : ∀ a, encode a ≠ .null) :
    optional? decode fields name = some a? := by
  rw [Json.optional?, Json.field?, h]
  cases a? with
  | none => rfl
  | some a =>
    simp only [TableColumn.fieldOf, Option.bind_some]
    split
    · next heq => cases heq
    · next heq => exact absurd (Option.some.inj heq) (hnull a)
    · next heq =>
      rw [← Option.some.inj heq, hdecode, Option.map_some]

theorem required?_pair {first second : String} (h : first ≠ second) (v w : Json) :
    required? [(first, v), (second, w)] first = some v ∧
      required? [(first, v), (second, w)] second = some w := by
  simp [Json.required?, Json.field?, h, h.symm]

theorem mem_iff_of_field? {found? : Option Json} (h : field? fields name = some found?) (v : Json) :
    (name, v) ∈ fields ↔ found? = some v := by
  have hmem : (name, v) ∈ fields ↔ (name, v) ∈ fields.filter fun f => f.1 == name := by simp
  rw [hmem]
  unfold Json.field? at h
  split at h
  · next hnone =>
    cases h
    simp [hnone]
  · next f hone =>
    cases h
    have hname : f.1 = name := by
      have hf : f ∈ fields.filter fun f => f.1 == name := by simp [hone]
      simpa using (List.mem_filter.mp hf).2
    rw [hone, List.mem_singleton, Prod.ext_iff, hname, Option.some_inj]
    simp [eq_comm]
  · cases h

theorem isSome_eq_false_iff_of_optional? {decode : Json → Option α} {a? : Option α}
    (h : optional? decode fields name = some a?) :
    a?.isSome = false ↔ ∀ v, (name, v) ∈ fields → v = .null := by
  obtain ⟨found?, hfound, hdecoded⟩ := Option.bind_eq_some_iff.mp h
  simp only [mem_iff_of_field? hfound]
  split at hdecoded
  · cases hdecoded
    simp
  · cases hdecoded
    simp
  · next v hnull =>
    obtain ⟨a, -, rfl⟩ := Option.map_eq_some_iff.mp hdecoded
    simpa using hnull

end Json

theorem TimeUnit.ofJson?_word (u : TimeUnit) : ofJson? (.ofString u.word) = some u :=
  ofWord?_word u

theorem ColumnType.ofJson?_text (t : ColumnType) : ofJson? (.ofString t.text) = some t :=
  ofText?_text t

namespace Quantum

theorem ofJson?_ofFields (interval unit : Json) :
    ofJson? (.ofFields [("interval", interval), ("unit", unit)]) = ofParts? interval unit := by
  obtain ⟨hinterval, hunit⟩ :=
    Json.required?_pair (show "interval" ≠ "unit" by decide) interval unit
  rw [ofJson?, Json.toFields?_ofFields]
  · simp only [Option.bind_eq_bind, Option.bind_some, hinterval, hunit]
  · nofun

theorem ofJson?_toJson (q : Quantum) : ofJson? q.toJson = some q := by
  rw [toJson, ofJson?_ofFields, ofParts?, Json.unsigned32?_ofNat, TimeUnit.ofJson?_word]
  rfl

theorem isPlain_toJson (q : Quantum) : q.toJson.IsPlain := by
  refine .object fun f hf => ?_
  simp only [List.mem_cons, List.not_mem_nil, or_false] at hf
  rcases hf with rfl | rfl
  · exact .int _
  · exact .text _

theorem toJson_ne_null (q : Quantum) : q.toJson ≠ .null := nofun

end Quantum

namespace TableColumn

variable {α : Type} {name other : String} {encode : α → Json} {a? : Option α}

theorem exists_of_mem_fieldOf {f : String × Json} (h : f ∈ fieldOf name encode a?) :
    ∃ a, a? = some a ∧ f = (name, encode a) := by
  cases a? with
  | none => cases h
  | some a => exact ⟨a, rfl, List.mem_singleton.mp h⟩

theorem filter_fieldOf : ((fieldOf name encode a?).filter fun f => f.1 == other) =
    if name == other then fieldOf name encode a? else [] := by
  cases a? with
  | none => simp [fieldOf]
  | some a => simp [fieldOf, List.filter_cons]

theorem map_fieldOf : (fieldOf name encode a?).map (·.1) = if a?.isSome then [name] else [] := by
  cases a? <;> rfl

def entries (c : TableColumn) : List (String × Json) :=
  [("name", .ofString c.name), ("column_type", .ofString c.type.text),
    ("nullable", .bool c.nullable)] ++
  fieldOf "partition_key_ordinal" ordinalJson c.partitionOrdinal? ++
  fieldOf "local_key_ordinal" ordinalJson c.localOrdinal? ++
  fieldOf "quantum" Quantum.toJson c.quantum?

theorem toJson_eq (c : TableColumn) : c.toJson = .ofFields c.entries := rfl

/-- The options of a column by the names of their fields, and whether the column has them. -/
def options (c : TableColumn) : List (String × Bool) :=
  [("partition_key_ordinal", c.partitionOrdinal?.isSome),
    ("local_key_ordinal", c.localOrdinal?.isSome), ("quantum", c.quantum?.isSome)]

theorem names_entries (c : TableColumn) : c.entries.map (·.1) =
    ["name", "column_type", "nullable"] ++ (c.options.filter (·.2)).map (·.1) := by
  simp only [entries, options, List.map_append, map_fieldOf, List.map_cons, List.map_nil,
    List.filter_cons, List.filter_nil, List.append_assoc]
  split_ifs <;> rfl

theorem allowsExtras_entries (c : TableColumn) : allowsExtras c.entries = true := by
  rw [allowsExtras, List.all_eq_true]
  intro f hf
  have hname : f.1 ∈ c.entries.map (·.1) := List.mem_map_of_mem hf
  rw [names_entries] at hname
  have hknown : f.1 ∈ fieldNames := by
    rw [show fieldNames = ["name", "column_type", "nullable"] ++ c.options.map (·.1) from rfl]
    exact List.Sublist.subset (.append_left (.map _ List.filter_sublist) _) hname
  simp [hknown]

theorem isPlain_toJson (c : TableColumn) : c.toJson.IsPlain := by
  refine .object fun f hf => ?_
  simp only [List.mem_append, List.mem_cons, List.not_mem_nil, or_false] at hf
  rcases hf with (((rfl | rfl | rfl) | hf) | hf) | hf
  · exact .text _
  · exact .text _
  · exact .bool _
  · obtain ⟨n, -, rfl⟩ := exists_of_mem_fieldOf hf
    exact .int _
  · obtain ⟨n, -, rfl⟩ := exists_of_mem_fieldOf hf
    exact .int _
  · obtain ⟨q, -, rfl⟩ := exists_of_mem_fieldOf hf
    exact q.isPlain_toJson

theorem ofJson?_toJson (c : TableColumn) : ofJson? c.toJson = some c := by
  have hname : Json.HasFields c.entries "name" [("name", .ofString c.name)] := by
    simp [Json.HasFields, entries, filter_fieldOf]
  have htype : Json.HasFields c.entries "column_type" [("column_type", .ofString c.type.text)] := by
    simp [Json.HasFields, entries, filter_fieldOf]
  have hnullable : Json.HasFields c.entries "nullable" [("nullable", .bool c.nullable)] := by
    simp [Json.HasFields, entries, filter_fieldOf]
  have hpartition : Json.HasFields c.entries "partition_key_ordinal"
      (fieldOf "partition_key_ordinal" ordinalJson c.partitionOrdinal?) := by
    simp [Json.HasFields, entries, filter_fieldOf]
  have hlocal : Json.HasFields c.entries "local_key_ordinal"
      (fieldOf "local_key_ordinal" ordinalJson c.localOrdinal?) := by
    simp [Json.HasFields, entries, filter_fieldOf]
  have hquantum : Json.HasFields c.entries "quantum"
      (fieldOf "quantum" Quantum.toJson c.quantum?) := by
    simp [Json.HasFields, entries, filter_fieldOf]
  have hordinal (n : UInt32) : Json.unsigned32? (ordinalJson n) = some n :=
    Json.unsigned32?_ofNat n
  have hnull (n : UInt32) : ordinalJson n ≠ .null := nofun
  have hextras : ¬(!allowsExtras c.entries) = true := by simp [allowsExtras_entries]
  rw [toJson_eq, ofJson?, Json.toFields?_ofFields]
  simp only [Option.bind_eq_bind, Option.bind_some, if_neg hextras, hname.required?,
    htype.required?, hnullable.required?, hpartition.optional? hordinal hnull,
    hlocal.optional? hordinal hnull,
    hquantum.optional? Quantum.ofJson?_toJson Quantum.toJson_ne_null, ColumnType.ofJson?_text,
    Option.pure_def]
  rfl

/-- A column has one of its options exactly if the field is there and not `null`. -/
theorem options_of_ofJson? {v : Json} {fields : List (String × Json)} {c : TableColumn}
    (h : ofJson? v = some c) (hfields : v.toFields? = some fields) :
    ∀ o ∈ c.options, (o.2 = false ↔ ∀ w, (o.1, w) ∈ fields → w = .null) := by
  simp only [ofJson?, hfields, Option.bind_eq_bind, Option.bind_some] at h
  split at h
  · cases h
  simp only [Option.bind_eq_some_iff] at h
  obtain ⟨_, -, _, -, _, -, _, -, _, -, _, -, n, hpartition, m, hlocal, q, hquantum, hc⟩ := h
  cases hc
  simp only [options, List.forall_mem_cons]
  exact ⟨Json.isSome_eq_false_iff_of_optional? hpartition,
    Json.isSome_eq_false_iff_of_optional? hlocal, Json.isSome_eq_false_iff_of_optional? hquantum,
    nofun⟩

end TableColumn

namespace Schema

theorem ofJson?_ofFields (name columns : Json) :
    ofJson? (.ofFields [("name", name), ("columns", columns)]) = ofParts? name columns := by
  obtain ⟨hname, hcolumns⟩ := Json.required?_pair (show "name" ≠ "columns" by decide) name columns
  rw [ofJson?, Json.toFields?_ofFields]
  · simp only [Option.bind_eq_bind, Option.bind_some, hname, hcolumns]
  · nofun

theorem mapM_ofJson? (columns : List TableColumn) :
    (columns.map TableColumn.toJson).mapM TableColumn.ofJson? = some columns := by
  induction columns with
  | nil => rfl
  | cons c rest ih =>
    rw [List.map_cons, List.mapM_cons, ih, TableColumn.ofJson?_toJson]
    rfl

theorem ofJson?_toJson (s : Schema) : ofJson? s.toJson = some s := by
  rw [toJson, ofJson?_ofFields]
  simp only [ofParts?, Json.ofString, Json.toText?, Json.toItems?, mapM_ofJson?,
    Option.bind_eq_bind, Option.bind_some, Option.pure_def]

theorem isPlain_toJson (s : Schema) : s.toJson.IsPlain := by
  refine .object fun f hf => ?_
  simp only [List.mem_cons, List.not_mem_nil, or_false] at hf
  rcases hf with rfl | rfl
  · exact .text _
  · refine .array fun v hv => ?_
    obtain ⟨c, -, rfl⟩ := List.mem_map.mp hv
    exact c.isPlain_toJson

theorem read_write (s : Schema) : read s.write = some s := by
  rw [read, write, Json.read_write s.isPlain_toJson, Option.bind_some, ofJson?_toJson]

def rewrite? (text : String) : Option String :=
  (read text).map write

end Schema

def SettingsField.bound (s : Settings) : SettingsField → UInt64
  | concurrency => s.concurrency
  | quantaLimit => s.quantaLimit

namespace Settings

def entries (concurrency quantaLimit origin : Json) : List (String × Json) :=
  [(SettingsField.concurrency.name, concurrency), (SettingsField.quantaLimit.name, quantaLimit),
    (originName, origin)]

theorem ofJson?_ofFields (concurrency quantaLimit origin : Json) :
    ofJson? (.ofFields (entries concurrency quantaLimit origin)) =
      ofParts? (some concurrency) (some quantaLimit) (some origin) := by
  have hconcurrency : Json.HasFields (entries concurrency quantaLimit origin)
      SettingsField.concurrency.name [(SettingsField.concurrency.name, concurrency)] := by
    simp [Json.HasFields, entries, SettingsField.name, originName]
  have hquanta : Json.HasFields (entries concurrency quantaLimit origin)
      SettingsField.quantaLimit.name [(SettingsField.quantaLimit.name, quantaLimit)] := by
    simp [Json.HasFields, entries, SettingsField.name, originName]
  have horigin : Json.HasFields (entries concurrency quantaLimit origin) originName
      [(originName, origin)] := by
    simp [Json.HasFields, entries, SettingsField.name, originName]
  have hknown : ¬(!(entries concurrency quantaLimit origin).all fun f =>
      fieldNames.contains f.1) = true := by
    simp [entries, fieldNames]
  rw [ofJson?, Json.toFields?_ofFields]
  · simp only [Option.bind_eq_bind, Option.bind_some, if_neg hknown, hconcurrency.field?,
      hquanta.field?, horigin.field?]
  · nofun

theorem ofJson?_toJson (s : Settings) : ofJson? s.toJson = some s := by
  rw [toJson, ← entries, ofJson?_ofFields, ofParts?, defaulted?, Json.unsigned64?_ofNat, defaulted?,
    Json.unsigned64?_ofNat, defaulted?, Json.signed64?_ofInt]
  rfl

theorem isPlain_toJson (s : Settings) : s.toJson.IsPlain := by
  refine .object fun f hf => ?_
  simp only [List.mem_cons, List.not_mem_nil, or_false] at hf
  rcases hf with rfl | rfl | rfl <;> exact .int _

theorem check_cases (s : Settings) : s.check = .ok () ∧ 0 < s.concurrency ∧ 0 < s.quantaLimit ∨
    ∃ field : SettingsField, field.bound s = 0 ∧ s.check = .error (.zero field) := by
  unfold check
  split_ifs with hconcurrency hquanta
  · exact .inr ⟨.concurrency, hconcurrency, rfl⟩
  · exact .inr ⟨.quantaLimit, hquanta, rfl⟩
  · exact .inl ⟨rfl, UInt64.pos_iff_ne_zero.mpr hconcurrency, UInt64.pos_iff_ne_zero.mpr hquanta⟩

theorem read_write (s : Settings) : read s.write = s.check.map fun _ => s := by
  rw [read, write, Json.read_write s.isPlain_toJson, Option.bind_some, ofJson?_toJson]

end Settings

/-- What is read from the JSON that is written of schemas and of settings. -/
structure FormsReadBack : Prop where
  schema : ∀ s : Schema, Schema.ofJson? s.toJson = some s ∧ Schema.read s.write = some s
  omitted : ∀ c : TableColumn, ∃ fields, c.toJson.toFields? = some fields ∧
    fields.map (·.1) =
      ["name", "column_type", "nullable"] ++ (c.options.filter (·.2)).map (·.1)
  absent : ∀ v fields c, TableColumn.ofJson? v = some c → v.toFields? = some fields →
    ∀ o ∈ c.options, (o.2 = false ↔ ∀ w, (o.1, w) ∈ fields → w = .null)
  reread : ∀ text, (Schema.read text).bind (fun s => Schema.read s.write) = Schema.read text
  rewritten : ∀ text, (Schema.rewrite? text).bind Schema.rewrite? = Schema.rewrite? text
  settings : ∀ s : Settings, Settings.ofJson? s.toJson = some s
  accepted_iff : ∀ s : Settings,
    Settings.read s.write = .ok s ↔ 0 < s.concurrency ∧ 0 < s.quantaLimit
  refused : ∀ s : Settings, ¬(0 < s.concurrency ∧ 0 < s.quantaLimit) →
    ∃ field : SettingsField, field.bound s = 0 ∧ Settings.read s.write = .error (.zero field)

theorem forms_read_back : FormsReadBack where
  schema s := ⟨s.ofJson?_toJson, s.read_write⟩
  omitted c := ⟨c.entries, Json.toFields?_ofFields _, c.names_entries⟩
  absent v fields c h hfields := TableColumn.options_of_ofJson? h hfields
  reread text := by
    cases h : Schema.read text with
    | none => rfl
    | some s => rw [Option.bind_some, s.read_write]
  rewritten text := by
    unfold Schema.rewrite?
    cases h : Schema.read text with
    | none => rfl
    | some s => rw [Option.map_some, Option.bind_some, s.read_write, Option.map_some]
  settings s := s.ofJson?_toJson
  accepted_iff s := by
    rw [Settings.read_write]
    rcases s.check_cases with ⟨hcheck, hpos⟩ | ⟨field, hzero, hcheck⟩
    · rw [hcheck]
      exact ⟨fun _ => hpos, fun _ => rfl⟩
    · rw [hcheck]
      refine ⟨nofun, fun hpos => ?_⟩
      cases field with
      | concurrency => exact absurd hzero (UInt64.pos_iff_ne_zero.mp hpos.1)
      | quantaLimit => exact absurd hzero (UInt64.pos_iff_ne_zero.mp hpos.2)
  refused s h := by
    rcases s.check_cases with ⟨-, hpos⟩ | ⟨field, hzero, hcheck⟩
    · exact absurd hpos h
    · exact ⟨field, hzero, by rw [Settings.read_write, hcheck]; rfl⟩

end Timeslice
