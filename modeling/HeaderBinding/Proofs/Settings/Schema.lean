/-
Settings files and their schema.

* `Schema`, `Schema.Accepts`: schemas, and the values that keep to them;
  `settingsFileSchema`: the schema of a settings file;
* `conforms_iff`, `schemaFault?_eq_none_iff`: a fault is found exactly in
  the files that the schema does not accept;
* `ChecksOut`: what the check by hand lets pass, which takes a null for
  nothing and does not look at the names of fields; `checkSettings_eq_ok_iff`;
* `Schema.Accepts.checksOut`: this is all that the schema accepts, and
  more;
* `Station.Validates`: what is asked of a validator; the one that looks for
  a fault is such (`validates_schemaMessage?`);
* `checkedSettings_eq_ok_iff`: both checks together let pass what the schema
  accepts.
-/
import Mathlib.Data.List.Basic
import HeaderBinding.Command.Input
import HeaderBinding.Settings.Schema

namespace HeaderBinding

variable {v file : Json} {fields : List (LooseText × Json)} {name : String}

/-! ### Schemas -/

/-- Schemas of values.  An object has no other fields than those that are
named. -/
inductive Schema
  | boolean
  | string (minLength : Nat)
  | oneOf (allowed : List String)
  | array (items : Schema)
  | object (properties : List (String × Schema))

/-- The names of some known fields. -/
def fieldNames {α : Type} (known : List (String × α)) : List LooseText :=
  known.map fun f => LooseText.ofString f.1

/-- A value keeps to a schema. -/
inductive Schema.Accepts : Schema → Json → Prop
  | boolean (b : Bool) : Accepts .boolean (.bool b)
  | string {minLength : Nat} {s : LooseText} :
      minLength ≤ s.units.length → Accepts (.string minLength) (.str s)
  | oneOf {allowed : List String} {s : String} : s ∈ allowed →
      Accepts (.oneOf allowed) (.str s)
  | array {items : Schema} {vs : List Json} :
      (∀ v ∈ vs, Accepts items v) → Accepts (.array items) (.arr vs)
  | object {properties : List (String × Schema)}
      {fields : List (LooseText × Json)} :
      (∀ field ∈ fields, field.1 ∈ fieldNames properties) →
      (∀ name schema v, (name, schema) ∈ properties →
        fields.lookup (LooseText.ofString name) = some v →
          Accepts schema v) →
      Accepts (.object properties) (.obj fields)

/-- The schema of a settings file. -/
def settingsFileSchema : Schema :=
  .object
    [("lexer", .object
        [("macro_heuristic", .boolean),
          ("extern_macros", .array (.string 1)),
          ("extra_skip_macros", .array (.string 1))]),
      ("output", .object
        [("namespace", .string 1), ("format", .oneOf ["csharp", "json"])])]

/-- The schema of the values of a kind. -/
def ValueKind.schema : ValueKind → Schema
  | truth => .boolean
  | names => .array (.string 1)
  | text => .string 1
  | choice allowed => .oneOf allowed

/-! ### Accepted values -/

section Accepts

variable {minLength : Nat} {allowed : List String} {items : Schema}
  {properties : List (String × Schema)}

lemma accepts_boolean_iff : Schema.boolean.Accepts v ↔ ∃ b, v = .bool b := by
  constructor
  · intro h
    cases h with
    | boolean b => exact ⟨b, rfl⟩
  · rintro ⟨b, rfl⟩
    exact .boolean b

lemma accepts_string_iff :
    (Schema.string minLength).Accepts v
      ↔ ∃ s, v = .str s ∧ minLength ≤ s.units.length := by
  constructor
  · intro h
    cases h with
    | string hs => exact ⟨_, rfl, hs⟩
  · rintro ⟨s, rfl, hs⟩
    exact .string hs

lemma accepts_oneOf_iff :
    (Schema.oneOf allowed).Accepts v
      ↔ ∃ s : String, v = .str s ∧ s ∈ allowed := by
  constructor
  · intro h
    cases h with
    | oneOf hs => exact ⟨_, rfl, hs⟩
  · rintro ⟨s, rfl, hs⟩
    exact .oneOf hs

lemma accepts_array_iff :
    (Schema.array items).Accepts v
      ↔ ∃ vs, v = .arr vs ∧ ∀ x ∈ vs, items.Accepts x := by
  constructor
  · intro h
    cases h with
    | array hvs => exact ⟨_, rfl, hvs⟩
  · rintro ⟨vs, rfl, hvs⟩
    exact .array hvs

lemma accepts_object_iff :
    (Schema.object properties).Accepts v
      ↔ ∃ fields, v = .obj fields
        ∧ (∀ field ∈ fields, field.1 ∈ fieldNames properties)
        ∧ ∀ name schema v, (name, schema) ∈ properties →
          fields.lookup (LooseText.ofString name) = some v →
            schema.Accepts v := by
  constructor
  · intro h
    cases h with
    | object hknown hvalues => exact ⟨_, rfl, hknown, hvalues⟩
  · rintro ⟨fields, rfl, hknown, hvalues⟩
    exact .object hknown hvalues

end Accepts

/-! ### Faults -/

lemma one_le_length_iff {s : LooseText} :
    1 ≤ s.units.length ↔ s.isEmpty = false := by
  rw [Nat.one_le_iff_ne_zero, ne_eq, List.length_eq_zero_iff,
    LooseText.isEmpty, List.isEmpty_eq_false_iff]

lemma textFaults_eq_nil_iff {path : List String} :
    textFaults path v = [] ↔ (Schema.string 1).Accepts v := by
  simp only [accepts_string_iff, one_le_length_iff]
  cases v with
  | str s => cases hs : s.isEmpty <;> simp [textFaults, hs]
  | _ => exact iff_of_false (List.cons_ne_nil _ _) (by simp)

/-- A value has no fault exactly if the schema of its kind accepts it. -/
lemma valueFaults_eq_nil_iff {path : List String} {kind : ValueKind} :
    valueFaults path kind v = [] ↔ kind.schema.Accepts v := by
  cases kind with
  | truth =>
      rw [ValueKind.schema, accepts_boolean_iff]
      cases v with
      | bool b => exact iff_of_true rfl ⟨b, rfl⟩
      | _ => exact iff_of_false (List.cons_ne_nil _ _) (by simp)
  | names =>
      rw [ValueKind.schema, accepts_array_iff]
      cases v with
      | arr items =>
          rw [valueFaults, List.flatten_eq_nil_iff]
          constructor
          · intro h
            refine ⟨items, rfl,
              List.forall_mem_iff_getElem.mpr fun i hi => ?_⟩
            exact textFaults_eq_nil_iff.mp
              (h _ (List.mem_mapIdx.mpr ⟨i, hi, rfl⟩))
          · rintro ⟨vs, hvs, h⟩ found hfound
            obtain rfl := Json.arr.inj hvs
            obtain ⟨i, hi, rfl⟩ := List.mem_mapIdx.mp hfound
            exact textFaults_eq_nil_iff.mpr (h _ (List.getElem_mem hi))
      | _ => exact iff_of_false (List.cons_ne_nil _ _) (by simp)
  | text => exact textFaults_eq_nil_iff
  | choice allowed =>
      rw [ValueKind.schema, accepts_oneOf_iff]
      cases v with
      | str s => simp [valueFaults, eq_comm, and_comm]
      | _ => exact iff_of_false (List.cons_ne_nil _ _) (by simp)

/-- No field is extra exactly if the schema names all of them. -/
lemma extraKeys_eq_nil_iff {α : Type} {schema : List (String × α)} :
    extraKeys schema fields = []
      ↔ ∀ field ∈ fields, field.1 ∈ fieldNames schema := by
  rw [extraKeys, ← List.length_eq_zero_iff, List.length_mergeSort,
    List.length_eq_zero_iff, List.filter_eq_nil_iff]
  simp [fieldNames]

/-- An object has no fault exactly if its fields are known and the values of
the known fields have none. -/
lemma objectFaults_eq_nil_iff {α : Type} {path : List String}
    {schema : List (String × α)} {inner : α → Schema}
    {faults : List String → α → Json → List SchemaFault}
    (hinner : ∀ path a v, faults path a v = [] ↔ (inner a).Accepts v) :
    objectFaults path schema faults v = []
      ↔ (Schema.object
        (schema.map fun s => (s.1, inner s.2))).Accepts v := by
  have hnames : fieldNames (schema.map fun s => (s.1, inner s.2))
      = fieldNames schema := by
    simp [fieldNames, Function.comp_def]
  rw [accepts_object_iff]
  cases v with
  | obj fields =>
      have hextra : (if (extraKeys schema fields).isEmpty then []
            else [⟨path, .extraKeys (extraKeys schema fields)⟩])
            = ([] : List SchemaFault)
          ↔ ∀ field ∈ fields, field.1 ∈ fieldNames schema := by
        rw [← extraKeys_eq_nil_iff]
        simp
      rw [objectFaults, List.append_eq_nil_iff, hextra,
        List.flatMap_eq_nil_iff]
      constructor
      · rintro ⟨hknown, hvalues⟩
        refine ⟨fields, rfl, by rwa [hnames], fun name s v hs hv => ?_⟩
        obtain ⟨a, ha, hpair⟩ := List.mem_map.mp hs
        obtain ⟨rfl, rfl⟩ := Prod.mk.inj hpair
        have hnone := hvalues a ha
        rw [hv] at hnone
        exact (hinner _ _ _).mp hnone
      · rintro ⟨_, hfields, hknown, hvalues⟩
        obtain rfl := Json.obj.inj hfields
        rw [hnames] at hknown
        refine ⟨hknown, fun a ha => ?_⟩
        split
        · rename_i v hv
          exact (hinner _ _ _).mpr
            (hvalues _ _ v (List.mem_map.mpr ⟨a, ha, rfl⟩) hv)
        · rfl
  | _ => exact iff_of_false (List.cons_ne_nil _ _) (by simp)

/-- The schema of a section with some fields. -/
def sectionSchema (known : List (String × ValueKind)) : Schema :=
  .object (known.map fun f => (f.1, f.2.schema))

lemma settingsFileSchema_eq :
    settingsFileSchema
      = .object (settingsSchema.map fun s => (s.1, sectionSchema s.2)) := rfl

/-- A settings file has no fault exactly if the schema accepts it. -/
theorem conforms_iff : Conforms file ↔ settingsFileSchema.Accepts file := by
  rw [Conforms, schemaFaults, settingsFileSchema_eq]
  exact objectFaults_eq_nil_iff fun _ _ _ =>
    objectFaults_eq_nil_iff fun _ _ _ => valueFaults_eq_nil_iff

/-- A fault is told exactly if there is one. -/
theorem schemaFault?_eq_none_iff :
    schemaFault? file = none ↔ settingsFileSchema.Accepts file := by
  rw [← conforms_iff, Conforms, schemaFault?]
  split <;> simp_all

/-! ### The check by hand -/

lemma isTruth_iff : isTruth v = true ↔ Schema.boolean.Accepts v := by
  rw [accepts_boolean_iff]
  cases v <;> simp [isTruth]

lemma isName_iff : isName v = true ↔ (Schema.string 1).Accepts v := by
  simp only [accepts_string_iff, one_le_length_iff]
  cases v <;> simp [isName]

lemma isNameList_iff :
    isNameList v = true ↔ (Schema.array (.string 1)).Accepts v := by
  simp only [accepts_array_iff, ← isName_iff]
  cases v <;> simp [isNameList]

lemma isFormatName_iff :
    isFormatName v = true ↔ (Schema.oneOf outputFormats).Accepts v := by
  rw [accepts_oneOf_iff]
  cases v <;> simp [isFormatName, eq_comm, and_comm]

section Checks

variable {ε α β : Type}

/-- A step behind another. -/
lemma bind_eq_ok_iff {x : Except ε α} {f : α → Except ε β} {b : β} :
    (x >>= f) = .ok b ↔ ∃ a, x = .ok a ∧ f a = .ok b := by
  cases x with
  | ok a =>
      refine ⟨fun h => ⟨a, rfl, h⟩, ?_⟩
      rintro ⟨_, ha, h⟩
      obtain rfl := Except.ok.inj ha
      exact h
  | error e => exact iff_of_false (fun h => by cases h) (by simp)

/-- Two checks pass one behind the other if both do. -/
lemma check_bind_eq_ok_iff {x : Except ε Unit} {y : Except ε β} {b : β} :
    (x >>= fun _ => y) = .ok b ↔ x = .ok () ∧ y = .ok b := by
  rw [bind_eq_ok_iff]
  exact ⟨fun ⟨_, hx, hy⟩ => ⟨hx, hy⟩, fun ⟨hx, hy⟩ => ⟨(), hx, hy⟩⟩

/-- A check of each of some names passes if it does for all of them. -/
lemma forIn_eq_ok_iff {names : List String}
    {check : String → Except ε Unit} :
    (do for name in names do check name) = .ok ()
      ↔ ∀ name ∈ names, check name = .ok () := by
  induction names with
  | nil => exact iff_of_true rfl (List.forall_mem_nil _)
  | cons name names ih =>
      rw [List.forall_mem_cons, ← ih, List.forIn_cons]
      simp only [bind_assoc, pure_bind]
      exact check_bind_eq_ok_iff

end Checks

/-- A value passes a test if it is null, or has what is tested. -/
lemma passes_eq_ok_iff {fault : SettingsFault} {test : Json → Bool}
    {schema : Schema} (htest : ∀ v, test v = true ↔ schema.Accepts v) :
    passes fault test v = .ok () ↔ v = .null ∨ schema.Accepts v := by
  rw [← htest]
  by_cases hv : v = .null
  · subst hv
    exact iff_of_true rfl (.inl rfl)
  · have hpasses : passes fault test v
        = if test v then .ok () else .error fault := by
      cases v with
      | null => exact absurd rfl hv
      | _ => rfl
    rw [hpasses, or_iff_right hv]
    cases test v <;> simp

/-- What the check by hand lets pass as a section: a null, or an object in
which each known field is missing, null or as the schema has it. -/
def SectionChecksOut (known : List (String × ValueKind)) (v : Json) : Prop :=
  v = .null ∨ ∃ fields, v = .obj fields
    ∧ ∀ f ∈ known, fieldOrNull fields f.1 = .null
      ∨ f.2.schema.Accepts (fieldOrNull fields f.1)

/-- What it lets pass as a settings file: an object of known sections. -/
def ChecksOut (file : Json) : Prop :=
  ∃ fields, file = .obj fields
    ∧ (∀ field ∈ fields, field.1 ∈ sectionNames.map LooseText.ofString)
    ∧ ∀ s ∈ settingsSchema, SectionChecksOut s.2 (fieldOrNull fields s.1)

/-- The fields of a null are all missing. -/
lemma sectionFields_eq_ok_iff {part : String} :
    sectionFields part v = .ok fields
      ↔ v = .null ∧ fields = [] ∨ v = .obj fields := by
  cases v <;> simp [sectionFields, eq_comm]

/-- A section passes if its fields do, where a null has none. -/
lemma sectionChecksOut_iff (part : String)
    {known : List (String × ValueKind)} :
    (∃ fields, sectionFields part v = .ok fields
        ∧ ∀ f ∈ known, fieldOrNull fields f.1 = .null
          ∨ f.2.schema.Accepts (fieldOrNull fields f.1))
      ↔ SectionChecksOut known v := by
  simp only [sectionFields_eq_ok_iff]
  constructor
  · rintro ⟨fields, ⟨rfl, -⟩ | rfl, hfields⟩
    · exact .inl rfl
    · exact .inr ⟨fields, rfl, hfields⟩
  · rintro (rfl | ⟨fields, rfl, hfields⟩)
    · exact ⟨[], .inl ⟨rfl, rfl⟩, fun _ _ => .inl rfl⟩
    · exact ⟨fields, .inr rfl, hfields⟩

lemma checkLexer_eq_ok_iff :
    checkLexer v = .ok ()
      ↔ SectionChecksOut [("macro_heuristic", .truth),
        ("extern_macros", .names), ("extra_skip_macros", .names)] v := by
  rw [← sectionChecksOut_iff "lexer", checkLexer, bind_eq_ok_iff]
  refine exists_congr fun fields => and_congr_right fun _ => ?_
  rw [check_bind_eq_ok_iff, forIn_eq_ok_iff]
  simp only [passes_eq_ok_iff (fun _ => isTruth_iff),
    passes_eq_ok_iff (fun _ => isNameList_iff)]
  simp [ValueKind.schema]

lemma checkOutput_eq_ok_iff :
    checkOutput v = .ok ()
      ↔ SectionChecksOut
        [("namespace", .text), ("format", .choice outputFormats)] v := by
  rw [← sectionChecksOut_iff "output", checkOutput, bind_eq_ok_iff]
  refine exists_congr fun fields => and_congr_right fun _ => ?_
  rw [check_bind_eq_ok_iff]
  simp only [passes_eq_ok_iff (fun _ => isName_iff),
    passes_eq_ok_iff (fun _ => isFormatName_iff)]
  simp [ValueKind.schema]

/-- The check by hand lets pass what is said above, and nothing else. -/
theorem checkSettings_eq_ok_iff :
    checkSettings file = .ok () ↔ ChecksOut file := by
  cases file with
  | obj fields =>
      have hknown : ((fields.map (·.1)).filter
            (!(sectionNames.map LooseText.ofString).contains ·)).isEmpty
            = true
          ↔ ∀ field ∈ fields,
            field.1 ∈ sectionNames.map LooseText.ofString := by
        simp [List.filter_eq_nil_iff]
      have hsections : ChecksOut (.obj fields)
          ↔ (∀ field ∈ fields,
              field.1 ∈ sectionNames.map LooseText.ofString)
            ∧ checkLexer (fieldOrNull fields "lexer") = .ok ()
            ∧ checkOutput (fieldOrNull fields "output") = .ok () := by
        rw [checkLexer_eq_ok_iff, checkOutput_eq_ok_iff]
        simp [ChecksOut, settingsSchema]
      rw [checkSettings, hsections, ← hknown]
      split
      · rename_i hnone
        rw [and_iff_right hnone]
        exact check_bind_eq_ok_iff
      · rename_i hsome
        exact iff_of_false (fun h => by cases h) fun h => hsome h.1
  | _ => exact iff_of_false (fun h => by cases h) (by simp [ChecksOut])

/-! ### Both checks -/

/-- A known field that is given keeps to its schema, and one that is missing
counts as null. -/
lemma null_or_accepts {properties : List (String × Schema)}
    {schema : Schema}
    (h : ∀ name schema v, (name, schema) ∈ properties →
      fields.lookup (LooseText.ofString name) = some v → schema.Accepts v)
    (hs : (name, schema) ∈ properties) :
    fieldOrNull fields name = .null
      ∨ schema.Accepts (fieldOrNull fields name) := by
  rw [fieldOrNull]
  cases hv : fields.lookup (LooseText.ofString name) with
  | none => exact .inl rfl
  | some v => exact .inr (h name schema v hs hv)

lemma sectionChecksOut_of_accepts {known : List (String × ValueKind)}
    (h : (sectionSchema known).Accepts v) : SectionChecksOut known v := by
  obtain ⟨fields, rfl, -, hvalues⟩ := accepts_object_iff.mp h
  exact .inr ⟨fields, rfl, fun f hf =>
    null_or_accepts hvalues (List.mem_map.mpr ⟨f, hf, rfl⟩)⟩

/-- The check by hand lets pass all that the schema accepts. -/
theorem Schema.Accepts.checksOut (h : settingsFileSchema.Accepts file) :
    ChecksOut file := by
  rw [settingsFileSchema_eq] at h
  obtain ⟨fields, rfl, hknown, hvalues⟩ := accepts_object_iff.mp h
  refine ⟨fields, rfl, hknown, fun s hs => ?_⟩
  rcases null_or_accepts hvalues (List.mem_map.mpr ⟨s, hs, rfl⟩)
    with hnull | haccepts
  · exact .inl hnull
  · exact sectionChecksOut_of_accepts haccepts

/-- The validator accepts just the files that keep to the schema. -/
def Station.Validates (s : Station) : Prop :=
  ∀ file, s.schemaMessage? file = none ↔ settingsFileSchema.Accepts file

/-- Such a validator is the one that looks for a fault. -/
theorem validates_schemaMessage? (folder : Path) (platform : String) :
    (Station.mk folder platform schemaMessage?).Validates := by
  intro file
  rw [← schemaFault?_eq_none_iff]
  exact Option.map_eq_none_iff

/-- Both checks together let pass what the schema accepts. -/
theorem checkedSettings_eq_ok_iff {s : Station} (hs : s.Validates)
    {file' : Json} :
    checkedSettings s file = .ok file'
      ↔ settingsFileSchema.Accepts file ∧ file' = file := by
  rw [← hs, checkedSettings]
  cases hcheck : checkSettings file with
  | error f =>
      refine iff_of_false (fun h => by cases h) fun ⟨hnone, _⟩ => ?_
      have hok := checkSettings_eq_ok_iff.mpr ((hs file).mp hnone).checksOut
      rw [hcheck] at hok
      cases hok
  | ok =>
      cases s.schemaMessage? file with
      | none => simp [eq_comm]
      | some f => simp

end HeaderBinding
