/-
The settings of a run.

* `GivenSettings`, `GivenSettings.IsIn`: what a file says about the
  settings; `exists_isIn`: each value of a file that keeps to the schema is
  of its type;
* `GivenSettings.under`: the settings, first by the command line, then by the
  file, and else the usual ones; lists of names grow;
* `result_readSettingsFile_isOk_iff`: a file is read exactly if it keeps to
  the schema;
* `readSettings_layered`: the command line then never fails, and the
  settings are these; `not_space_eq_of_given`: an empty text of the command
  line says nothing.
-/
import Mathlib
import HeaderBinding.Proofs.Command.Directory
import HeaderBinding.Proofs.Mapping.Words
import HeaderBinding.Proofs.Settings.Schema

namespace HeaderBinding

open HeaderBinding.Action

variable {file v : Json} {c : Console} {p : Path}

/-! ### What a file says -/

/-- What a file says about the settings. -/
structure GivenSettings where
  heuristic? : Option Bool := none
  externNames? : Option (List LooseText) := none
  skipNames? : Option (List LooseText) := none
  space? : Option LooseText := none
  format? : Option String := none

/-- The file says this, and nothing else. -/
structure GivenSettings.IsIn (g : GivenSettings) (file : Json) : Prop where
  heuristic : settingIn? file "lexer" "macro_heuristic"
    = g.heuristic?.map Json.bool
  externNames : settingIn? file "lexer" "extern_macros"
    = g.externNames?.map Json.ofTexts
  skipNames : settingIn? file "lexer" "extra_skip_macros"
    = g.skipNames?.map Json.ofTexts
  space : settingIn? file "output" "namespace" = g.space?.map Json.str
  format : settingIn? file "output" "format"
    = g.format?.map fun s : String => Json.str s

/-- The kind of the values of a field, if the schema knows it. -/
def kindOf? (part field : String) : Option ValueKind :=
  (settingsSchema.lookup part).bind (List.lookup field)

/-- A value that is given keeps to the schema of its kind. -/
lemma accepts_of_settingIn? {part field : String} {kind : ValueKind}
    (h : settingsFileSchema.Accepts file)
    (hkind : kindOf? part field = some kind)
    (hv : settingIn? file part field = some v) : kind.schema.Accepts v := by
  rw [settingsFileSchema_eq] at h
  obtain ⟨fields, rfl, -, hsections⟩ := accepts_object_iff.mp h
  obtain ⟨known, hknown, hkind⟩ := Option.bind_eq_some_iff.mp hkind
  obtain ⟨found, hfound, hv⟩ := Option.bind_eq_some_iff.mp hv
  have hsection := hsections part (sectionSchema known) found
    (List.mem_map.mpr ⟨_, mem_of_lookup hknown, rfl⟩) hfound
  obtain ⟨inner, rfl, -, hvalues⟩ := accepts_object_iff.mp hsection
  exact hvalues field kind.schema v
    (List.mem_map.mpr ⟨_, mem_of_lookup hkind, rfl⟩) hv

/-- Where the schema wants values of a type, one of them is given, or
none. -/
lemma exists_settingIn? {α : Type} {f : α → Json} {kind : ValueKind}
    (h : settingsFileSchema.Accepts file) (part field : String)
    (hkind : kindOf? part field = some kind)
    (hf : ∀ v, kind.schema.Accepts v → ∃ a, v = f a) :
    ∃ a?, settingIn? file part field = Option.map f a? := by
  cases hv : settingIn? file part field with
  | none => exact ⟨none, rfl⟩
  | some v =>
      obtain ⟨a, rfl⟩ := hf v (accepts_of_settingIn? h hkind hv)
      exact ⟨some a, rfl⟩

lemma exists_eq_ofTexts (h : (Schema.array (.string 1)).Accepts v) :
    ∃ names, v = Json.ofTexts names := by
  obtain ⟨vs, rfl, hvs⟩ := accepts_array_iff.mp h
  clear h
  induction vs with
  | nil => exact ⟨[], rfl⟩
  | cons x vs ih =>
      obtain ⟨hx, hmore⟩ := List.forall_mem_cons.mp hvs
      obtain ⟨name, rfl, -⟩ := accepts_string_iff.mp hx
      obtain ⟨names, hnames⟩ := ih hmore
      rw [Json.arr.inj hnames]
      exact ⟨name :: names, rfl⟩

/-- A file that keeps to the schema says something about the settings: each
value that it gives is of its type. -/
lemma exists_isIn (h : settingsFileSchema.Accepts file) :
    ∃ g : GivenSettings, g.IsIn file := by
  have hnames : ∀ v, ValueKind.names.schema.Accepts v →
      ∃ names, v = Json.ofTexts names := fun _ => exists_eq_ofTexts
  obtain ⟨heuristic?, hheuristic⟩ := exists_settingIn? h
    "lexer" "macro_heuristic" rfl fun _ => accepts_boolean_iff.mp
  obtain ⟨externNames?, hextern⟩ := exists_settingIn? h
    "lexer" "extern_macros" rfl hnames
  obtain ⟨skipNames?, hskip⟩ := exists_settingIn? h
    "lexer" "extra_skip_macros" rfl hnames
  obtain ⟨space?, hspace⟩ := exists_settingIn? h "output" "namespace" rfl
    fun _ hv => (accepts_string_iff.mp hv).imp fun _ => And.left
  obtain ⟨format?, hformat⟩ := exists_settingIn? h "output" "format" rfl
    fun _ hv => (accepts_oneOf_iff.mp hv).imp fun _ => And.left
  exact ⟨⟨heuristic?, externNames?, skipNames?, space?, format?⟩,
    hheuristic, hextern, hskip, hspace, hformat⟩

/-! ### Layers -/

/-- The settings of a run: first what the command line says, where an empty
text says nothing, then what the file says, and else the usual ones; the
names of the command line come behind those of the file. -/
def GivenSettings.under (g : GivenSettings) (o : Overrides) : Settings where
  heuristic := if o.noHeuristic then false else g.heuristic?.getD true
  externNames :=
    g.externNames?.getD [] ++ o.externNames.map LooseText.ofString
  skipNames := g.skipNames?.getD [] ++ o.skipNames.map LooseText.ofString
  space := (((o.space?.filter (· ≠ "")).map LooseText.ofString).or
    g.space?).getD "Bindings"
  format := ((o.format?.filter (· ≠ "")).or g.format?).getD "csharp"

lemma bind_texts_map_ofTexts (names? : Option (List LooseText)) :
    (names?.map Json.ofTexts).bind Json.texts? = names? := by
  have htexts : ∀ names : List LooseText,
      (Json.ofTexts names).texts? = some names := by
    intro names
    simp [Json.ofTexts, Json.texts?, List.filterMap_map, Function.comp_def,
      Json.text?]
  cases names? with
  | none => rfl
  | some names => exact htexts names

/-- The settings of a file, with those of the command line. -/
lemma GivenSettings.IsIn.override_update {g : GivenSettings}
    (h : g.IsIn file) (o : Overrides) :
    (({} : Settings).update file).override o = g.under o := by
  have hbool : (g.heuristic?.map Json.bool).bind Json.bool?
      = g.heuristic? := by
    cases g.heuristic? <;> rfl
  have htext : ∀ s? : Option LooseText,
      (s?.map Json.str).bind Json.text? = s? := by
    intro s?
    cases s? <;> rfl
  have hformat : ∀ s? : Option String,
      ((s?.map fun s : String => Json.str s).bind Json.text?).bind
        LooseText.plain? = s? := by
    intro s?
    cases s? with
    | none => rfl
    | some s => exact LooseText.plain?_ofString s
  have hheuristic : ∀ b : Bool,
      (b && !o.noHeuristic) = if o.noHeuristic then false else b := by
    intro b
    cases o.noHeuristic <;> simp
  rw [Settings.override, Settings.update, h.heuristic, h.externNames,
    h.skipNames, h.space, h.format]
  dsimp only
  rw [bind_texts_map_ofTexts, bind_texts_map_ofTexts, hbool, htext,
    hformat, hheuristic, ← Option.getD_or, ← Option.getD_or]
  rfl

/-! ### Reading -/

section Reading

variable {s : Station} {text : String}

/-- The settings that a file gives, or the fault that is found in it. -/
lemma result_readSettingsFile (htext : c.tree.textAt? p = some text)
    (hjson : readJson text.toList = .ok file) :
    (readSettingsFile s p).result c
      = (match checkedSettings s file with
        | .ok v => .ok (({} : Settings).update v)
        | .error f => .error f, c) := by
  have hload : (loadText p .unreadableSettings).result c
      = (.ok text.toList, c) :=
    result_loadText_eq_ok_iff.mpr ⟨by rwa [String.ofList_toList], rfl⟩
  rw [readSettingsFile, result_bind_of_ok hload, hjson]
  dsimp only
  cases checkedSettings s file <;> rfl

/-- A file is read exactly if it keeps to the schema. -/
lemma result_readSettingsFile_isOk_iff (hs : s.Validates)
    (htext : c.tree.textAt? p = some text)
    (hjson : readJson text.toList = .ok file) :
    (∃ settings, (readSettingsFile s p).result c = (.ok settings, c))
      ↔ settingsFileSchema.Accepts file := by
  rw [result_readSettingsFile htext hjson]
  constructor
  · rintro ⟨settings, h⟩
    split at h
    · rename_i v hv
      exact ((checkedSettings_eq_ok_iff hs).mp hv).1
    · cases h
  · intro h
    rw [(checkedSettings_eq_ok_iff hs).mpr ⟨h, rfl⟩]
    exact ⟨_, rfl⟩

/-- The settings of a run are those of its file, with those of the command
line. -/
lemma result_readSettings {config : String} {settings : Settings}
    (o : Overrides) (hconfig : config ≠ "")
    (hplace : s.place? config = some p)
    (h : (readSettingsFile s p).result c = (.ok settings, c)) :
    (readSettings s (some config) o).result c
      = (.ok (settings.override o), c) := by
  have hsome : nonempty? (some config) = some config := by
    simp [nonempty?, hconfig]
  rw [readSettings, hsome]
  dsimp only
  rw [result_bind_of_ok (result_place_eq_ok_iff.mpr ⟨hplace, rfl⟩),
    result_bind_of_ok h, result_pure]

/-- Without a file, the settings are those of the command line. -/
lemma result_readSettings_of_none {config? : Option String} (o : Overrides)
    (hconfig : nonempty? config? = none) :
    (readSettings s config? o).result c
      = (.ok (({} : GivenSettings).under o), c) := by
  have hnone : ({} : GivenSettings).IsIn (.obj []) :=
    ⟨rfl, rfl, rfl, rfl, rfl⟩
  rw [readSettings, hconfig, ← hnone.override_update]
  rfl

/-- **Settings in layers.**  The check by hand lets pass every value that the
schema accepts, so that a settings file is read exactly if it keeps to the
schema, as the validator does not accept any other.  With it, or without a
file, the command line does not fail: each setting is that of the command
line, unless this is empty, or else that of the file, or else the usual one;
and lists of names are those of the file and then those of the command
line. -/
theorem readSettings_layered (hs : s.Validates)
    (htext : c.tree.textAt? p = some text)
    (hjson : readJson text.toList = .ok file) :
    (∀ v, settingsFileSchema.Accepts v → checkSettings v = .ok ())
      ∧ ((∃ settings, (readSettingsFile s p).result c = (.ok settings, c))
        ↔ settingsFileSchema.Accepts file)
      ∧ (settingsFileSchema.Accepts file →
        ∃ g : GivenSettings, g.IsIn file
          ∧ ∀ (config : String) (o : Overrides),
            config ≠ "" → s.place? config = some p →
            (readSettings s (some config) o).result c
              = (.ok (g.under o), c))
      ∧ ∀ (s' : Station) (config? : Option String) (o : Overrides),
        nonempty? config? = none →
        (readSettings s' config? o).result c
          = (.ok (({} : GivenSettings).under o), c) := by
  refine ⟨fun v hv => checkSettings_eq_ok_iff.mpr hv.checksOut,
    result_readSettingsFile_isOk_iff hs htext hjson, fun h => ?_,
    fun _ _ => result_readSettings_of_none⟩
  obtain ⟨g, hg⟩ := exists_isIn h
  refine ⟨g, hg, fun config o hconfig hplace => ?_⟩
  rw [result_readSettings o hconfig hplace, hg.override_update]
  rw [result_readSettingsFile htext hjson,
    (checkedSettings_eq_ok_iff hs).mpr ⟨h, rfl⟩]

end Reading

lemma validates_rootStation : rootStation.Validates :=
  validates_schemaMessage? [] "linux"

/-- A settings file. -/
def kitText : String :=
  "\x7b\"lexer\": \x7b\"extern_macros\": [\"KIT\"]\x7d, " ++
    "\"output\": \x7b\"namespace\": \"Kit\"\x7d\x7d"

/-- Its value. -/
def kitFile : Json :=
  .ofFields [("lexer", .ofFields [("extern_macros", .ofStrings ["KIT"])]),
    ("output", .ofFields [("namespace", .str "Kit")])]

/-- The file is found. -/
def kitConsole : Console where
  tree := ⟨[(["kit.json"], .file (encodeUtf8 kitText.toList))]⟩

/-- The file names a macro and the namespace; the command line turns the
heuristic off, and names another macro and another namespace. -/
theorem readSettings_layered_kit :
    (readSettings rootStation (some "kit.json")
        { noHeuristic := true
          externNames := ["OUR"]
          space? := some "Our" }).result kitConsole
      = (.ok { heuristic := false
               externNames := ["KIT", "OUR"]
               space := "Our" }, kitConsole) := by
  have htext : kitConsole.tree.textAt? ["kit.json"] = some kitText := by
    decide +kernel
  have hjson : readJson kitText.toList = .ok kitFile := by
    cbv
  have haccepts : settingsFileSchema.Accepts kitFile :=
    schemaFault?_eq_none_iff.mp (by cbv)
  obtain ⟨-, -, hlayers, -⟩ :=
    readSettings_layered validates_rootStation htext hjson
  obtain ⟨g, hg, hread⟩ := hlayers haccepts
  rw [hread "kit.json" _ (by decide) (by decide +kernel),
    ← hg.override_update]
  cbv

/-- A settings file that says nothing. -/
def bareText : String := "\x7b\x7d"

/-- The file is found. -/
def bareConsole : Console where
  tree := ⟨[(["bare.json"], .file (encodeUtf8 bareText.toList))]⟩

/-- An empty namespace of the command line is given, but does not count, with
a file that keeps to the schema. -/
theorem not_space_eq_of_given :
    bareConsole.tree.textAt? ["bare.json"] = some bareText
      ∧ readJson bareText.toList = .ok (.obj [])
      ∧ settingsFileSchema.Accepts (.obj [])
      ∧ (readSettings rootStation (some "bare.json")
          { space? := some "" }).result bareConsole = (.ok {}, bareConsole)
      ∧ ({} : Settings).space ≠ "" := by
  have htext : bareConsole.tree.textAt? ["bare.json"] = some bareText := by
    decide +kernel
  have hjson : readJson bareText.toList = .ok (.obj []) := by
    cbv
  have haccepts : settingsFileSchema.Accepts (.obj []) :=
    schemaFault?_eq_none_iff.mp (by cbv)
  refine ⟨htext, hjson, haccepts, ?_, by decide⟩
  have hread : (readSettingsFile rootStation ["bare.json"]).result bareConsole
      = (.ok {}, bareConsole) := by
    rw [result_readSettingsFile htext hjson,
      (checkedSettings_eq_ok_iff validates_rootStation).mpr ⟨haccepts, rfl⟩]
    rfl
  rw [result_readSettings _ (by decide) (by decide +kernel) hread]
  rfl

end HeaderBinding
