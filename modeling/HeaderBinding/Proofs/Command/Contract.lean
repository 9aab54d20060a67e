/-
What a command that reads headers promises about its exit code and about
the files.

* `Action.KeepsTree`: a step that leaves the files alone, whether it
  succeeds or stops; so do all steps that read (`keepsTree_readInput`), and
  those that write if they only check or try (`keepsTree_action`);
* `CommandName.text?`: what is made of the headers, if they can be bound and
  the text has octets; `dueFiles?`: the files that are due then;
* `Artifact.IsStale`: a file does not have its text; `any_drifts_iff`: only a
  check tells so;
* `exists_runsThrough`: a run that ends well reads its input, and then
  brings the files that are due up to date;
* `exitCode_contract`: what the exit code means, and which files change;
* `not_readsBack_empty`: an output whose name is empty is none.
-/
import HeaderBinding.Proofs.Command.Directory
import HeaderBinding.Proofs.Json.Printed

namespace HeaderBinding

open HeaderBinding.Action FileTree

namespace Action

/-! ### Steps that leave the files alone -/

section KeepsTree

variable {α β : Type}

/-- The step leaves the files as they are, whether it succeeds or stops. -/
def KeepsTree (act : Action α) : Prop :=
  ∀ c, (act.result c).2.tree = c.tree

lemma keepsTree_pure (v : α) : KeepsTree (pure v : Action α) :=
  fun _ => rfl

lemma keepsTree_throw (f : CommandFault) :
    KeepsTree (throw f : Action α) :=
  fun _ => rfl

lemma keepsTree_bind {act : Action α} {k : α → Action β}
    (hact : KeepsTree act) (hk : ∀ v, KeepsTree (k v)) :
    KeepsTree (act >>= k) := by
  intro c
  have hfirst := hact c
  rw [result_bind]
  split
  · rename_i v mid hv
    rw [hv] at hfirst
    exact (hk v mid).trans hfirst
  · rename_i f mid hf
    rw [hf] at hfirst
    exact hfirst

lemma keepsTree_mapM {f : α → Action β} (hf : ∀ x, KeepsTree (f x))
    (xs : List α) : KeepsTree (xs.mapM f) := by
  induction xs with
  | nil => exact keepsTree_pure []
  | cons x xs ih =>
      rw [List.mapM_cons]
      exact keepsTree_bind (hf x) fun _ =>
        keepsTree_bind ih fun _ => keepsTree_pure _

/-- A step that succeeds leaves the files of a step that keeps them. -/
lemma KeepsTree.tree_eq {act : Action α} (h : KeepsTree act)
    {r : Except CommandFault α} {c c' : Console}
    (hr : act.result c = (r, c')) : c'.tree = c.tree := by
  have := h c
  rwa [hr] at this

end KeepsTree

end Action

variable {s : Station} {a : Arguments} {t : FileTree} {c c' : Console}
  {p : Path}

/-! ### Reading -/

lemma keepsTree_forM_say (stream : Stream) (lines : List String) :
    KeepsTree (lines.forM (say stream)) := by
  intro c
  rw [result_forM_say, Console.tree_print]

lemma keepsTree_reportDiagnostics (hs : List Header) :
    KeepsTree (reportDiagnostics hs) := by
  intro c
  rw [result_reportDiagnostics]

lemma keepsTree_currentFiles : KeepsTree currentFiles :=
  fun _ => rfl

lemma keepsTree_place (text : String) : KeepsTree (s.place text) := by
  unfold Station.place
  split
  · exact keepsTree_pure _
  · exact keepsTree_throw _

lemma keepsTree_lookUp (p : Path) : KeepsTree (lookUp p) := by
  intro c
  rw [result_lookUp]
  split <;> rfl

lemma keepsTree_loadOctets (p : Path)
    (fault : Path → ReadFault → CommandFault) :
    KeepsTree (loadOctets p fault) := by
  refine keepsTree_bind keepsTree_currentFiles fun t => ?_
  split
  · exact keepsTree_pure _
  · exact keepsTree_throw _

lemma keepsTree_loadText (p : Path)
    (fault : Path → ReadFault → CommandFault) :
    KeepsTree (loadText p fault) := by
  refine keepsTree_bind (keepsTree_loadOctets p fault) fun octets => ?_
  split
  · exact keepsTree_pure _
  · exact keepsTree_throw _

lemma keepsTree_readSettings (config? : Option String)
    (overrides : Overrides) :
    KeepsTree (readSettings s config? overrides) := by
  unfold readSettings
  split
  · refine keepsTree_bind (keepsTree_place _) fun p =>
      keepsTree_bind ?_ fun _ => keepsTree_pure _
    refine keepsTree_bind (keepsTree_loadText p _) fun text => ?_
    split
    · exact keepsTree_throw _
    · refine keepsTree_bind ?_ fun _ => keepsTree_pure _
      unfold readSettingsFile.liftExcept
      split
      · exact keepsTree_pure _
      · exact keepsTree_throw _
  · exact keepsTree_pure _

lemma keepsTree_namedHeader (text : String) :
    KeepsTree (namedHeader s text) := by
  refine keepsTree_bind (keepsTree_place text) fun p =>
    keepsTree_bind (keepsTree_lookUp p) fun e? => ?_
  split
  · exact keepsTree_pure _
  · exact keepsTree_throw _

lemma keepsTree_discard {α : Type} {act : Action α} (h : KeepsTree act) :
    KeepsTree (discard act) := by
  have hdiscard : discard act = act >>= fun _ => pure ⟨⟩ := by
    rw [← map_eq_pure_bind]
    rfl
  rw [hdiscard]
  exact keepsTree_bind h fun _ => keepsTree_pure _

lemma keepsTree_frameworkPlaces : KeepsTree (frameworkPlaces s a) := by
  unfold frameworkPlaces
  split
  · refine keepsTree_bind (keepsTree_place _) fun bundle =>
      keepsTree_bind ?_ fun places => ?_
    · refine keepsTree_bind (keepsTree_discard (keepsTree_lookUp bundle))
        fun _ => keepsTree_bind keepsTree_currentFiles fun t => ?_
      split
      · exact keepsTree_pure _
      · exact keepsTree_throw _
    · dsimp only
      split
      · exact keepsTree_throw _
      · exact keepsTree_pure _
  · dsimp only
    split
    · exact keepsTree_throw _
    · exact keepsTree_pure _

lemma keepsTree_headerPlaces : KeepsTree (headerPlaces s a) := by
  refine keepsTree_bind (keepsTree_mapM keepsTree_namedHeader _)
    fun named => keepsTree_bind keepsTree_frameworkPlaces fun found => ?_
  dsimp only
  split
  · exact keepsTree_throw _
  · exact keepsTree_pure _

/-- Reading the input changes no file. -/
lemma keepsTree_readInput : KeepsTree (readInput s a) := by
  refine keepsTree_bind (keepsTree_readSettings _ _) fun settings =>
    keepsTree_bind keepsTree_headerPlaces fun places =>
      keepsTree_bind (keepsTree_mapM (fun p => ?_) places)
        fun _ => keepsTree_pure _
  exact keepsTree_bind (keepsTree_loadOctets p _) fun _ => keepsTree_pure _

/-! ### Writing -/

/-- Nothing is written where files are only checked or compared. -/
def Arguments.OnlyCompares (a : Arguments) : Prop :=
  a.check = true ∨ a.dryRun = true

lemma staleStatus_eq_updated_iff :
    a.staleStatus = .updated ↔ ¬ a.OnlyCompares := by
  rw [Arguments.staleStatus, Arguments.OnlyCompares]
  cases a.check <;> cases a.dryRun <;> decide

lemma Arguments.OnlyCompares.status_ne (h : a.OnlyCompares)
    (old new : String) : artifactStatus a old new ≠ .updated := by
  unfold artifactStatus
  split
  · decide
  · exact fun hstale => staleStatus_eq_updated_iff.mp hstale h

lemma keepsTree_existingText (p : Path) : KeepsTree (existingText p) := by
  refine keepsTree_bind (keepsTree_lookUp p) fun e? => ?_
  split
  · exact keepsTree_bind (keepsTree_loadText p _) fun _ => keepsTree_pure _
  · exact keepsTree_pure _

lemma keepsTree_writeArtifact (h : a.OnlyCompares) (label : String)
    (p : Path) (new : String) : KeepsTree (writeArtifact label a p new) := by
  refine keepsTree_bind (keepsTree_existingText p) fun old => ?_
  dsimp only
  rw [if_neg (h.status_ne old new)]
  exact keepsTree_bind (keepsTree_forM_say _ _) fun _ => keepsTree_pure _

lemma keepsTree_print (stream : Stream) (text : String) :
    KeepsTree (print stream text) := by
  intro c
  rw [result_print, Console.tree_print]

lemma keepsTree_refuseArtifact (h : a.OnlyCompares) (label : String)
    (p : Path) : KeepsTree (refuseArtifact label a p) := by
  refine keepsTree_bind (keepsTree_discard (keepsTree_existingText p))
    fun _ => ?_
  dsimp only
  rw [if_neg fun hstale => staleStatus_eq_updated_iff.mp hstale h]
  exact keepsTree_bind (keepsTree_print _ _) fun _ => keepsTree_throw _

lemma keepsTree_writeArtifact? (h : a.OnlyCompares) (label : String)
    (p : Path) (text? : Option String) :
    KeepsTree (writeArtifact? label a p text?) := by
  cases text? with
  | some text => exact keepsTree_writeArtifact h label p text
  | none => exact keepsTree_refuseArtifact h label p

lemma keepsTree_writeOrSay (h : a.OnlyCompares) (label : String)
    (text? : Option String) : KeepsTree (writeOrSay s label a text?) := by
  unfold writeOrSay
  split
  · exact keepsTree_bind (keepsTree_place _) fun p =>
      keepsTree_writeArtifact? h label p text?
  · dsimp only
    split
    · exact keepsTree_throw _
    · split
      · exact keepsTree_bind (keepsTree_print _ _) fun _ => keepsTree_pure _
      · exact keepsTree_throw _

lemma keepsTree_bindHeaders (hs : List Header) :
    KeepsTree (bindHeaders hs) := by
  unfold bindHeaders
  split
  · exact keepsTree_pure _
  · exact keepsTree_throw _

lemma keepsTree_writeEach (h : a.OnlyCompares) (folder : Path)
    (format : OutputFormat) (space : LooseText)
    (bound : List (Header × List Declaration)) :
    KeepsTree (writeEach a folder format space bound) :=
  keepsTree_bind (keepsTree_mapM
    (fun _ => keepsTree_writeArtifact? h _ _ _) bound)
    fun _ => keepsTree_pure _

/-- A command that reads headers changes no file if it only compares. -/
theorem keepsTree_action (h : a.OnlyCompares) {command : CommandName}
    (hcommand : command.takesFiles = true) :
    KeepsTree (command.action s a) := by
  cases command with
  | parse =>
      exact keepsTree_bind keepsTree_readInput fun input =>
        keepsTree_bind (keepsTree_reportDiagnostics _) fun _ =>
          keepsTree_bind (keepsTree_writeOrSay h _ _) fun _ =>
            keepsTree_pure _
  | generate =>
      refine keepsTree_bind keepsTree_readInput fun input =>
        keepsTree_bind (keepsTree_reportDiagnostics _) fun _ => ?_
      dsimp only
      split
      · split
        · exact keepsTree_throw _
        · exact keepsTree_bind (keepsTree_place _) fun folder =>
            keepsTree_bind (keepsTree_bindHeaders _) fun _ =>
              keepsTree_bind (keepsTree_writeEach h _ _ _ _) fun _ =>
                keepsTree_pure _
      · exact keepsTree_bind (keepsTree_bindHeaders _) fun _ =>
          keepsTree_bind (keepsTree_writeOrSay h _ _) fun _ =>
            keepsTree_pure _
  | listSlices => cases hcommand
  | listHeaders => cases hcommand

/-! ### Files out of date -/

/-- The file has another text than the one that is due.  A file that is
missing has an empty one. -/
def Artifact.IsStale (x : Artifact) (t : FileTree) : Prop :=
  (t.textAt? x.place).getD "" ≠ x.text

/-- A file is told to be out of date just if it is checked and is. -/
lemma drift_iff {label : String} {x : Artifact} {drift : Bool}
    (h : (writeArtifact label a x.place x.text).result c
      = (.ok drift, c')) :
    drift = true ↔ a.check = true ∧ x.IsStale c.tree := by
  obtain ⟨old, mid, hold, -, -, rfl⟩ := result_writeArtifact_eq_ok_iff.mp h
  have htext : (c.tree.textAt? x.place).getD "" = old := by
    obtain ⟨-, -, hread | ⟨hnone, rfl⟩⟩ :=
      result_existingText_eq_ok_iff.mp hold
    · rw [hread, Option.getD_some]
    · rw [textAt?, hnone]
      rfl
  rw [decide_eq_true_eq, Artifact.IsStale, htext, artifactStatus,
    Arguments.staleStatus]
  by_cases hsame : old = x.text
  · simp [hsame]
  · cases a.check <;> cases a.dryRun <;> simp [hsame]

/-- Of some files one is told to be out of date just if they are checked
and one is. -/
lemma any_drifts_iff {label : String} {xs : List Artifact}
    {drifts : List Bool}
    (h : (writeAll label a xs).result c = (.ok drifts, c')) :
    drifts.any id = true
      ↔ a.check = true ∧ ∃ x ∈ xs, x.IsStale c.tree := by
  induction xs generalizing c c' drifts with
  | nil =>
      rw [← Except.ok.inj (Prod.mk.inj h).1]
      simp
  | cons x xs ih =>
      rw [writeAll_cons] at h
      obtain ⟨drift, mid, hone, h⟩ := exists_of_result_bind h
      obtain ⟨rest, last, hrest, h⟩ := exists_of_result_bind h
      rw [← Except.ok.inj (Prod.mk.inj h).1, List.any_cons,
        Bool.or_eq_true, id_eq, drift_iff hone, ih hrest]
      by_cases hcheck : a.check = true
      · -- what is only checked is the same for the files behind it
        rw [(keepsTree_writeArtifact (.inl hcheck) _ _ _).tree_eq hone]
        simp [hcheck]
      · simp [hcheck]

/-- A file that is written has its text then, if it is not empty and has
no carriage return. -/
lemma textAt?_of_writeArtifact {label : String} {x : Artifact} {drift : Bool}
    (hcompares : ¬ a.OnlyCompares) (hne : x.text ≠ "")
    (hclean : '\r' ∉ x.text.toList)
    (h : (writeArtifact label a x.place x.text).result c
      = (.ok drift, c')) :
    c'.tree.textAt? x.place = some x.text := by
  obtain ⟨old, mid, hold, hstore, rfl, -⟩ :=
    result_writeArtifact_eq_ok_iff.mp h
  have hplace := ne_nil_of_result_existingText hold
  obtain ⟨-, -, hold⟩ := result_existingText_eq_ok_iff.mp hold
  by_cases hsame : old = x.text
  · rw [artifactStatus, if_pos hsame, if_neg (by decide)] at hstore
    rw [hstore]
    exact hsame ▸ hold.resolve_right fun hnone => hne (hsame ▸ hnone.2)
  · rw [artifactStatus, if_neg hsame,
      if_pos (staleStatus_eq_updated_iff.mpr hcompares)] at hstore
    obtain ⟨hwrite, -⟩ := write_of_storeText hstore
    have hread := textAt?_of_write hplace hwrite
    rwa [unified_eq_self_iff.mpr hclean] at hread

/-! ### Runs -/

/-- The place of the file that all is to be written into, if one is
named. -/
def Station.outputFile? (s : Station) (a : Arguments) : Option Path :=
  (nonempty? a.output?).bind s.place?

/-- The namespace as the form of the output writes it and what binds some
headers, if there are both. -/
def Settings.bindings? (settings : Settings) (hs : List Header) :
    Option (String × List (List Declaration)) := do
  return (← settings.outputFormat.space? settings.space,
    ← assembleHeaders? hs)

lemma bindings?_eq_some_iff {settings : Settings} {hs : List Header}
    {space : String} {dss : List (List Declaration)} :
    settings.bindings? hs = some (space, dss)
      ↔ settings.outputFormat.space? settings.space = some space
        ∧ assembleHeaders? hs = some dss := by
  simp [Settings.bindings?, Option.bind_eq_some_iff]

/-- What a command makes of some headers: `parse` their declarations, and
`generate` their bindings, if there are any. -/
def CommandName.text? (a : Arguments) (settings : Settings)
    (hs : List Header) : CommandName → Option String
  | parse => some (declarationText a.compact hs)
  | _ => (settings.bindings? hs).map fun (space, dss) =>
    renderBatch settings.outputFormat space hs dss

lemma text?_generate {settings : Settings} {hs : List Header}
    {space : String} {dss : List (List Declaration)}
    (h : settings.bindings? hs = some (space, dss)) :
    CommandName.generate.text? a settings hs
      = some (renderBatch settings.outputFormat space hs dss) := by
  simp only [CommandName.text?, h, Option.map_some]

/-- The file of the text of all headers, if one is due. -/
def outputFiles (s : Station) (a : Arguments) (text : String) :
    List Artifact :=
  ((s.outputFile? a).map fun p => ⟨p, text⟩).toList

/-- The files that are due: one for each header where `generate` is given a
folder, else one for all of them if it is named. -/
def dueFiles? (s : Station) (a : Arguments) (settings : Settings)
    (hs : List Header) (command : CommandName) : Option (List Artifact) :=
  match command, s.outputFolder? a with
  | .generate, some folder =>
    (settings.bindings? hs).map fun (space, dss) =>
      folderFiles folder settings.outputFormat space hs dss
  | command, _ => (command.text? a settings hs).map (outputFiles s a)

lemma dueFiles?_folder {folder : Path} (h : s.outputFolder? a = some folder)
    {settings : Settings} {hs : List Header} {space : String}
    {dss : List (List Declaration)}
    (hbound : settings.bindings? hs = some (space, dss)) :
    dueFiles? s a settings hs .generate
      = some (folderFiles folder settings.outputFormat space hs dss) := by
  simp only [dueFiles?, h, hbound, Option.map_some]

lemma dueFiles?_file (h : s.outputFolder? a = none) (settings : Settings)
    (hs : List Header) (command : CommandName) :
    dueFiles? s a settings hs command
      = (command.text? a settings hs).map (outputFiles s a) := by
  cases command <;> simp only [dueFiles?, h]

/-- The text goes into the file that is named, if one is. -/
lemma exists_of_result_writeOrSay {label : String} {text? : Option String}
    {drift : Bool}
    (h : (writeOrSay s label a text?).result c = (.ok drift, c')) :
    ∃ text, text? = some text
      ∧ (∃ drifts last, (writeAll label a (outputFiles s a text)).result c
          = (.ok drifts, last)
        ∧ last.tree = c'.tree ∧ drift = drifts.any id)
      ∧ ∀ output, nonempty? a.output? = some output →
        ∃ p, s.place? output = some p
          ∧ outputFiles s a text = [⟨p, text⟩] := by
  unfold writeOrSay at h
  split at h
  · rename_i output houtput
    obtain ⟨p, mid, hplace, hwrite⟩ := exists_of_result_bind h
    obtain ⟨hp, rfl⟩ := result_place_eq_ok_iff.mp hplace
    cases text? with
    | none => exact absurd hwrite result_refuseArtifact_ne_ok
    | some text =>
        have hfiles : outputFiles s a text = [⟨p, text⟩] := by
          rw [outputFiles, Station.outputFile?, houtput, Option.bind_some,
            hp]
          rfl
        refine ⟨text, rfl, ⟨[drift], c', ?_, rfl, by simp⟩,
          fun other hother => ?_⟩
        · rw [writeArtifact?] at hwrite
          rw [hfiles, writeAll_cons, result_bind_of_ok hwrite]
          rfl
        · rw [houtput] at hother
          rw [← Option.some.inj hother]
          exact ⟨p, hp, hfiles⟩
  · rename_i hnone
    dsimp only at h
    split at h
    · cases h
    split at h
    · rename_i text
      have hfiles : outputFiles s a text = [] := by
        rw [outputFiles, Station.outputFile?, hnone]
        rfl
      obtain ⟨_, mid, hprint, hpure⟩ := exists_of_result_bind h
      obtain ⟨hdrift, rfl⟩ := Prod.mk.inj hpure
      rw [result_print] at hprint
      refine ⟨text, rfl, ⟨[], c, by rw [hfiles]; rfl, ?_,
        (Except.ok.inj hdrift).symm⟩, fun _ h => ?_⟩
      · rw [← (Prod.mk.inj hprint).2, Console.tree_print]
      · rw [hnone] at h
        cases h
    · cases h

/-- What a run does that ends well: it reads its input, and brings the
files that are due up to date, or compares them.  All goes into one file
if one is named. -/
structure RunsThrough (s : Station) (a : Arguments) (command : CommandName)
    (c c' : Console) (exit : Nat) (settings : Settings) (hs : List Header)
    (text : String) (due : List Artifact) : Prop where
  input : ((readInput s a).result c).1 = .ok (settings, hs)
  some_header : hs ≠ []
  text_eq : command.text? a settings hs = some text
  due_eq : dueFiles? s a settings hs command = some due
  writes : ∃ start drifts last, start.tree = c.tree
    ∧ (writeAll command.label a due).result start = (.ok drifts, last)
    ∧ last.tree = c'.tree
    ∧ exit = exitCode a (drifts.any id) !(warnings hs).isEmpty
  one_file : ∀ output, nonempty? a.output? = some output →
    ∃ p, s.place? output = some p ∧ due = [⟨p, text⟩]

/-- Before the first file is written, the input was read and the remarks
about it were told. -/
lemma exists_remarked {settings : Settings} {hs : List Header} {mid : Console}
    (h : (readInput s a).result c = (.ok (settings, hs), mid)) :
    ∃ start : Console, start.tree = c.tree
      ∧ ∀ {β : Type} (k : Bool → Action β),
        (reportDiagnostics hs >>= k).result mid
          = (k !(warnings hs).isEmpty).result start := by
  have hkept : mid.tree = c.tree := keepsTree_readInput.tree_eq h
  exact ⟨{ mid with err := mid.err ++ lineText (warnings hs) }, hkept,
    fun _ => result_bind_of_ok (result_reportDiagnostics hs mid)⟩

lemma exists_runsThrough_parse {exit : Nat}
    (h : (runParse s a).result c = (.ok exit, c')) :
    ∃ settings hs text due,
      RunsThrough s a .parse c c' exit settings hs text due := by
  obtain ⟨⟨settings, hs⟩, mid, hinput, h⟩ := exists_of_result_bind h
  dsimp only at h
  obtain ⟨start, htree, hremarks⟩ := exists_remarked hinput
  rw [hremarks] at h
  obtain ⟨drift, last, hwrite, h⟩ := exists_of_result_bind h
  obtain ⟨hexit, rfl⟩ := Prod.mk.inj h
  obtain ⟨text, htext, ⟨drifts, after, hall, hend, rfl⟩, hone⟩ :=
    exists_of_result_writeOrSay hwrite
  have hdue : dueFiles? s a settings hs .parse
      = some (outputFiles s a text) := by
    rw [← Option.map_some, ← htext]
    rfl
  exact ⟨settings, hs, text, _, by rw [hinput], headers_ne_nil hinput, htext,
    hdue, ⟨start, drifts, after, htree, hall, hend,
      (Except.ok.inj hexit).symm⟩, hone⟩

lemma exists_runsThrough_generate {exit : Nat}
    (h : (runGenerate s a).result c = (.ok exit, c')) :
    ∃ settings hs text due,
      RunsThrough s a .generate c c' exit settings hs text due := by
  obtain ⟨⟨settings, hs⟩, mid, hinput, h⟩ := exists_of_result_bind h
  dsimp only at h
  obtain ⟨start, htree, hremarks⟩ := exists_remarked hinput
  rw [hremarks] at h
  split at h
  · -- the files go into a folder
    rename_i folder hfolder
    split at h
    · cases h
    rename_i houtput
    obtain ⟨p, placed, hplace, hrest⟩ := exists_of_result_bind h
    obtain ⟨hp, rfl⟩ := result_place_eq_ok_iff.mp hplace
    obtain ⟨dss, bound, hbind, hrest'⟩ := exists_of_result_bind hrest
    obtain ⟨hdss, rfl⟩ := result_bindHeaders_eq_ok_iff.mp hbind
    obtain ⟨drift, written, hwrite, hpure⟩ := exists_of_result_bind hrest'
    obtain ⟨hexit, rfl⟩ := Prod.mk.inj hpure
    obtain ⟨space, drifts, hspace, hall, rfl⟩ :=
      exists_of_result_writeEach hdss (headers_ne_nil hinput) hwrite
    have hbound := bindings?_eq_some_iff.mpr ⟨hspace, hdss⟩
    have hdue : s.outputFolder? a = some p := by
      rw [Station.outputFolder?, hfolder, Option.bind_some, hp]
    refine ⟨settings, hs, _, _, by rw [hinput], headers_ne_nil hinput,
      text?_generate hbound, dueFiles?_folder hdue hbound,
      ⟨_, drifts, _, htree, hall, rfl, (Except.ok.inj hexit).symm⟩,
      fun output hsome => ?_⟩
    rw [hsome] at houtput
    exact absurd rfl houtput
  · -- all goes into one file, or is shown
    rename_i hfolder
    obtain ⟨dss, bound, hbind, hrest⟩ := exists_of_result_bind h
    obtain ⟨hdss, rfl⟩ := result_bindHeaders_eq_ok_iff.mp hbind
    obtain ⟨drift, last, hwrite, hpure⟩ := exists_of_result_bind hrest
    obtain ⟨hexit, rfl⟩ := Prod.mk.inj hpure
    obtain ⟨text, htext, ⟨drifts, after, hall, hend, rfl⟩, hone⟩ :=
      exists_of_result_writeOrSay hwrite
    obtain ⟨space, hspace, rfl⟩ := Option.map_eq_some_iff.mp htext
    have hmade := text?_generate (a := a)
      (bindings?_eq_some_iff.mpr ⟨hspace, hdss⟩)
    have hdue : s.outputFolder? a = none := by
      rw [Station.outputFolder?, hfolder, Option.bind_none]
    exact ⟨settings, hs, _, _, by rw [hinput], headers_ne_nil hinput, hmade,
      by rw [dueFiles?_file hdue, hmade, Option.map_some],
      ⟨_, drifts, after, htree, hall, hend, (Except.ok.inj hexit).symm⟩,
      hone⟩

lemma exists_runsThrough {command : CommandName} {exit : Nat}
    (hcommand : command.takesFiles = true)
    (h : (command.action s a).result c = (.ok exit, c')) :
    ∃ settings hs text due,
      RunsThrough s a command c c' exit settings hs text due := by
  cases command with
  | parse => exact exists_runsThrough_parse h
  | generate => exact exists_runsThrough_generate h
  | listSlices | listHeaders => cases hcommand

lemma intercalate_ne_empty {text : String} (h : text ≠ "") (sep : String)
    (texts : List String) : sep.intercalate (text :: texts) ≠ "" := by
  cases texts with
  | nil => rwa [String.intercalate_singleton]
  | cons other texts =>
      rw [String.intercalate_cons_cons]
      simp [h]

lemma batchText_ne_empty (space : String) {hs : List Header} (hne : hs ≠ [])
    {dss : List (List Declaration)} (hlength : dss.length = hs.length) :
    batchText space hs dss ≠ "" := by
  obtain ⟨h, hs, rfl⟩ := List.exists_cons_of_ne_nil hne
  obtain ⟨ds, rest, rfl⟩ := List.exists_cons_of_length_eq_add_one hlength
  rw [batchText, List.zipWith_cons_cons]
  split
  · exact intercalate_ne_empty (renderOne_ne_empty .csharp space h ds) _ _
  · rw [List.zipWith_cons_cons]
    exact intercalate_ne_empty (by simp) _ _

/-- What a command makes of some headers is never empty. -/
lemma text_ne_empty {settings : Settings} {hs : List Header} (hne : hs ≠ [])
    {command : CommandName} {text : String}
    (h : command.text? a settings hs = some text) : text ≠ "" := by
  have hpretty : ∀ v : Json, v.pretty ≠ "" := fun v => by
    rw [Json.pretty]
    simp
  have hbatch : (settings.bindings? hs).map (fun (space, dss) =>
      renderBatch settings.outputFormat space hs dss) = some text →
        text ≠ "" := by
    intro h
    obtain ⟨⟨space, dss⟩, hbound, rfl⟩ := Option.map_eq_some_iff.mp h
    obtain ⟨-, hdss⟩ := bindings?_eq_some_iff.mp hbound
    cases settings.outputFormat with
    | csharp =>
        exact batchText_ne_empty space hne (length_of_assembleHeaders? hdss)
    | json => exact hpretty _
  cases command with
  | parse =>
      rw [CommandName.text?, Option.some.injEq] at h
      rw [← h, declarationText]
      split
      · simp
      · exact hpretty _
  | generate => exact hbatch h
  | listSlices => exact hbatch h
  | listHeaders => exact hbatch h

/-- Some header has a remark. -/
lemma warnings_ne_nil_iff {hs : List Header} :
    warnings hs ≠ [] ↔ ∃ h ∈ hs, h.diagnostics ≠ [] := by
  rw [warnings, ne_eq, List.flatMap_eq_nil_iff]
  simp

section RunsThrough

variable {command : CommandName} {exit : Nat} {settings : Settings}
  {hs : List Header} {text : String} {due : List Artifact}

/-- The code is 1 just if a file is out of date that was to be checked, or
a header has a remark and that was to fail. -/
lemma RunsThrough.exit_iff
    (h : RunsThrough s a command c c' exit settings hs text due) :
    (exit = 1
      ↔ (a.check = true ∧ ∃ x ∈ due, x.IsStale c.tree)
        ∨ (a.failOnWarnings = true ∧ ∃ h ∈ hs, h.diagnostics ≠ []))
      ∧ (exit = 1 ∨ exit = 0) := by
  obtain ⟨start, drifts, last, hstart, hwrite, -, rfl⟩ := h.writes
  rw [← hstart, ← any_drifts_iff hwrite, ← warnings_ne_nil_iff, exitCode]
  constructor
  · cases drifts.any id <;> cases a.failOnWarnings <;>
      simp
  · split
    · exact .inl rfl
    · exact .inr rfl

/-- An output that is named and written has its text. -/
lemma RunsThrough.readsBack
    (h : RunsThrough s a command c c' exit settings hs text due)
    {output : String} (houtput : a.output? = some output) (hne : output ≠ "")
    (hcompares : ¬ a.OnlyCompares) (hclean : '\r' ∉ text.toList) :
    ∃ p, s.place? output = some p ∧ c'.tree.textAt? p = some text := by
  have hsome : nonempty? a.output? = some output := by
    rw [houtput, nonempty?, Option.filter_some, if_pos (decide_eq_true hne)]
  obtain ⟨p, hp, hdue⟩ := h.one_file output hsome
  obtain ⟨start, drifts, last, -, hwrite, hlast, -⟩ := h.writes
  rw [hdue, writeAll_cons] at hwrite
  obtain ⟨drift, mid, hone, hrest⟩ := exists_of_result_bind hwrite
  obtain ⟨_, _, hnil, hrest⟩ := exists_of_result_bind hrest
  refine ⟨p, hp, ?_⟩
  rw [← hlast, ← (Prod.mk.inj hrest).2, ← (Prod.mk.inj hnil).2]
  exact textAt?_of_writeArtifact hcompares
    (text_ne_empty h.some_header h.text_eq) hclean hone

end RunsThrough

/-- A command with an exit code has ended with it, or has told a fault, and
then the code is 2. -/
lemma cases_of_ofAction {act : Action Nat} {exit : Nat}
    (h : Outcome.ofAction act t = .finished exit c) :
    act.result { tree := t } = (.ok exit, c)
      ∨ ∃ f message last, act.result { tree := t } = (.error f, last)
        ∧ f.message? = some message ∧ exit = 2 ∧ c.tree = last.tree := by
  rw [Outcome.ofAction] at h
  rw [result]
  split at h
  · rename_i code last hrun
    obtain ⟨rfl, rfl⟩ := Outcome.finished.inj h
    exact .inl hrun
  · rename_i f last hrun
    split at h
    · rename_i message hmessage
      obtain ⟨rfl, rfl⟩ := Outcome.finished.inj h
      exact .inr ⟨f, message, last, hrun, hmessage, rfl, rfl⟩
    · cases h

/-- **Exit codes and files.**  Of a command that reads headers and ends
with an exit code: no file changes if it only compares; the code is 2 just
if a fault was told; else it is 1 just if a file is out of date that was to
be checked, or a header has a remark and that was to fail, and 0 if not;
and an output that is named and written has its text then. -/
theorem exitCode_contract {texts : List String} {command : CommandName}
    {exit : Nat} (hread : readCommandLine texts = .run command a)
    (hcommand : command.takesFiles = true)
    (hrun : runCommandLine s t texts = .finished exit c) :
    (a.check = true ∨ a.dryRun = true → c.tree = t)
      ∧ (exit = 2 ↔ ∃ f message,
        ((command.action s a).result { tree := t }).1 = .error f
          ∧ f.message? = some message)
      ∧ (exit ≠ 2 → ∃ settings hs text due,
        ((readInput s a).result { tree := t }).1 = .ok (settings, hs)
          ∧ command.text? a settings hs = some text
          ∧ dueFiles? s a settings hs command = some due
          ∧ (exit = 1
            ↔ (a.check = true ∧ ∃ x ∈ due, x.IsStale t)
              ∨ (a.failOnWarnings = true ∧ ∃ h ∈ hs, h.diagnostics ≠ []))
          ∧ (exit = 1 ∨ exit = 0)
          ∧ ∀ output, a.output? = some output → output ≠ "" →
            a.check = false → a.dryRun = false →
            '\r' ∉ text.toList → ∃ p, s.place? output = some p
              ∧ c.tree.textAt? p = some text) := by
  have haction : Outcome.ofAction (command.action s a) t
      = .finished exit c := by
    rw [runCommandLine, hread] at hrun
    exact hrun
  rcases cases_of_ofAction haction with hdone | hfault
  · obtain ⟨settings, hs, text, due, hruns⟩ :=
      exists_runsThrough hcommand hdone
    obtain ⟨hexit, hcodes⟩ := hruns.exit_iff
    refine ⟨fun h => (keepsTree_action h hcommand).tree_eq hdone, ?_,
      fun _ => ⟨settings, hs, text, due, hruns.input, hruns.text_eq,
        hruns.due_eq, hexit, hcodes, ?_⟩⟩
    · rw [hdone]
      refine iff_of_false (by omega) ?_
      rintro ⟨f, message, h, -⟩
      cases h
    · intro output houtput hne hcheck hdry hclean
      refine hruns.readsBack houtput hne ?_ hclean
      rw [Arguments.OnlyCompares, hcheck, hdry]
      simp
  · obtain ⟨f, message, last, hfault, hmessage, rfl, htree⟩ := hfault
    refine ⟨fun h => ?_, ?_, fun h => absurd rfl h⟩
    · rw [htree, (keepsTree_action h hcommand).tree_eq hfault]
    · exact iff_of_true rfl ⟨f, message, by rw [hfault], hmessage⟩

/-- Declarations are written in printed characters, without carriage
returns. -/
lemma not_mem_declarationText (compact : Bool) (hs : List Header) :
    '\r' ∉ (declarationText compact hs).toList := by
  have hprinted : Printed (declarationText compact hs) := by
    rw [declarationText]
    split
    · exact (Json.printed_compact _ (isWhole_ofListOrOne hs)).append
        (by decide)
    · exact Json.printed_pretty (isWhole_ofListOrOne hs)
  exact fun hc => absurd (hprinted _ hc) (by decide)

/-- One header. -/
def headerTree (text : String) : FileTree :=
  ⟨[(["Red.h"], .file (encodeUtf8 text.toList))]⟩

/-- The declarations of the header are written, and a remark is to fail. -/
def failingArguments (output : String) : Arguments where
  files := ["Red.h"]
  output? := some output
  failOnWarnings := true

/-- What is left of a header with a remark. -/
def failingLeft : Console :=
  ((runParse rootStation (failingArguments "Red.json")).result
    { tree := headerTree "@class Red;\n@interface ;\n" }).2

/-- The run fails because of the remark, and has written its text. -/
theorem exitCode_contract_remark :
    runCommandLine rootStation (headerTree "@class Red;\n@interface ;\n")
        ["parse", "Red.h", "--output", "Red.json", "--fail-on-warnings"]
      = .finished 1 failingLeft
    ∧ ∃ hs, (∃ h ∈ hs, h.diagnostics ≠ [])
      ∧ failingLeft.tree.textAt? ["Red.json"]
        = some (declarationText false hs) := by
  have hread : readCommandLine
      ["parse", "Red.h", "--output", "Red.json", "--fail-on-warnings"]
        = .run .parse (failingArguments "Red.json") := by
    decide +kernel
  have hrun : runCommandLine rootStation
      (headerTree "@class Red;\n@interface ;\n")
        ["parse", "Red.h", "--output", "Red.json", "--fail-on-warnings"]
      = .finished 1 failingLeft := by
    rw [runCommandLine, hread]
    exact (ofAction_eq_finished_iff (by decide)).mpr
      (result_eq_ok_of_toOption (by decide +kernel) rfl)
  have hfound : (readInput rootStation (failingArguments "Red.json")).result
        { tree := headerTree "@class Red;\n@interface ;\n" }
      = (.ok ({}, [readHeader {} "Red.h" "@class Red;\n@interface ;\n"]),
        { tree := headerTree "@class Red;\n@interface ;\n" }) :=
    result_eq_ok_of_toOption (by decide +kernel) (by decide +kernel)
  obtain ⟨-, -, hends⟩ := exitCode_contract hread rfl hrun
  obtain ⟨settings, hs, text, due, hinput, hmade, -, hexit, -, hwritten⟩ :=
    hends (by decide)
  rw [hfound] at hinput
  obtain ⟨rfl, rfl⟩ := Prod.mk.inj (Except.ok.inj hinput)
  obtain rfl := Option.some.inj hmade
  obtain ⟨p, hp, htext⟩ := hwritten "Red.json" rfl (by decide) rfl rfl
    (not_mem_declarationText false _)
  have hplace : rootStation.place? "Red.json" = some ["Red.json"] := by
    decide +kernel
  rw [hplace] at hp
  obtain rfl := Option.some.inj hp
  refine ⟨hrun, _, ?_, htext⟩
  exact ((hexit.mp rfl).resolve_left fun h => by cases h.1).2

/-- An output whose name is empty is none: the run ends well, but the text
is shown, and cannot be read back at the place that the empty name
means. -/
theorem not_readsBack_empty :
    ∃ hs, runCommandLine rootStation (headerTree "@class Red;\n")
        ["parse", "Red.h", "--output", ""]
      = .finished 0 { tree := headerTree "@class Red;\n"
                      out := declarationText false hs }
    ∧ (readInput rootStation { files := ["Red.h"], output? := some "" }).result
        { tree := headerTree "@class Red;\n" }
      = (.ok ({}, hs), { tree := headerTree "@class Red;\n" })
    ∧ '\r' ∉ (declarationText false hs).toList
    ∧ ¬ ∃ p, rootStation.place? "" = some p
      ∧ (headerTree "@class Red;\n").textAt? p
        = some (declarationText false hs) := by
  refine ⟨[readHeader {} "Red.h" "@class Red;\n"], ?_,
    result_eq_ok_of_toOption (by decide +kernel) (by decide +kernel),
    not_mem_declarationText false _, ?_⟩
  · have hread : readCommandLine ["parse", "Red.h", "--output", ""]
        = .run .parse { files := ["Red.h"], output? := some "" } := by
      decide +kernel
    rw [runCommandLine, hread]
    exact (ofAction_eq_finished_iff (by decide)).mpr
      (result_eq_ok_of_toOption (by decide +kernel) (by decide +kernel))
  · rintro ⟨p, hp, htext⟩
    have hplace : rootStation.place? "" = some [] := by decide +kernel
    rw [hplace] at hp
    rw [← Option.some.inj hp, textAt?_of_isFolder rfl] at htext
    cases htext

end HeaderBinding
