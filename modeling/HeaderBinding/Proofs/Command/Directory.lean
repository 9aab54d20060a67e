/-
Bindings that are written into a folder, a file for every header.

* `DirectoryRun`: what such a run finds; `nonempty_directoryRun`: every run
  that ends well has found it;
* `DirectoryRun.artifacts`: the files that are due, one for each header
  (`DirectoryRun.map_place_artifacts`);
* `DirectoryRun.Apart`: the run does not write over its own input;
* `DirectoryRun.writtenAll`, `DirectoryRun.again`: what the run leaves, and
  that a second one finds the same;
* `DirectoryRun.upToDate_iff`: all files have their texts, and stay as they
  are when they are checked, just if no two headers need different texts in
  one file and no text has a carriage return.
-/
import HeaderBinding.Proofs.Binding.Merging
import HeaderBinding.Proofs.Binding.Settled
import HeaderBinding.Proofs.Command.Artifacts
import HeaderBinding.Proofs.Command.Input
import HeaderBinding.Settings.Schema

namespace HeaderBinding

open HeaderBinding.Action FileTree

variable {s : Station} {a : Arguments} {t t' : FileTree} {c : Console}

/-! ### Commands that end well -/

/-- A command ends with another code than 2 just if its action does. -/
lemma ofAction_eq_finished_iff {act : Action Nat} {exit : Nat}
    (hexit : exit ≠ 2) :
    Outcome.ofAction act t = .finished exit c
      ↔ act.result { tree := t } = (.ok exit, c) := by
  rw [Outcome.ofAction, result]
  rcases act.run { tree := t } with ⟨f | code, last⟩
  · cases hmessage : f.message? <;> simp [hmessage, hexit.symm]
  · simp

/-- The remarks go to the second stream. -/
lemma result_reportDiagnostics (hs : List Header) (c : Console) :
    (reportDiagnostics hs).result c
      = (.ok !(warnings hs).isEmpty,
        { c with err := c.err ++ lineText (warnings hs) }) := by
  rw [reportDiagnostics, result_bind_of_ok (result_forM_say .err _ c),
    result_pure]
  rfl

/-! ### What a run finds -/

/-- The folder that bindings are to be written into, if one is named. -/
def Station.outputFolder? (s : Station) (a : Arguments) : Option Path :=
  (nonempty? a.outputDir?).bind s.place?

/-- What a run finds that writes its bindings into a folder: the settings
and the namespace in them, the places of the headers, what they declare and
how that is bound, and the folder. -/
structure DirectoryRun (s : Station) (a : Arguments) (t : FileTree) where
  settings : Settings
  space : String
  places : List Path
  headers : List Header
  bound : List (List Declaration)
  folder : Path
  headerPlaces_eq : (headerPlaces s a).result { tree := t }
    = (.ok places, { tree := t })
  readInput_eq : (readInput s a).result { tree := t }
    = (.ok (settings, headers), { tree := t })
  space_eq : settings.outputFormat.space? settings.space = some space
  bound_eq : assembleHeaders? headers = some bound
  outputFolder_eq : s.outputFolder? a = some folder

/-- From a tree to itself all input is kept. -/
lemma inputKept_refl (ht : t.IsGrounded) (places : List Path) :
    InputKept s a places t t where
  grounded := ht
  config _ _ := rfl
  bundle _ _ _ := rfl
  headers _ _ := rfl

/-- The input that is read comes from places that can be looked up. -/
lemma exists_of_result_readInput {input : Settings × List Header}
    (ht : t.IsGrounded)
    (h : (readInput s a).result { tree := t } = (.ok input, c)) :
    ∃ places, (headerPlaces s a).result { tree := t }
        = (.ok places, { tree := t })
      ∧ (places.mapM (readHeaderFile input.1.rules)).result { tree := t }
        = (.ok input.2, { tree := t }) ∧ c = { tree := t } := by
  obtain ⟨settings, mid, hsettings, h⟩ := exists_of_result_bind h
  obtain ⟨rfl, -⟩ := steady_readSettings
    (inputKept_refl ht []).config _ _ _ hsettings
  obtain ⟨places, mid, hplaces, h⟩ := exists_of_result_bind h
  obtain ⟨rfl, -⟩ :=
    steady_headerPlaces (inputKept_refl ht places) _ hplaces
  obtain ⟨hs, mid, hheaders, h⟩ := exists_of_result_bind h
  obtain ⟨rfl, -⟩ := steady_mapM
    (fun p _ header _ => steady_readHeaderFile rfl settings.rules header)
    _ hheaders
  obtain ⟨hinput, rfl⟩ := Prod.mk.inj h
  rw [← Except.ok.inj hinput]
  exact ⟨places, hplaces, hheaders, rfl⟩

/-- A command that reads its input has found some header. -/
lemma headers_ne_nil {settings : Settings} {hs : List Header}
    (h : (readInput s a).result c = (.ok (settings, hs), c')) : hs ≠ [] := by
  obtain ⟨_, mid, -, h⟩ := exists_of_result_bind h
  obtain ⟨places, last, hplaces, h⟩ := exists_of_result_bind h
  obtain ⟨headers, _, hheaders, h⟩ := exists_of_result_bind h
  obtain ⟨-, rfl⟩ := Prod.mk.inj (Except.ok.inj (Prod.mk.inj h).1)
  have hsome : places ≠ [] := by
    obtain ⟨named, _, -, hplaces⟩ := exists_of_result_bind hplaces
    obtain ⟨found, _, -, hplaces⟩ := exists_of_result_bind hplaces
    dsimp only at hplaces
    split at hplaces
    · cases hplaces
    · rename_i hempty
      rw [← Except.ok.inj (Prod.mk.inj hplaces).1]
      exact fun hnil => hempty (List.isEmpty_iff.mpr hnil)
  obtain ⟨p, places, rfl⟩ := List.exists_cons_of_ne_nil hsome
  rw [List.mapM_cons] at hheaders
  obtain ⟨header, _, -, hheaders⟩ := exists_of_result_bind hheaders
  obtain ⟨rest, _, -, hheaders⟩ := exists_of_result_bind hheaders
  rw [← Except.ok.inj (Prod.mk.inj hheaders).1]
  exact List.cons_ne_nil _ _

/-- Headers that are bound have no type that leads to itself. -/
lemma result_bindHeaders_eq_ok_iff {hs : List Header}
    {dss : List (List Declaration)} {mid : Console} :
    (bindHeaders hs).result c = (.ok dss, mid)
      ↔ assembleHeaders? hs = some dss ∧ mid = c := by
  rw [bindHeaders]
  cases assembleHeaders? hs with
  | none => simp [result_throw]
  | some dss' => simp [result_pure, eq_comm]

/-- As many headers are bound as there are. -/
lemma length_of_assembleHeaders? {hs : List Header}
    {dss : List (List Declaration)} (h : assembleHeaders? hs = some dss) :
    dss.length = hs.length := by
  obtain ⟨-, rfl⟩ := assembleHeaders?_eq_some_iff.mp h
  rw [assembleHeaders, List.length_map, ← List.length_map (f := (·.file)),
    map_mergeCategories (fun _ _ => rfl), List.length_map]

lemma zip_ne_nil {hs : List Header} {dss : List (List Declaration)}
    (h : assembleHeaders? hs = some dss) (hne : hs ≠ []) :
    hs.zip dss ≠ [] := by
  rwa [← List.length_pos_iff, List.length_zip, length_of_assembleHeaders? h,
    Nat.min_self, List.length_pos_iff]

/-- The files for the headers in a folder, from what binds them. -/
def folderFiles (folder : Path) (format : OutputFormat) (space : String)
    (hs : List Header) (dss : List (List Declaration)) : List Artifact :=
  (hs.zip dss).map fun e =>
    ⟨outputPlace folder format e.1, renderOne format space e.1 e.2⟩

lemma writeEach_eq {format : OutputFormat} {loose : LooseText}
    {space : String} (h : format.space? loose = some space) (a : Arguments)
    (folder : Path) (hs : List Header) (dss : List (List Declaration)) :
    writeEach a folder format loose (hs.zip dss) = do
      let drifts ← writeAll "generate" a
        (folderFiles folder format space hs dss)
      return drifts.any id := by
  rw [writeAll, folderFiles, List.mapM_map, writeEach, h]
  rfl

/-- Where the files of some headers are written, or compared, the form can
write the namespace, and they are those in the folder. -/
lemma exists_of_result_writeEach {format : OutputFormat} {loose : LooseText}
    {folder : Path} {hs : List Header} {dss : List (List Declaration)}
    {drift : Bool} (hbound : assembleHeaders? hs = some dss) (hne : hs ≠ [])
    (h : (writeEach a folder format loose (hs.zip dss)).result c
      = (.ok drift, c')) :
    ∃ space drifts, format.space? loose = some space
      ∧ (writeAll "generate" a (folderFiles folder format space hs dss)).result
        c = (.ok drifts, c')
      ∧ drift = drifts.any id := by
  cases hspace : format.space? loose with
  | none =>
      -- the first file is refused
      obtain ⟨e, rest, hzip⟩ :=
        List.exists_cons_of_ne_nil (zip_ne_nil hbound hne)
      rw [hzip, writeEach, List.mapM_cons, hspace] at h
      obtain ⟨drifts, mid, h, -⟩ := exists_of_result_bind h
      obtain ⟨drift, mid, h, -⟩ := exists_of_result_bind h
      exact absurd h result_refuseArtifact_ne_ok
  | some space =>
      rw [writeEach_eq hspace] at h
      obtain ⟨drifts, last, hall, hany⟩ := exists_of_result_bind h
      obtain ⟨hdrift, rfl⟩ := Prod.mk.inj hany
      exact ⟨space, drifts, rfl, hall, (Except.ok.inj hdrift).symm⟩

/-- Every run finds all that which ends well. -/
theorem nonempty_directoryRun (ht : t.IsGrounded) {exit : Nat}
    (hdir : (nonempty? a.outputDir?).isSome = true)
    (h : (runGenerate s a).result { tree := t } = (.ok exit, c)) :
    Nonempty (DirectoryRun s a t) := by
  obtain ⟨dir, hdir⟩ := Option.isSome_iff_exists.mp hdir
  obtain ⟨⟨settings, hs⟩, mid, hinput, h⟩ := exists_of_result_bind h
  obtain ⟨places, hplaces, -, rfl⟩ := exists_of_result_readInput ht hinput
  dsimp only at h
  rw [result_bind_of_ok (result_reportDiagnostics hs _), hdir] at h
  dsimp only at h
  split at h
  · cases h
  · obtain ⟨folder, last, hplace, h⟩ := exists_of_result_bind h
    obtain ⟨hfolder, rfl⟩ := result_place_eq_ok_iff.mp hplace
    obtain ⟨dss, last, hbind, h⟩ := exists_of_result_bind h
    obtain ⟨hbound, rfl⟩ := result_bindHeaders_eq_ok_iff.mp hbind
    obtain ⟨drift, last, hwrite, -⟩ := exists_of_result_bind h
    obtain ⟨space, -, hspace, -⟩ :=
      exists_of_result_writeEach hbound (headers_ne_nil hinput) hwrite
    exact ⟨settings, space, places, hs, dss, folder, hplaces, hinput,
      hspace, hbound, by
        rw [Station.outputFolder?, hdir, Option.bind_some, hfolder]⟩

/-! ### The files that are due -/

lemma renderOne_ne_empty (format : OutputFormat) (space : String)
    (h : Header) (ds : List Declaration) :
    renderOne format space h ds ≠ "" := by
  cases format with
  | csharp =>
      rw [renderOne, Header.sourceText, sourceText]
      simp
  | json =>
      rw [renderOne, Json.pretty]
      simp

namespace DirectoryRun

/-- The form of the files. -/
def format (r : DirectoryRun s a t) : OutputFormat :=
  r.settings.outputFormat

/-- The files that are due: for each header one with its text, as it is
bound together with the others. -/
def artifacts (r : DirectoryRun s a t) : List Artifact :=
  folderFiles r.folder r.format r.space r.headers r.bound

/-- The headers are those of files at the places. -/
lemma forall₂_headers (ht : t.IsGrounded) (r : DirectoryRun s a t) :
    List.Forall₂ (fun p h => t.has p = true ∧ h.file = p.name)
      r.places r.headers := by
  obtain ⟨places, hplaces, hheaders, -⟩ :=
    exists_of_result_readInput ht r.readInput_eq
  rw [r.headerPlaces_eq] at hplaces
  rw [Except.ok.inj (Prod.mk.inj hplaces).1]
  refine (forall₂_of_result_mapM (fun p header => ?_) hheaders).imp
    fun _ _ h => of_result_readHeaderFile h
  exact steady_readHeaderFile rfl r.settings.rules header

/-- The places of the headers are taken. -/
lemma has_of_mem_places (ht : t.IsGrounded) (r : DirectoryRun s a t)
    {p : Path} (hp : p ∈ r.places) : t.has p = true := by
  obtain ⟨n, hn, rfl⟩ := List.getElem_of_mem hp
  have hlength := (r.forall₂_headers ht).length_eq
  exact ((List.forall₂_iff_get.mp (r.forall₂_headers ht)).2 n hn
    (hlength ▸ hn)).1

/-- For each header a file is due in the folder, with the stem of the
header's name and the ending of the form. -/
theorem map_place_artifacts (ht : t.IsGrounded)
    (r : DirectoryRun s a t) :
    r.artifacts.map (·.place) = r.places.map fun p =>
      r.folder ++ [fileStem p.name ++ r.format.fileSuffix] := by
  have hlength : r.headers.length ≤ r.bound.length := 
    (length_of_assembleHeaders? r.bound_eq).ge
  have hfiles : r.headers.map (·.file) = r.places.map Path.name := by
    rw [← List.forall₂_eq_eq_eq, List.forall₂_map_left_iff,
      List.forall₂_map_right_iff]
    exact (r.forall₂_headers ht).flip.imp fun _ _ h => h.2
  calc r.artifacts.map (·.place)
      = ((r.headers.zip r.bound).map Prod.fst).map
          (outputPlace r.folder r.format) := by
        rw [artifacts, folderFiles, List.map_map, List.map_map]
        rfl
    _ = (r.headers.map (·.file)).map fun name =>
          r.folder ++ [fileStem name ++ r.format.fileSuffix] := by
        rw [List.map_fst_zip hlength, List.map_map]
        rfl
    _ = _ := by
        rw [hfiles, List.map_map]
        rfl

/-! ### Runs -/

/-- What is known before the first file is written. -/
def start (r : DirectoryRun s a t) : Console where
  tree := t
  err := lineText (warnings r.headers)

/-- All that is left to do then is to write the files. -/
lemma result_runGenerate (r : DirectoryRun s a t) :
    (runGenerate s a).result { tree := t }
      = if (nonempty? a.output?).isSome then (.error .outputTwice, r.start)
        else (do
          let drifts ← writeAll "generate" a r.artifacts
          return exitCode a (drifts.any id) !(warnings r.headers).isEmpty :
          Action Nat).result r.start := by
  obtain ⟨dir, hdir, hfolder⟩ :=
    Option.bind_eq_some_iff.mp r.outputFolder_eq
  have hplace := result_place_eq_ok_iff (c := r.start).mpr ⟨hfolder, rfl⟩
  have hbound : (bindHeaders r.headers).result r.start
      = (.ok r.bound, r.start) :=
    result_bindHeaders_eq_ok_iff.mpr ⟨r.bound_eq, rfl⟩
  rw [runGenerate, result_bind_of_ok r.readInput_eq]
  dsimp only
  rw [result_bind_of_ok (result_reportDiagnostics _ _), hdir,
    String.empty_append]
  dsimp only
  split
  · rw [result_bind, result_throw]
    rfl
  · rw [start] at hplace hbound ⊢
    rw [result_bind_of_ok hplace, result_bind_of_ok hbound,
      writeEach_eq r.space_eq, bind_assoc]
    simp only [pure_bind]
    rfl

/-- The run does not write over its own input: no file is due at the place
of a header or of the settings, and the folder is not in the bundle. -/
structure Apart (r : DirectoryRun s a t) : Prop where
  headers : ∀ x ∈ r.artifacts, x.place ∉ r.places
  config : ∀ x ∈ r.artifacts, s.configPlace? a ≠ some x.place
  bundle : ∀ p, s.bundlePlace? a = some p → ¬ p <+: r.folder

lemma place_of_mem_artifacts {r : DirectoryRun s a t} {x : Artifact}
    (hx : x ∈ r.artifacts) : x.place ≠ [] ∧ x.place.folder = r.folder := by
  obtain ⟨e, -, rfl⟩ := List.mem_map.mp hx
  rw [outputPlace, Path.folder]
  exact ⟨by simp, List.dropLast_concat⟩

lemma text_of_mem_artifacts {r : DirectoryRun s a t} {x : Artifact}
    (hx : x ∈ r.artifacts) : x.text ≠ "" := by
  obtain ⟨e, -, rfl⟩ := List.mem_map.mp hx
  exact renderOne_ne_empty _ _ _ _

/-- A run that ends well has brought all files up to date. -/
theorem writtenAll (ht : t.IsGrounded) (r : DirectoryRun s a t)
    (hcheck : a.check = false) (hdry : a.dryRun = false)
    (h : (runGenerate s a).result { tree := t } = (.ok 0, c)) :
    (nonempty? a.output?).isSome = false
      ∧ (a.failOnWarnings && !(warnings r.headers).isEmpty) = false
      ∧ WrittenAll r.start c r.artifacts := by
  rw [r.result_runGenerate] at h
  split at h
  · cases h
  rename_i houtput
  obtain ⟨drifts, mid, hwrite, h⟩ := exists_of_result_bind h
  obtain ⟨hexit, rfl⟩ := Prod.mk.inj h
  refine ⟨Bool.eq_false_iff.mpr houtput, ?_,
    writtenAll_of_writeAll hcheck hdry ht
      (fun x hx => (place_of_mem_artifacts hx).1)
      (fun x hx => text_of_mem_artifacts hx) hwrite⟩
  have hcode := Except.ok.inj hexit
  rw [exitCode, ite_eq_right_iff] at hcode
  rw [Bool.eq_false_iff]
  intro hfail
  exact absurd (hcode (by rw [hfail, Bool.or_true])) (by decide)

/-- What a run leaves keeps its input. -/
theorem inputKept (ht : t.IsGrounded) (r : DirectoryRun s a t)
    (hapart : r.Apart) (h : WrittenAll r.start c r.artifacts) :
    InputKept s a r.places t c.tree where
  grounded := ht
  config p hp := by
    have hnone : lastText p r.artifacts = none := by
      refine Option.eq_none_iff_forall_ne_some.mpr fun text htext => ?_
      obtain ⟨x, hx, rfl, -⟩ := exists_of_lastText htext
      exact hapart.config x hx hp
    rw [h.text, hnone]
    rfl
  bundle p hp hfolder := by
    refine h.changed (p.isPrefixOf ·) ?_
    rintro q ⟨x, hx, hq⟩
    rw [Bool.eq_false_iff]
    intro hbelow
    rw [List.isPrefixOf_iff_prefix] at hbelow
    have hplace := place_of_mem_artifacts hx
    rw [hplace.2] at hq
    rcases hq with rfl | ⟨hq, -⟩
    · -- the bundle is no file, so it is above the folder or apart from it
      rw [← Path.folder_append_name hplace.1, hplace.2,
        List.prefix_concat_iff] at hbelow
      rcases hbelow with heq | hbelow
      · have hfile := h.noFolder x hx
        rw [← Path.folder_append_name hplace.1, hplace.2, ← heq] at hfile
        exact absurd (hfolder.symm.trans hfile) (by decide)
      · exact hapart.bundle p hp hbelow
    · exact hapart.bundle p hp (hbelow.trans hq)
  headers p hp := by
    refine h.changed.entry?_eq ?_
    rintro ⟨x, hx, rfl | ⟨-, habsent⟩⟩
    · exact hapart.headers x hx hp
    · exact absurd (habsent.symm.trans (r.has_of_mem_places ht hp))
        (by decide)

/-- A run that only checks finds the same where the input is kept. -/
def again (r : DirectoryRun s a t) (h : InputKept s a r.places t t') :
    DirectoryRun s { a with check := true } t' where
  settings := r.settings
  space := r.space
  places := r.places
  headers := r.headers
  bound := r.bound
  folder := r.folder
  headerPlaces_eq := (steady_headerPlaces h _ r.headerPlaces_eq).2
  readInput_eq := (steady_readInput r.headerPlaces_eq h _ _ r.readInput_eq).2
  space_eq := r.space_eq
  bound_eq := r.bound_eq
  outputFolder_eq := r.outputFolder_eq

/-- A run that only checks changes nothing, and ends well just if all files
have their texts. -/
theorem result_check (r : DirectoryRun s { a with check := true } t)
    (houtput : (nonempty? a.output?).isSome = false)
    (hfail : (a.failOnWarnings && !(warnings r.headers).isEmpty) = false)
    (hshort : ∀ x ∈ r.artifacts, x.place.IsShort)
    (hsome : ∀ x ∈ r.artifacts, (t.textAt? x.place).isSome = true) :
    (runGenerate s { a with check := true }).result { tree := t }
      = (.ok (if ∀ x ∈ r.artifacts, t.textAt? x.place = some x.text then 0
          else 1),
        { tree := t
          out := lineText (r.artifacts.flatMap
            (checkReport "generate" { a with check := true } t))
          err := lineText (warnings r.headers) }) := by
  have hwrite : (writeAll "generate" { a with check := true }
      r.artifacts).result r.start = _ :=
    result_writeAll_check rfl hshort hsome
  have hdrift : (r.artifacts.map fun x =>
        decide (t.textAt? x.place ≠ some x.text)).any id = true
      ↔ ¬ ∀ x ∈ r.artifacts, t.textAt? x.place = some x.text := by
    simp
  rw [r.result_runGenerate, houtput, if_neg Bool.false_ne_true,
    result_bind_of_ok hwrite, result_pure, exitCode, hfail,
    Bool.or_false, start, String.empty_append]
  simp only [hdrift, ite_not]

/-- After a run that ends well, a run that only checks finds the same files
due, and finds out whether they have their texts. -/
theorem finished_check (r : DirectoryRun s a t) (hapart : r.Apart)
    (ht : t.IsGrounded) (hcheck : a.check = false) (hdry : a.dryRun = false)
    (h : (runGenerate s a).result { tree := t } = (.ok 0, c)) :
    Outcome.ofAction (runGenerate s { a with check := true }) c.tree
      = .finished
        (if ∀ x ∈ r.artifacts, c.tree.textAt? x.place = some x.text then 0
          else 1)
        { tree := c.tree
          out := lineText (r.artifacts.flatMap
            (checkReport "generate" { a with check := true } c.tree))
          err := c.err } := by
  obtain ⟨houtput, hfail, hwritten⟩ := r.writtenAll ht hcheck hdry h
  have hagain := result_check (r.again (r.inputKept ht hapart hwritten))
    houtput hfail hwritten.short fun x hx => hwritten.isSome_textAt? hx
  rw [ofAction_eq_finished_iff (by split <;> decide), hwritten.err]
  exact hagain

/-- Of a run that ends well: every header has its file in the folder, the
file has the text that the header gets among the others, and a run that only
checks finds all files unchanged, ends well and writes nothing, just if no
two headers need different texts in one file and no text has a carriage
return. -/
theorem upToDate_iff (r : DirectoryRun s a t) (hapart : r.Apart)
    (ht : t.IsGrounded) (hcheck : a.check = false) (hdry : a.dryRun = false)
    (h : Outcome.ofAction (runGenerate s a) t = .finished 0 c) :
    r.artifacts.map (·.place)
        = r.places.map (fun p =>
          r.folder ++ [fileStem p.name ++ r.format.fileSuffix])
      ∧ (((∀ x ∈ r.artifacts, c.tree.textAt? x.place = some x.text)
          ∧ Outcome.ofAction (runGenerate s { a with check := true }) c.tree
            = .finished 0
              { tree := c.tree
                out := lineText
                  (r.artifacts.map (unchangedLine "generate"))
                err := c.err })
        ↔ (∀ x ∈ r.artifacts, ∀ y ∈ r.artifacts,
            x.place = y.place → x.text = y.text)
          ∧ ∀ x ∈ r.artifacts, '\r' ∉ x.text.toList) := by
  refine ⟨r.map_place_artifacts ht, ?_⟩
  have hdone := (ofAction_eq_finished_iff (by decide)).mp h
  obtain ⟨-, -, hwritten⟩ := r.writtenAll ht hcheck hdry hdone
  rw [← hwritten.forall_text_iff, and_iff_left_iff_imp]
  intro htexts
  have hlines : r.artifacts.flatMap
        (checkReport "generate" { a with check := true } c.tree)
      = r.artifacts.map (unchangedLine "generate") := by
    rw [List.map_eq_flatMap]
    exact List.flatMap_congr fun x hx => checkReport_of_textAt? _ (htexts x hx)
  rw [r.finished_check hapart ht hcheck hdry hdone, if_pos htexts, hlines]

end DirectoryRun

/-! ### Two headers -/

/-- The root, on a system without platform slices. -/
def rootStation : Station := ⟨[], "linux", schemaMessage?⟩

/-- A folder each for two headers. -/
def shelfTree (first second : String) : FileTree :=
  ⟨[(["a"], .folder),
    (["a", first], .file (encodeUtf8 "@class Red;\n".toList)),
    (["b"], .folder),
    (["b", second], .file (encodeUtf8 "@class Blue;\n".toList))]⟩

/-- Both headers are bound into one folder. -/
def shelfArguments (first second : String) : Arguments where
  files := ["a/" ++ first, "b/" ++ second]
  outputDir? := some "out"

/-- What the run leaves. -/
def shelfLeft (first second : String) : Console :=
  ((runGenerate rootStation (shelfArguments first second)).result
    { tree := shelfTree first second }).2

lemma result_eq_ok_of_toOption {α : Type} {act : Action α} {v : α}
    {c' : Console} (hvalue : (act.result c).1.toOption = some v)
    (hleft : (act.result c).2 = c') : act.result c = (.ok v, c') := by
  rcases hresult : act.result c with ⟨f | w, last⟩
  · rw [hresult] at hvalue
    cases hvalue
  · rw [hresult] at hvalue hleft
    exact Prod.ext (congrArg Except.ok (Option.some.inj hvalue)) hleft

/-- What the run finds. -/
def shelfRun : DirectoryRun rootStation (shelfArguments "Red.h" "Blue.h")
    (shelfTree "Red.h" "Blue.h") where
  settings := {}
  space := defaultSpace
  places := [["a", "Red.h"], ["b", "Blue.h"]]
  headers := [readHeader {} "Red.h" "@class Red;\n",
    readHeader {} "Blue.h" "@class Blue;\n"]
  bound := [[], []]
  folder := ["out"]
  headerPlaces_eq := result_eq_ok_of_toOption (by decide +kernel)
    (by decide +kernel)
  readInput_eq := result_eq_ok_of_toOption (by decide +kernel)
    (by decide +kernel)
  space_eq := by decide +kernel
  bound_eq := by decide +kernel
  outputFolder_eq := by decide +kernel

/-- Headers with different stems: their files have their texts, and stay as
they are when they are checked. -/
theorem upToDate_iff_shelf :
    (∀ x ∈ shelfRun.artifacts,
      (shelfLeft "Red.h" "Blue.h").tree.textAt? x.place = some x.text)
    ∧ Outcome.ofAction (runGenerate rootStation
        { shelfArguments "Red.h" "Blue.h" with check := true })
        (shelfLeft "Red.h" "Blue.h").tree
      = .finished 0
        { tree := (shelfLeft "Red.h" "Blue.h").tree
          out := lineText (shelfRun.artifacts.map (unchangedLine "generate"))
          err := (shelfLeft "Red.h" "Blue.h").err } := by
  have hrun : Outcome.ofAction
      (runGenerate rootStation (shelfArguments "Red.h" "Blue.h"))
      (shelfTree "Red.h" "Blue.h") = .finished 0 (shelfLeft "Red.h" "Blue.h") :=
    (ofAction_eq_finished_iff (by decide)).mpr
      (result_eq_ok_of_toOption (by decide +kernel) rfl)
  have hapart : shelfRun.Apart :=
    ⟨by decide +kernel, by decide +kernel, fun p hp => by cases hp⟩
  -- one computation, in which the texts are made only once
  have htexts : (∀ x ∈ shelfRun.artifacts, ∀ y ∈ shelfRun.artifacts,
        x.place = y.place → x.text = y.text)
      ∧ ∀ x ∈ shelfRun.artifacts, '\r' ∉ x.text.toList := by
    decide +kernel
  exact (shelfRun.upToDate_iff hapart (by decide +kernel) rfl rfl hrun).2.mpr
    htexts

/-- What the run finds where both headers have one name. -/
def twinRun : DirectoryRun rootStation (shelfArguments "Box.h" "Box.h")
    (shelfTree "Box.h" "Box.h") where
  settings := {}
  space := defaultSpace
  places := [["a", "Box.h"], ["b", "Box.h"]]
  headers := [readHeader {} "Box.h" "@class Red;\n",
    readHeader {} "Box.h" "@class Blue;\n"]
  bound := [[], []]
  folder := ["out"]
  headerPlaces_eq := result_eq_ok_of_toOption (by decide +kernel)
    (by decide +kernel)
  readInput_eq := result_eq_ok_of_toOption (by decide +kernel)
    (by decide +kernel)
  space_eq := by decide +kernel
  bound_eq := by decide +kernel
  outputFolder_eq := by decide +kernel

/-- Headers of one name, with no carriage return and no header in the folder:
the run ends well, but there is only one file, which has lost the text of the
first header, and a run that only checks ends with the code 1. -/
theorem not_upToDate_twins :
    readCommandLine ["generate", "a/Box.h", "b/Box.h", "--output-dir", "out"]
      = .run .generate (shelfArguments "Box.h" "Box.h")
    ∧ readCommandLine
        ["generate", "a/Box.h", "b/Box.h", "--output-dir", "out", "--check"]
      = .run .generate { shelfArguments "Box.h" "Box.h" with check := true }
    ∧ Outcome.ofAction
        (runGenerate rootStation (shelfArguments "Box.h" "Box.h"))
        (shelfTree "Box.h" "Box.h")
      = .finished 0 (shelfLeft "Box.h" "Box.h")
    ∧ (∀ p ∈ twinRun.places, ¬ twinRun.folder <+: p)
    ∧ (∀ x ∈ twinRun.artifacts, '\r' ∉ x.text.toList)
    ∧ ¬ (∀ x ∈ twinRun.artifacts,
      (shelfLeft "Box.h" "Box.h").tree.textAt? x.place = some x.text)
    ∧ ∃ last, Outcome.ofAction (runGenerate rootStation
        { shelfArguments "Box.h" "Box.h" with check := true })
        (shelfLeft "Box.h" "Box.h").tree
      = .finished 1 last := by
  have ht : (shelfTree "Box.h" "Box.h").IsGrounded := by decide +kernel
  have hrun : (runGenerate rootStation
      (shelfArguments "Box.h" "Box.h")).result
        { tree := shelfTree "Box.h" "Box.h" }
      = (.ok 0, shelfLeft "Box.h" "Box.h") :=
    result_eq_ok_of_toOption (by decide +kernel) rfl
  have hapart : twinRun.Apart :=
    ⟨by decide +kernel, by decide +kernel, fun p hp => by cases hp⟩
  obtain ⟨-, -, hwritten⟩ := twinRun.writtenAll ht rfl rfl hrun
  have hlost : ¬ ∀ x ∈ twinRun.artifacts,
      (shelfLeft "Box.h" "Box.h").tree.textAt? x.place = some x.text := by
    rw [hwritten.forall_text_iff, not_and_or]
    exact .inl (by decide +kernel)
  have hcheck := twinRun.finished_check hapart ht rfl rfl hrun
  rw [if_neg hlost] at hcheck
  exact ⟨by decide +kernel, by decide +kernel,
    (ofAction_eq_finished_iff (by decide)).mpr hrun,
    by decide +kernel, by decide +kernel, hlost, _, hcheck⟩

end HeaderBinding
