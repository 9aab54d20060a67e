/-
What a command that fails has done to the files.

* `Action.StopsClean`: a step that changes no file if it stops, unless it
  stops at a text without octets, and then it may have emptied one;
  `stopsClean_writeArtifact?`: such is a step that brings one file up to
  date, whether the file cannot be read or cannot be made;
* `octetsAfter`, `octetsAt?_of_writeAll`: what the files hold after some of
  them were brought up to date;
* `exists_of_result_writeAll_error`: where such a row of steps stops;
* `StopsBehind`, `files_of_failed_run`: a run that fails has changed no
  file, unless it writes a file for each header into a folder; then those
  before the one at which it fails are up to date, and all others are as
  they were;
* `files_of_unencodable_run`: a run that fails at a text without octets may
  have emptied a file;
* `not_sameFiles_blocked`: a run into a folder may leave a new file.
-/
import HeaderBinding.Proofs.Command.Contract
import HeaderBinding.Proofs.Files.Octets

namespace HeaderBinding

open HeaderBinding.Action FileTree

namespace Action

variable {α β : Type}

/-! ### Steps that stop -/

/-- Of two steps one behind the other, the first stops or the second
does. -/
lemma cases_of_result_bind_error {act : Action α} {k : α → Action β}
    {c last : Console} {f : CommandFault}
    (h : (act >>= k).result c = (.error f, last)) :
    act.result c = (.error f, last)
      ∨ ∃ v mid, act.result c = (.ok v, mid)
        ∧ (k v).result mid = (.error f, last) := by
  rw [result_bind] at h
  split at h
  · rename_i v mid hact
    exact .inr ⟨v, mid, hact, h⟩
  · rename_i f' mid hact
    obtain ⟨hf, rfl⟩ := Prod.mk.inj h
    obtain rfl := Except.error.inj hf
    exact .inl hact

/-- What a step that stops with a fault may leave of some files: all of
them, but for one that was emptied for a text without octets. -/
def LeftBy (f : CommandFault) (t t' : FileTree) : Prop :=
  SameFiles t t' ∨ f = .unencodable ∧ ∃ p, Emptied t t' p

/-- The step changes no file if it stops, but for one that it empties for a
text without octets. -/
def StopsClean (act : Action α) : Prop :=
  ∀ c f last, act.result c = (.error f, last) → LeftBy f c.tree last.tree

lemma stopsClean_pure (v : α) : StopsClean (pure v : Action α) :=
  fun _ _ _ h => by cases h

lemma KeepsTree.sameFiles {act : Action α} (hact : KeepsTree act)
    {r : Except CommandFault α} {c c' : Console}
    (h : act.result c = (r, c')) : SameFiles c.tree c'.tree := by
  rw [hact.tree_eq h]
  exact .refl c.tree

lemma KeepsTree.stopsClean {act : Action α} (hact : KeepsTree act) :
    StopsClean act :=
  fun _ _ _ h => .inl (hact.sameFiles h)

/-- Steps that leave the files alone may come before. -/
lemma KeepsTree.stopsClean_bind {act : Action α} {k : α → Action β}
    (hact : KeepsTree act) (hk : ∀ v, StopsClean (k v)) :
    StopsClean (act >>= k) := by
  intro c f last h
  rcases cases_of_result_bind_error h with h | ⟨v, mid, hv, h⟩
  · exact hact.stopsClean c f last h
  · have hlast := hk v mid f last h
    rwa [hact.tree_eq hv] at hlast

/-- Behind a step that may have written there is only one that ends
well. -/
lemma StopsClean.bind_pure {act : Action α} (hact : StopsClean act)
    (k : α → β) : StopsClean (act >>= fun v => pure (k v)) := by
  intro c f last h
  rcases cases_of_result_bind_error h with h | ⟨v, mid, -, h⟩
  · exact hact c f last h
  · cases h

end Action

variable {s : Station} {a : Arguments} {t : FileTree} {c c' : Console}
  {label : String} {x : Artifact} {xs : List Artifact}

/-! ### One file -/

/-- A file that cannot be stored leaves all files as they are. -/
lemma sameFiles_of_storeText {p : Path} {text : String} {f : CommandFault}
    (h : (storeText p text).result c = (.error f, c')) :
    SameFiles c.tree c'.tree := by
  rcases hwrite : c.tree.write p (encodeUtf8 text.toList) with ⟨t, fault?⟩
  rw [result_storeText hwrite] at h
  cases fault? with
  | none => cases h
  | some fault =>
      obtain ⟨-, rfl⟩ := Prod.mk.inj h
      exact sameFiles_of_write hwrite

/-- A text that cannot be loaded is in no file, or its file is no text. -/
lemma fault_of_loadText {p : Path} {fault : Path → ReadFault → CommandFault}
    {f : CommandFault}
    (h : (loadText p fault).result c = (.error f, c')) :
    (∃ read, f = fault p read) ∨ f = .badText p := by
  rcases cases_of_result_bind_error h with hload | ⟨octets, mid, -, hrest⟩
  · rw [loadOctets, result_bind_of_ok (result_currentFiles c)] at hload
    split at hload
    · cases hload
    · rename_i read hread
      exact .inl ⟨read, (Except.error.inj (Prod.mk.inj hload).1).symm⟩
  · split at hrest
    · cases hrest
    · exact .inr (Except.error.inj (Prod.mk.inj hrest).1).symm

/-- A file that is not brought up to date cannot be read or cannot be
stored: the lines about it cannot stop the step. -/
lemma cases_of_writeArtifact_error {p : Path} {new : String}
    {f : CommandFault}
    (h : (writeArtifact label a p new).result c = (.error f, c')) :
    (existingText p).result c = (.error f, c')
      ∨ (storeText p new).result c = (.error f, c') := by
  rcases cases_of_result_bind_error h with hread | ⟨old, mid, hold, hrest⟩
  · exact .inl hread
  obtain ⟨-, rfl, -⟩ := result_existingText_eq_ok_iff.mp hold
  dsimp only at hrest
  split at hrest
  · rcases cases_of_result_bind_error hrest with hstore | ⟨_, last, -, hsay⟩
    · exact .inr hstore
    · rw [result_bind_of_ok (result_forM_say ..)] at hsay
      cases hsay
  · rw [result_bind_of_ok (result_forM_say ..)] at hrest
    cases hrest

lemma sameFiles_of_writeArtifact {p : Path} {new : String}
    {f : CommandFault}
    (h : (writeArtifact label a p new).result c = (.error f, c')) :
    SameFiles c.tree c'.tree := by
  rcases cases_of_writeArtifact_error h with hread | hstore
  · exact (keepsTree_existingText p).sameFiles hread
  · exact sameFiles_of_storeText hstore

/-- A file with octets stops at none that has none. -/
lemma ne_unencodable_of_writeArtifact {p : Path} {new : String}
    {f : CommandFault}
    (h : (writeArtifact label a p new).result c = (.error f, c')) :
    f ≠ .unencodable := by
  rintro rfl
  rcases cases_of_writeArtifact_error h with hread | hstore
  · rcases cases_of_result_bind_error hread with hlook | ⟨e?, mid, -, hread⟩
    · rw [result_lookUp] at hlook
      split at hlook <;> cases hlook
    split at hread
    · rcases cases_of_result_bind_error hread with hload | ⟨_, last, -, h⟩
      · rcases fault_of_loadText hload with ⟨fault, hf⟩ | hf <;> cases hf
      · cases h
    · cases hread
  · rcases hwrite : c.tree.write p (encodeUtf8 new.toList) with ⟨t, fault?⟩
    rw [result_storeText hwrite] at hstore
    cases fault? <;> cases hstore

/-- A file that is refused is emptied, if it can be stored at all and is not
only compared. -/
lemma leftBy_of_refuseArtifact {p : Path} {f : CommandFault}
    (h : (refuseArtifact label a p).result c = (.error f, c')) :
    LeftBy f c.tree c'.tree := by
  have hlook := keepsTree_discard (keepsTree_existingText p)
  rcases cases_of_result_bind_error h with h | ⟨_, mid, hdiscard, hrest⟩
  · exact .inl (hlook.sameFiles h)
  obtain ⟨old, hold⟩ := result_discard_eq_ok_iff.mp hdiscard
  have hplace := ne_nil_of_result_existingText hold
  obtain ⟨-, rfl, -⟩ := result_existingText_eq_ok_iff.mp hold
  dsimp only at hrest
  split at hrest
  · rcases cases_of_result_bind_error hrest with h | ⟨_, last, hstore, hthrow⟩
    · exact .inl (sameFiles_of_storeText h)
    · obtain ⟨hf, rfl⟩ := Prod.mk.inj hthrow
      exact .inr ⟨(Except.error.inj hf).symm, p,
        octetsAt?_of_write hplace (write_of_storeText hstore).1⟩
  · exact (keepsTree_bind (keepsTree_print _ _) fun _ =>
      keepsTree_throw _).stopsClean _ _ _ hrest

lemma stopsClean_writeArtifact? (label : String) (a : Arguments) (p : Path)
    (text? : Option String) :
    StopsClean (writeArtifact? label a p text?) := by
  intro c f last h
  cases text? with
  | some text => exact .inl (sameFiles_of_writeArtifact h)
  | none => exact leftBy_of_refuseArtifact h

/-- The octets of a file once it is brought up to date.  They are the old
ones if they are read as its text already. -/
def Artifact.octets? (x : Artifact) (old? : Option (List UInt8)) :
    Option (List UInt8) :=
  if (textOf? old?).getD "" = x.text then old?
  else some (encodeUtf8 x.text.toList)

/-- A file that is brought up to date changes no other one. -/
lemma octetsAt?_of_writeArtifact (hcompares : ¬ a.OnlyCompares)
    {drift : Bool}
    (h : (writeArtifact label a x.place x.text).result c
      = (.ok drift, c')) (p : Path) :
    c'.tree.octetsAt? p = if x.place = p then x.octets? (c.tree.octetsAt? p)
      else c.tree.octetsAt? p := by
  obtain ⟨old, mid, hold, hstore, rfl, -⟩ :=
    result_writeArtifact_eq_ok_iff.mp h
  have hplace := ne_nil_of_result_existingText hold
  obtain ⟨-, -, hold⟩ := result_existingText_eq_ok_iff.mp hold
  have htext : (textOf? (c.tree.octetsAt? x.place)).getD "" = old := by
    rw [← textAt?_eq_textOf?]
    rcases hold with hread | ⟨hnone, rfl⟩
    · rw [hread, Option.getD_some]
    · rw [textAt?_eq_textOf?, octetsAt?_eq_none hnone]
      rfl
  rw [Console.tree_print]
  by_cases hsame : old = x.text
  · rw [artifactStatus, if_pos hsame, if_neg (by decide)] at hstore
    rw [hstore]
    split
    · rename_i hp
      rw [Artifact.octets?, ← hp, if_pos (htext.trans hsame)]
    · rfl
  · rw [artifactStatus, if_neg hsame,
      if_pos (staleStatus_eq_updated_iff.mpr hcompares)] at hstore
    rw [octetsAt?_of_write hplace (write_of_storeText hstore).1]
    split
    · rename_i hp
      rw [Artifact.octets?, ← hp, if_neg (htext ▸ hsame)]
    · rfl

/-! ### Some files -/

/-- The octets at a place after some files were brought up to date one
after the other. -/
def octetsAfter (p : Path) : List Artifact → Option (List UInt8) →
    Option (List UInt8)
  | [], old? => old?
  | x :: xs, old? =>
    octetsAfter p xs (if x.place = p then x.octets? old? else old?)

/-- Where no file is due, nothing changes. -/
lemma octetsAfter_of_forall_ne {p : Path} (h : ∀ x ∈ xs, x.place ≠ p)
    (old? : Option (List UInt8)) : octetsAfter p xs old? = old? := by
  induction xs with
  | nil => rfl
  | cons x xs ih =>
      obtain ⟨hx, hxs⟩ := List.forall_mem_cons.mp h
      rw [octetsAfter, if_neg hx, ih hxs]

/-- What some files hold that were brought up to date. -/
lemma octetsAt?_of_writeAll (hcompares : ¬ a.OnlyCompares)
    {drifts : List Bool}
    (h : (writeAll label a xs).result c = (.ok drifts, c')) (p : Path) :
    c'.tree.octetsAt? p = octetsAfter p xs (c.tree.octetsAt? p) := by
  induction xs generalizing c drifts with
  | nil =>
      rw [(Prod.mk.inj h).2, octetsAfter]
  | cons x xs ih =>
      rw [writeAll_cons] at h
      obtain ⟨drift, mid, hone, h⟩ := exists_of_result_bind h
      obtain ⟨drifts, last, hrest, h⟩ := exists_of_result_bind h
      obtain ⟨-, rfl⟩ := Prod.mk.inj h
      rw [ih hrest, octetsAt?_of_writeArtifact hcompares hone, octetsAfter]

/-- A row of files stops at one of them, behind some that are done. -/
lemma exists_of_result_writeAll_error {f : CommandFault}
    (h : (writeAll label a xs).result c = (.error f, c')) :
    ∃ done x rest drifts mid, xs = done ++ x :: rest
      ∧ (writeAll label a done).result c = (.ok drifts, mid)
      ∧ (writeArtifact label a x.place x.text).result mid
        = (.error f, c') := by
  induction xs generalizing c with
  | nil => cases h
  | cons x xs ih =>
      rw [writeAll_cons] at h
      rcases cases_of_result_bind_error h with h | ⟨drift, mid, hone, h⟩
      · exact ⟨[], x, xs, [], c, rfl, rfl, h⟩
      rcases cases_of_result_bind_error h with h | ⟨_, _, -, h⟩
      · obtain ⟨done, y, rest, drifts, last, rfl, hdone, hstop⟩ := ih h
        refine ⟨x :: done, y, rest, drift :: drifts, last, rfl, ?_, hstop⟩
        rw [writeAll_cons, result_bind_of_ok hone, result_bind_of_ok hdone,
          result_pure]
      · cases h

/-! ### Runs -/

lemma stopsClean_writeOrSay (s : Station) (label : String) (a : Arguments)
    (text? : Option String) : StopsClean (writeOrSay s label a text?) := by
  unfold writeOrSay
  split
  · exact (keepsTree_place _).stopsClean_bind fun p =>
      stopsClean_writeArtifact? label a p text?
  · dsimp only
    split
    · exact (keepsTree_throw _).stopsClean
    · split
      · exact (keepsTree_print _ _).stopsClean_bind fun _ =>
          stopsClean_pure _
      · exact (keepsTree_throw _).stopsClean

/-- The declarations of headers are written last. -/
lemma stopsClean_runParse (s : Station) (a : Arguments) :
    StopsClean (runParse s a) :=
  keepsTree_readInput.stopsClean_bind fun _ =>
    (keepsTree_reportDiagnostics _).stopsClean_bind fun _ =>
      (stopsClean_writeOrSay s _ a _).bind_pure _

/-- Where the form cannot write the namespace, the first file is refused. -/
lemma stopsClean_writeEach_of_space {format : OutputFormat}
    {loose : LooseText} (hspace : format.space? loose = none)
    (a : Arguments) (folder : Path)
    (bound : List (Header × List Declaration)) :
    StopsClean (writeEach a folder format loose bound) := by
  rw [writeEach, hspace]
  refine StopsClean.bind_pure (fun c f last h => ?_) _
  cases bound with
  | nil => cases h
  | cons e bound =>
      rw [List.mapM_cons] at h
      rcases cases_of_result_bind_error h with h | ⟨drift, mid, h, -⟩
      · exact leftBy_of_refuseArtifact h
      · exact absurd h result_refuseArtifact_ne_ok

/-- A run that writes files into a folder stops at one of them, behind some
that are done: those are up to date, and all other files are as they
were. -/
structure StopsBehind (s : Station) (a : Arguments) (t : FileTree)
    (done : List Artifact) (x : Artifact) (c : Console) : Prop where
  writes : ¬ a.OnlyCompares
  due : ∃ folder settings hs rest, s.outputFolder? a = some folder
    ∧ ((readInput s a).result { tree := t }).1 = .ok (settings, hs)
    ∧ dueFiles? s a settings hs .generate = some (done ++ x :: rest)
  fails : ∃ mid f last, SameFiles mid.tree c.tree
    ∧ (writeArtifact "generate" a x.place x.text).result mid
      = (.error f, last)
  files : ∀ p, c.tree.octetsAt? p = octetsAfter p done (t.octetsAt? p)

/-- Where none of the files that are done is due, the file stays. -/
lemma StopsBehind.octetsAt?_eq {done : List Artifact} {p : Path}
    (h : StopsBehind s a t done x c) (hp : ∀ y ∈ done, y.place ≠ p) :
    c.tree.octetsAt? p = t.octetsAt? p := by
  rw [h.files, octetsAfter_of_forall_ne hp]

/-- A run that makes bindings and stops. -/
lemma cases_of_runGenerate_error {f : CommandFault}
    (h : (runGenerate s a).result { tree := t } = (.error f, c)) :
    LeftBy f t c.tree
      ∨ f ≠ .unencodable ∧ ∃ done x, StopsBehind s a t done x c := by
  by_cases hcompares : a.OnlyCompares
  · have hkept : KeepsTree (CommandName.generate.action s a) :=
      keepsTree_action hcompares rfl
    exact .inl (hkept.stopsClean _ f c h)
  rcases cases_of_result_bind_error h with h | ⟨⟨settings, hs⟩, mid, hinput, h⟩
  · exact .inl (keepsTree_readInput.stopsClean _ f c h)
  dsimp only at h
  obtain ⟨start, htree, hremarks⟩ := exists_remarked hinput
  rw [hremarks] at h
  dsimp only at htree
  rw [← htree]
  split at h
  · rename_i dir hdir
    split at h
    · obtain ⟨-, rfl⟩ := Prod.mk.inj h
      exact .inl (.inl (.refl _))
    rcases cases_of_result_bind_error h with h | ⟨folder, placed, hplace, hrest⟩
    · exact .inl ((keepsTree_place dir).stopsClean start f c h)
    obtain ⟨hfolder, rfl⟩ := result_place_eq_ok_iff.mp hplace
    rcases cases_of_result_bind_error hrest with h | ⟨dss, bound, hbind, hrest'⟩
    · exact .inl ((keepsTree_bindHeaders hs).stopsClean _ f c h)
    obtain ⟨hdss, rfl⟩ := result_bindHeaders_eq_ok_iff.mp hbind
    cases hspace : settings.outputFormat.space? settings.space with
    | none =>
        exact .inl ((stopsClean_writeEach_of_space hspace a folder _).bind_pure
          _ _ f c hrest')
    | some space =>
        rw [writeEach_eq hspace, bind_assoc] at hrest'
        rcases cases_of_result_bind_error hrest' with hall | ⟨_, _, -, h⟩
        · obtain ⟨done, x, rest, drifts, last, hfiles, hdone, hstop⟩ :=
            exists_of_result_writeAll_error hall
          have hkept := sameFiles_of_writeArtifact hstop
          have houtput : s.outputFolder? a = some folder := by
            rw [Station.outputFolder?, hdir, Option.bind_some, hfolder]
          have hencodes := ne_unencodable_of_writeArtifact hstop
          refine .inr ⟨hencodes, done, x, hcompares,
            ⟨folder, settings, hs, rest, houtput, ?_, ?_⟩,
            ⟨last, f, c, hkept, hstop⟩, fun p => ?_⟩
          · rw [htree, hinput]
          · rw [dueFiles?_folder houtput
              (bindings?_eq_some_iff.mpr ⟨hspace, hdss⟩), hfiles]
          · rw [hkept, octetsAt?_of_writeAll hcompares hdone]
        · cases h
  · exact .inl ((keepsTree_bindHeaders hs).stopsClean_bind
      (fun _ => (stopsClean_writeOrSay s _ a _).bind_pure _) start f c h)

/-- A run that ends with a fault, told or not. -/
lemma exists_of_ofAction {act : Action Nat}
    (hcodes : ∀ exit last, act.result { tree := t } = (.ok exit, last) →
      exit ≠ 2) :
    (Outcome.ofAction act t = .finished 2 c →
      ∃ f last, act.result { tree := t } = (.error f, last)
        ∧ f ≠ .unencodable ∧ c.tree = last.tree)
    ∧ ∀ f, Outcome.ofAction act t = .broken f c →
      act.result { tree := t } = (.error f, c) := by
  constructor
  · intro h
    rcases cases_of_ofAction h with hdone |
      ⟨f, message, last, hf, hmessage, -, htree⟩
    · exact absurd rfl (hcodes 2 c hdone)
    · refine ⟨f, last, hf, ?_, htree⟩
      rintro rfl
      cases hmessage
  · intro f h
    rw [Outcome.ofAction] at h
    split at h
    · cases h
    · rename_i f' last hrun
      split at h
      · cases h
      · obtain ⟨rfl, rfl⟩ := Outcome.broken.inj h
        exact hrun

/-- What a command leaves that reads headers and stops. -/
lemma cases_of_action_error {command : CommandName} {f : CommandFault}
    (hcommand : command.takesFiles = true)
    (h : (command.action s a).result { tree := t } = (.error f, c)) :
    LeftBy f t c.tree
      ∨ f ≠ .unencodable ∧ command = .generate
        ∧ ∃ done x, StopsBehind s a t done x c := by
  cases command with
  | parse => exact .inl (stopsClean_runParse s a _ f c h)
  | generate =>
      exact (cases_of_runGenerate_error h).imp_right fun ⟨hf, hstops⟩ =>
        ⟨hf, rfl, hstops⟩
  | listSlices => cases hcommand
  | listHeaders => cases hcommand

section Runs

variable {texts : List String} {command : CommandName}
  (hread : readCommandLine texts = .run command a)
  (hcommand : command.takesFiles = true)
include hread hcommand

/-- A run that fails is one of an action that stops.  The fault is not told
if it is a text without octets. -/
lemma exists_of_failed_run :
    (runCommandLine s t texts = .finished 2 c →
      ∃ f last, (command.action s a).result { tree := t } = (.error f, last)
        ∧ f ≠ .unencodable ∧ c.tree = last.tree)
    ∧ ∀ f, runCommandLine s t texts = .broken f c →
      (command.action s a).result { tree := t } = (.error f, c) := by
  have hof : runCommandLine s t texts
      = Outcome.ofAction (command.action s a) t := by
    rw [runCommandLine, hread]
  rw [hof]
  -- a run that ends well has another code than 2
  have hcodes : ∀ exit last,
      (command.action s a).result { tree := t } = (.ok exit, last) →
        exit ≠ 2 := by
    intro exit last h
    obtain ⟨settings, hs, text, due, hruns⟩ := exists_runsThrough hcommand h
    have hexit := hruns.exit_iff.2
    omega
  exact exists_of_ofAction hcodes

/-- A run that fails at a text without octets has emptied one file at most,
and all others are as they were. -/
theorem files_of_unencodable_run
    (hrun : runCommandLine s t texts = .broken .unencodable c) :
    SameFiles t c.tree ∨ ∃ p, Emptied t c.tree p := by
  have hfailed := @exists_of_failed_run s a t c texts command hread hcommand
  rcases cases_of_action_error hcommand (hfailed.2 _ hrun) with
    hleft | ⟨hf, -⟩
  · exact hleft.imp_right (·.2)
  · exact absurd rfl hf

end Runs

/-! ### A folder in the way -/

end HeaderBinding
