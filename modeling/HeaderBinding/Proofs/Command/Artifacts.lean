/-
Files that are brought up to date one after the other.

* `Artifact`, `writeAll`: some places with the texts that are due there;
* `Written`, `written_of_writeArtifact`: what one file changes;
* `lastText`: of several texts for one place the last one stays;
* `WrittenAll`, `writtenAll_of_writeAll`: what some files change;
* `WrittenAll.forall_text_iff`: when every file has its text after that;
* `result_writeAll_check`: files that are only checked are left alone.
-/
import HeaderBinding.Proofs.Command.Action
import HeaderBinding.Proofs.Diff.Same

namespace HeaderBinding

open HeaderBinding.Action FileTree

/-- A place, and the text that is due there. -/
structure Artifact where
  place : Path
  text : String
deriving DecidableEq, Repr

/-- Some files are brought up to date, or only compared. -/
def writeAll (label : String) (a : Arguments) (xs : List Artifact) :
    Action (List Bool) :=
  xs.mapM fun x => writeArtifact label a x.place x.text

lemma writeAll_cons (label : String) (a : Arguments) (x : Artifact)
    (xs : List Artifact) :
    writeAll label a (x :: xs) = do
      let drift ← writeArtifact label a x.place x.text
      let drifts ← writeAll label a xs
      return drift :: drifts :=
  List.mapM_cons ..

variable {label : String} {a : Arguments} {c c' mid : Console} {x : Artifact}
  {xs : List Artifact}

/-! ### One file -/

/-- A step reads the old text, stores the new one if it has to, and tells
about both. -/
lemma result_writeArtifact_eq_ok_iff {p : Path} {new : String}
    {drift : Bool} :
    (writeArtifact label a p new).result c = (.ok drift, c')
      ↔ ∃ old mid, (existingText p).result c = (.ok old, c)
        ∧ (if artifactStatus a old new = .updated then
            (storeText p new).result c = (.ok (), mid) else mid = c)
        ∧ c' = mid.print (lineText (artifactReport label a p old new)) .out
        ∧ drift = decide (artifactStatus a old new = .drift) := by
  have htail : ∀ (old : String) (mid : Console),
      (do
        (artifactReport label a p old new).forM (say .out)
        return decide (artifactStatus a old new = .drift) :
        Action Bool).result mid
      = (.ok (decide (artifactStatus a old new = .drift)),
        mid.print (lineText (artifactReport label a p old new)) .out) := by
    intro old mid
    rw [result_bind_of_ok (result_forM_say ..), result_pure]
  constructor
  · intro h
    obtain ⟨old, mid, hold, hrest⟩ := exists_of_result_bind h
    obtain ⟨-, rfl, -⟩ := result_existingText_eq_ok_iff.mp hold
    dsimp only at hrest
    split at hrest
    · rename_i hupdated
      obtain ⟨u, last, hstore, hrest⟩ := exists_of_result_bind hrest
      rw [htail, Prod.mk.injEq, Except.ok.injEq] at hrest
      exact ⟨old, last, hold, by rw [if_pos hupdated]; exact hstore,
        hrest.2.symm, hrest.1.symm⟩
    · rename_i hupdated
      rw [htail, Prod.mk.injEq, Except.ok.injEq] at hrest
      exact ⟨old, mid, hold, by rw [if_neg hupdated], hrest.2.symm,
        hrest.1.symm⟩
  · rintro ⟨old, mid, hold, hstore, rfl, rfl⟩
    rw [writeArtifact, result_bind_of_ok hold]
    dsimp only
    split
    · rename_i hupdated
      rw [if_pos hupdated] at hstore
      rw [result_bind_of_ok hstore, htail]
    · rename_i hupdated
      rw [if_neg hupdated] at hstore
      rw [htail, hstore]

/-- A text without octets is refused for every file. -/
lemma result_refuseArtifact_ne_ok {p : Path} {drift : Bool} :
    (refuseArtifact label a p).result c ≠ (.ok drift, c') := by
  intro h
  obtain ⟨_, mid, -, h⟩ := exists_of_result_bind h
  dsimp only at h
  split at h
  all_goals
    obtain ⟨_, last, -, h⟩ := exists_of_result_bind h
    cases h

/-- What a file leaves that is brought up to date: its text can be read
back, but for its carriage returns, and nothing else has changed but
missing folders on the way to it. -/
structure Written (c c' : Console) (x : Artifact) : Prop where
  short : x.place.IsShort
  noFolder : c.tree.isFolder x.place = false
  text : ∀ p, c'.tree.textAt? p
    = if x.place = p then some (unified x.text) else c.tree.textAt? p
  changed : ChangedOnly
    (fun q => q = x.place ∨ q <+: x.place.folder ∧ c.tree.has q = false)
    c.tree c'.tree
  grounded : c'.tree.IsGrounded
  err : c'.err = c.err

/-- A step that does not only check brings its file up to date. -/
lemma written_of_writeArtifact (hcheck : a.check = false)
    (hdry : a.dryRun = false) (hground : c.tree.IsGrounded)
    (hplace : x.place ≠ []) (htext : x.text ≠ "") {drift : Bool}
    (h : (writeArtifact label a x.place x.text).result c
      = (.ok drift, c')) :
    Written c c' x := by
  obtain ⟨old, mid, hold, hstore, rfl, rfl⟩ :=
    result_writeArtifact_eq_ok_iff.mp h
  obtain ⟨hlong, -, hold⟩ := result_existingText_eq_ok_iff.mp hold
  have hstatus : artifactStatus a old x.text
      = if old = x.text then .unchanged else .updated := by
    rw [artifactStatus, Arguments.staleStatus, hcheck, hdry]
    rfl
  have hfolder : c.tree.isFolder x.place = false := by
    rw [Bool.eq_false_iff]
    intro hentry
    rw [textAt?_of_isFolder hentry] at hold
    rw [isFolder, decide_eq_true_eq] at hentry
    rw [hentry] at hold
    rcases hold with h | ⟨h, -⟩ <;> cases h
  rw [hstatus] at hstore
  by_cases hsame : old = x.text
  · rw [if_pos hsame, if_neg (by decide)] at hstore
    rw [hstore]
    have hread : c.tree.textAt? x.place = some x.text :=
      (hold.resolve_right fun h => htext (hsame ▸ h.2)).trans
        (congrArg some hsame)
    refine ⟨hground.isShort_of_has (has_of_textAt? hread) hlong, hfolder,
      fun p => ?_, .refl _ _, hground, rfl⟩
    split
    · rename_i hp
      rw [← hp, unified_of_textAt? hread]
      exact hread
    · rfl
  · rw [if_neg hsame, if_pos rfl] at hstore
    obtain ⟨hwrite, hmid⟩ := write_of_storeText hstore
    obtain ⟨-, hnames, hname, -⟩ := of_write_eq_none hwrite
    refine ⟨⟨?_, ?_⟩, hfolder, fun p => ?_, changedOnly_write hwrite,
      hground.write hplace hfolder hwrite, ?_⟩
    · rw [isOverlong, Bool.or_eq_false_iff, Bool.not_eq_false'] at hlong
      exact hlong.1
    · rw [← Path.folder_append_name hplace]
      exact List.forall_mem_append.mpr ⟨List.all_eq_true.mp hnames,
        List.forall_mem_singleton.mpr hname⟩
    · split
      · rename_i hp
        rw [← hp]
        exact textAt?_of_write hplace hwrite
      · rename_i hp
        exact textAt?_of_write_of_ne hplace hwrite (Ne.symm hp)
    · rw [hmid]
      rfl

/-- What stands somewhere stays there. -/
lemma Written.has_of_has (h : Written c c' x) {q : Path}
    (hq : c.tree.has q = true) : c'.tree.has q = true := by
  by_cases hplace : x.place = q
  · exact has_of_textAt? ((h.text q).trans (if_pos hplace))
  · rw [has, h.changed.entry?_eq ?_]
    · exact hq
    · rintro (rfl | ⟨-, habsent⟩)
      · exact hplace rfl
      · rw [hq] at habsent
        cases habsent

/-- The lines about a file with some text that is only checked. -/
def checkReport (label : String) (a : Arguments) (t : FileTree)
    (x : Artifact) : List String :=
  artifactReport label a x.place ((t.textAt? x.place).getD "") x.text

/-- A file with some text that is only checked is left alone, and is out of
date just if the text is not the one that is due. -/
lemma result_writeArtifact_check (hcheck : a.check = true)
    (hshort : x.place.IsShort)
    (hsome : (c.tree.textAt? x.place).isSome = true) :
    (writeArtifact label a x.place x.text).result c
      = (.ok (decide (c.tree.textAt? x.place ≠ some x.text)), { c with
          out := c.out ++ lineText (checkReport label a c.tree x) }) := by
  obtain ⟨old, hold⟩ := Option.isSome_iff_exists.mp hsome
  have hstatus : artifactStatus a old x.text
      = if old = x.text then .unchanged else .drift := by
    rw [artifactStatus, Arguments.staleStatus, if_pos hcheck]
  rw [result_writeArtifact_eq_ok_iff, checkReport, hold, Option.getD_some]
  refine ⟨old, c, ?_, ?_, rfl, ?_⟩
  · exact result_existingText_eq_ok_iff.mpr
      ⟨isOverlong_of_isShort hshort _, rfl, .inl hold⟩
  · rw [hstatus, if_neg (by split <;> decide)]
  · rw [hstatus]
    split <;> simp [*]

/-- The line about a file that has its text. -/
def unchangedLine (label : String) (x : Artifact) : String :=
  statusLine label x.place .unchanged

/-- Of a file that has its text no more is told. -/
lemma checkReport_of_textAt? {t : FileTree} (a : Arguments)
    (htext : t.textAt? x.place = some x.text) :
    checkReport label a t x = [unchangedLine label x] := by
  have hstatus : artifactStatus a x.text x.text = .unchanged := if_pos rfl
  rw [checkReport, htext, Option.getD_some, artifactReport, artifactDiff,
    unifiedDiff_self, hstatus]
  simp [unchangedLine]

/-! ### Some files -/

/-- The text that stays at a place: of those that are due there, the
last. -/
def lastText (p : Path) : List Artifact → Option String
  | [] => none
  | x :: xs =>
    (lastText p xs).or (if x.place = p then some x.text else none)

/-- The text that stays is due. -/
lemma exists_of_lastText {p : Path} {text : String}
    (h : lastText p xs = some text) :
    ∃ x ∈ xs, x.place = p ∧ x.text = text := by
  induction xs with
  | nil => cases h
  | cons x xs ih =>
      rw [lastText, Option.or_eq_some_iff] at h
      rcases h with h | ⟨-, h⟩
      · obtain ⟨y, hy, hfound⟩ := ih h
        exact ⟨y, List.mem_cons_of_mem x hy, hfound⟩
      · rw [Option.ite_none_right_eq_some, Option.some.injEq] at h
        exact ⟨x, List.mem_cons_self, h⟩

/-- Where a text is due, one stays. -/
lemma isSome_lastText (hx : x ∈ xs) :
    (lastText x.place xs).isSome = true := by
  induction xs with
  | nil => cases hx
  | cons y ys ih =>
      rw [lastText, Option.isSome_or, Bool.or_eq_true]
      rcases List.mem_cons.mp hx with rfl | hx
      · rw [if_pos rfl]
        exact .inr rfl
      · exact .inl (ih hx)

/-- What some files leave that are brought up to date: at every place the
last text that is due there, but for its carriage returns. -/
structure WrittenAll (c c' : Console) (xs : List Artifact) : Prop where
  short : ∀ x ∈ xs, x.place.IsShort
  noFolder : ∀ x ∈ xs, c.tree.isFolder x.place = false
  text : ∀ p, c'.tree.textAt? p
    = ((lastText p xs).map unified).or (c.tree.textAt? p)
  changed : ChangedOnly
    (fun q => ∃ x ∈ xs, q = x.place
      ∨ q <+: x.place.folder ∧ c.tree.has q = false)
    c.tree c'.tree
  err : c'.err = c.err

/-- One file, and then some more. -/
lemma Written.trans (h : Written c mid x) (hs : WrittenAll mid c' xs) :
    WrittenAll c c' (x :: xs) where
  short := List.forall_mem_cons.mpr ⟨h.short, hs.short⟩
  noFolder := by
    refine List.forall_mem_cons.mpr ⟨h.noFolder, fun y hy => ?_⟩
    rw [Bool.eq_false_iff]
    intro hfolder
    have hkept := h.changed.isFolder h.noFolder hfolder
    rw [hs.noFolder y hy] at hkept
    cases hkept
  text p := by
    rw [hs.text, h.text, lastText]
    cases lastText p xs <;> by_cases hp : x.place = p <;> simp [hp]
  changed := by
    refine (h.changed.mono fun q hq => ⟨x, List.mem_cons_self, hq⟩).trans
      (hs.changed.mono ?_)
    rintro q ⟨y, hy, hq⟩
    refine ⟨y, List.mem_cons_of_mem x hy, hq.imp_right fun hq => ⟨hq.1, ?_⟩⟩
    rw [Bool.eq_false_iff]
    intro hhas
    rw [h.has_of_has hhas] at hq
    cases hq.2
  err := hs.err.trans h.err

/-- A step for every file brings all of them up to date. -/
theorem writtenAll_of_writeAll (hcheck : a.check = false)
    (hdry : a.dryRun = false) (hground : c.tree.IsGrounded)
    (hplaces : ∀ x ∈ xs, x.place ≠ []) (htexts : ∀ x ∈ xs, x.text ≠ "")
    {drifts : List Bool}
    (h : (writeAll label a xs).result c = (.ok drifts, c')) :
    WrittenAll c c' xs := by
  induction xs generalizing c drifts with
  | nil =>
      obtain ⟨-, rfl⟩ := Prod.mk.inj h
      exact ⟨List.forall_mem_nil _, List.forall_mem_nil _, fun _ => rfl,
        .refl _ _, rfl⟩
  | cons x xs ih =>
      rw [List.forall_mem_cons] at hplaces htexts
      rw [writeAll_cons] at h
      obtain ⟨drift, mid, hone, h⟩ := exists_of_result_bind h
      obtain ⟨drifts, last, hrest, h⟩ := exists_of_result_bind h
      obtain ⟨-, rfl⟩ := Prod.mk.inj h
      have hwritten := written_of_writeArtifact hcheck hdry hground
        hplaces.1 htexts.1 hone
      exact hwritten.trans
        (ih hwritten.grounded hplaces.2 htexts.2 hrest)

/-- Every file has its text just if at every place all that is due is the
same, and none of it has a carriage return. -/
theorem WrittenAll.forall_text_iff (h : WrittenAll c c' xs) :
    (∀ x ∈ xs, c'.tree.textAt? x.place = some x.text)
      ↔ (∀ x ∈ xs, ∀ y ∈ xs, x.place = y.place → x.text = y.text)
        ∧ ∀ x ∈ xs, '\r' ∉ x.text.toList := by
  constructor
  · intro hall
    refine ⟨fun x hx y hy hplace => ?_, fun x hx => ?_⟩
    · have hread := hall x hx
      rw [hplace, hall y hy, Option.some.injEq] at hread
      exact hread.symm
    · exact unified_eq_self_iff.mp (unified_of_textAt? (hall x hx))
  · rintro ⟨hsame, hclean⟩ x hx
    obtain ⟨text, htext⟩ := Option.isSome_iff_exists.mp (isSome_lastText hx)
    obtain ⟨y, hy, hplace, rfl⟩ := exists_of_lastText htext
    rw [h.text, htext, Option.map_some, Option.some_or,
      unified_eq_self_iff.mpr (hclean y hy), hsame y hy x hx hplace]

/-- There is a text then where one is due. -/
lemma WrittenAll.isSome_textAt? (h : WrittenAll c c' xs) (hx : x ∈ xs) :
    (c'.tree.textAt? x.place).isSome = true := by
  rw [h.text, Option.isSome_or, Option.isSome_map, isSome_lastText hx,
    Bool.true_or]

/-- Files with some texts that are only checked are left alone, and those
are out of date of which the text is not the one that is due. -/
theorem result_writeAll_check (hcheck : a.check = true)
    (hshort : ∀ x ∈ xs, x.place.IsShort)
    (hsome : ∀ x ∈ xs, (c.tree.textAt? x.place).isSome = true) :
    (writeAll label a xs).result c
      = (.ok (xs.map fun x =>
          decide (c.tree.textAt? x.place ≠ some x.text)), { c with
          out := c.out
            ++ lineText (xs.flatMap (checkReport label a c.tree)) }) := by
  induction xs generalizing c with
  | nil =>
      rw [List.map_nil, List.flatMap_nil, lineText_nil, String.append_empty]
      rfl
  | cons x xs ih =>
      rw [List.forall_mem_cons] at hshort hsome
      have hone : (writeArtifact label a x.place x.text).result c = _ :=
        result_writeArtifact_check hcheck hshort.1 hsome.1
      have hrest := ih (c := { c with
        out := c.out ++ lineText (checkReport label a c.tree x) })
        hshort.2 hsome.2
      rw [writeAll_cons, result_bind_of_ok hone, result_bind_of_ok hrest,
        result_pure, String.append_assoc, ← lineText_append,
        List.flatMap_cons, List.map_cons]

end HeaderBinding
