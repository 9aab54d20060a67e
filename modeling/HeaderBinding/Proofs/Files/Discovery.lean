/-
Which headers are found in a bundle.

* `FileTree.IsSound`: a tree in which every place stands once, in folders
  that are there; `IsSound.write`: it stays so where a file is written;
* `FileTree.SliceRow`: the slices of a bundle in order, and
  `sliceRow_of_sliceNames?`, `sliceNames?_eq`: these are what is looked at;
* `FileTree.IsHeadersFolder`, `headersFolder?_eq_some_iff`: the folder that
  is chosen for the headers of a slice;
* `FileTree.HeadersOf`, `headersOf_sliceHeaders`: the headers of a slice;
* `FileTree.FirstHeaders`, `firstHeaders_find?`: the headers of the first
  slice that has any;
* `bundleHeaders_of_sliceRow`: where no slice is asked for, the headers of
  a bundle are those of the first slice with any, and there is a fault
  exactly if the bundle is no folder or has no slices.
-/
import Mathlib.Data.List.Lex
import Mathlib.Data.List.Nodup
import Mathlib.Data.List.Sort
import Mathlib.Data.String.Basic
import HeaderBinding.Proofs.Files.Tree

namespace HeaderBinding

/-! ### Order -/

/-- A row in which nothing occurs twice is in strict order when it is
sorted. -/
lemma pairwise_lt_mergeSort {α : Type} [LinearOrder α] {le : α → α → Bool}
    (hle : ∀ a b, le a b = true ↔ a ≤ b) {l : List α} (hl : l.Nodup) :
    (l.mergeSort le).Pairwise (· < ·) := by
  have hsorted : (l.mergeSort le).Pairwise fun a b => le a b = true := by
    refine List.pairwise_mergeSort (fun a b c hab hbc => ?_)
      (fun a b => ?_) l
    · rw [hle] at hab hbc ⊢
      exact hab.trans hbc
    · rw [Bool.or_eq_true, hle, hle]
      exact le_total a b
  have hnodup : (l.mergeSort le).Pairwise (· ≠ ·) :=
    (List.mergeSort_perm l le).nodup_iff.mpr hl
  refine (hsorted.and hnodup).imp fun h => ?_
  exact lt_of_le_of_ne ((hle _ _).mp h.1) h.2

/-- Two rows in strict order are the same if they have the same members. -/
lemma eq_of_pairwise_lt {α : Type} [LinearOrder α] {l l' : List α}
    (hl : l.Pairwise (· < ·)) (hl' : l'.Pairwise (· < ·))
    (h : ∀ a, a ∈ l ↔ a ∈ l') : l = l' := by
  refine List.Perm.eq_of_pairwise
    (fun a b _ _ hab hba => absurd hba hab.not_gt) hl hl' ?_
  exact (List.perm_ext_iff_of_nodup (hl.imp ne_of_lt)
    (hl'.imp ne_of_lt)).mpr h

/-- A row in strict order is what any row of the same members is sorted
to. -/
lemma mergeSort_eq_of_perm {α : Type} [LinearOrder α] {le : α → α → Bool}
    (hle : ∀ a b, le a b = true ↔ a ≤ b) {l l' : List α}
    (hl' : l'.Pairwise (· < ·)) (h : l.Perm l') : l.mergeSort le = l' :=
  eq_of_pairwise_lt
    (pairwise_lt_mergeSort hle (h.nodup_iff.mpr (hl'.imp ne_of_lt))) hl'
    fun a => by rw [List.mem_mergeSort, h.mem_iff]

lemma nameBefore_iff (a b : String) : nameBefore a b = true ↔ a ≤ b := by
  rw [nameBefore, decide_eq_true_eq]

/-- Rows of names are ordered name by name. -/
lemma namesBefore_iff (p q : List String) :
    namesBefore p q = true ↔ p ≤ q := by
  rw [← not_lt]
  induction p generalizing q with
  | nil => simp [namesBefore]
  | cons a p ih =>
      cases q with
      | nil => simp [namesBefore]
      | cons b q =>
          rw [namesBefore, List.cons_lt_cons_iff]
          split
          · rename_i hab
            rw [ih, hab]
            simp
          · rename_i hab
            rw [nameBefore_iff, ← not_lt]
            simp [Ne.symm hab]

namespace FileTree

variable {t : FileTree} {p q bundle slice folder : Path} {name : String}

/-! ### Sound trees -/

/-- Every place stands once in the tree, in folders that are there. -/
structure IsSound (t : FileTree) : Prop where
  grounded : t.IsGrounded
  distinct : (t.entries.map (·.1)).Nodup

lemma mem_map_putField {κ α : Type} [BEq κ] [LawfulBEq κ] {key other : κ}
    {value : α} {fs : List (κ × α)} :
    other ∈ (putField key value fs).map (·.1)
      ↔ other = key ∨ other ∈ fs.map (·.1) := by
  induction fs with
  | nil => simp [putField]
  | cons f fs ih =>
      rw [putField]
      split
      · rename_i hkey
        rw [beq_iff_eq] at hkey
        simp [hkey]
      · rw [List.map_cons, List.mem_cons, ih, List.map_cons, List.mem_cons]
        tauto

lemma nodup_map_putField {κ α : Type} [BEq κ] [LawfulBEq κ] {key : κ}
    {value : α} {fs : List (κ × α)} (h : (fs.map (·.1)).Nodup) :
    ((putField key value fs).map (·.1)).Nodup := by
  induction fs with
  | nil => simp [putField]
  | cons f fs ih =>
      rw [List.map_cons, List.nodup_cons] at h
      rw [putField]
      split
      · rename_i hkey
        rw [beq_iff_eq] at hkey
        rw [List.map_cons, List.nodup_cons, ← hkey]
        exact h
      · rename_i hkey
        rw [beq_iff_eq] at hkey
        rw [List.map_cons, List.nodup_cons, mem_map_putField]
        exact ⟨not_or.mpr ⟨hkey, h.1⟩, ih h.2⟩

lemma nodup_addFolder {t : FileTree} (h : (t.entries.map (·.1)).Nodup)
    (p : Path) : ((t.addFolder p).entries.map (·.1)).Nodup := by
  rw [addFolder]
  split
  · exact h
  · exact nodup_map_putField h

lemma nodup_foldl_addFolder {t : FileTree}
    (h : (t.entries.map (·.1)).Nodup) (ps : List Path) :
    ((ps.foldl addFolder t).entries.map (·.1)).Nodup := by
  induction ps generalizing t with
  | nil => exact h
  | cons p ps ih => exact ih (nodup_addFolder h p)

/-- A tree stays sound where a file is written. -/
theorem IsSound.write {t' : FileTree} (ht : t.IsSound)
    {octets : List UInt8} (hp : p ≠ []) (hfolder : t.isFolder p = false)
    (h : t.write p octets = (t', none)) : t'.IsSound := by
  refine ⟨ht.grounded.write hp hfolder h, ?_⟩
  obtain ⟨-, -, -, rfl⟩ := of_write_eq_none h
  exact nodup_map_putField (nodup_foldl_addFolder ht.distinct _)

/-- What stands at a place of a sound tree. -/
lemma IsSound.entry?_eq_some_iff (ht : t.IsSound) (hp : p ≠ [])
    {e : FileEntry} : t.entry? p = some e ↔ (p, e) ∈ t.entries := by
  rw [FileTree.entry?, if_neg (by simpa using hp)]
  constructor
  · intro h
    obtain ⟨before, after, hentries, -⟩ := List.lookup_eq_some_iff.mp h
    rw [hentries]
    exact List.mem_append_right before List.mem_cons_self
  · intro h
    obtain ⟨before, after, hentries⟩ := List.append_of_mem h
    refine List.lookup_eq_some_iff.mpr ⟨before, after, hentries, ?_⟩
    have hdistinct := ht.distinct
    rw [hentries, List.map_append, List.map_cons,
      List.nodup_append] at hdistinct
    intro f hf
    have hne := hdistinct.2.2 f.1 (List.mem_map_of_mem hf) p
      List.mem_cons_self
    simpa using Ne.symm hne

/-- The names in a folder are those of what stands there. -/
lemma mem_names_iff : name ∈ t.names p ↔ t.has (p ++ [name]) = true := by
  rw [names, List.mem_filterMap, has, entry?, if_neg (by simp),
    List.lookup_isSome_iff]
  refine exists_congr fun e => and_congr_right fun _ => ?_
  rw [beq_iff_eq, eq_comm, ← List.isPrefixOf?_eq_some_iff_append_eq]
  split
  · rename_i other hother
    rw [hother, Option.some.injEq, Option.some.injEq, List.cons.injEq,
      eq_comm]
    exact (and_iff_left rfl).symm
  · rename_i hother
    exact iff_of_false (fun h => by cases h) fun h => hother name h

/-- No name stands twice in a folder. -/
lemma IsSound.nodup_names (ht : t.IsSound) (p : Path) :
    (t.names p).Nodup := by
  rw [names, List.Nodup, List.pairwise_filterMap]
  refine (List.pairwise_map.mp ht.distinct).imp ?_
  rintro e e' hne name hname other hother rfl
  split at hname
  · rename_i hplace
    split at hother
    · -- both entries would stand at the place of the name
      rename_i hplace'
      rw [List.isPrefixOf?_eq_some_iff_append_eq] at hplace hplace'
      refine hne ?_
      rw [← hplace, ← hplace', Option.some.inj hname,
        Option.some.inj hother]
    · cases hother
  · cases hname

/-- The files below a folder other than the root. -/
lemma IsSound.mem_filesBelow_iff (ht : t.IsSound) (hne : folder ≠ []) :
    p ∈ t.filesBelow folder ↔ t.isFile p = true ∧ folder <+: p := by
  rw [filesBelow, List.mem_map]
  constructor
  · rintro ⟨e, he, rfl⟩
    obtain ⟨hmem, hbelow⟩ := List.mem_filter.mp he
    obtain ⟨hfile, hbelow⟩ := (Bool.and_eq_true _ _).mp hbelow
    rw [List.isPrefixOf_iff_prefix] at hbelow
    refine ⟨?_, hbelow⟩
    have hp : e.1 ≠ [] := fun hnil =>
      hne (List.prefix_nil.mp (hnil ▸ hbelow))
    rw [isFile, (ht.entry?_eq_some_iff hp).mpr hmem]
    exact hfile
  · rintro ⟨hfile, hbelow⟩
    have hp : p ≠ [] := fun hnil => hne (List.prefix_nil.mp (hnil ▸ hbelow))
    obtain ⟨e, he, hisFile⟩ := (Option.any_eq_true _ _).mp hfile
    refine ⟨(p, e), List.mem_filter.mpr
      ⟨(ht.entry?_eq_some_iff hp).mp he, ?_⟩, rfl⟩
    rw [Bool.and_eq_true, List.isPrefixOf_iff_prefix]
    exact ⟨hisFile, hbelow⟩

lemma IsSound.nodup_filesBelow (ht : t.IsSound) (p : Path) :
    (t.filesBelow p).Nodup :=
  ht.distinct.sublist (List.filter_sublist.map _)

/-! ### Slices -/

/-- The slices of a bundle in order: the folders in it whose names start
neither with a dot nor with an underscore. -/
structure SliceRow (t : FileTree) (bundle : Path) (slices : List String) :
    Prop where
  sorted : slices.Pairwise (· < ·)
  mem_iff : ∀ name, name ∈ slices ↔ t.isFolder (bundle ++ [name]) = true
    ∧ ∀ c ∈ name.toList.head?, c ≠ '.' ∧ c ≠ '_'

lemma has_of_isFolder (h : t.isFolder p = true) : t.has p = true := by
  rw [isFolder, decide_eq_true_eq] at h
  rw [has, h]
  rfl

lemma isHiddenName_eq_false_iff :
    isHiddenName name = false ↔ ∀ c ∈ name.toList.head?, c ≠ '.' ∧ c ≠ '_' := by
  rw [isHiddenName]
  cases name.toList.head? <;> simp

/-- The slices that are looked at are those of the bundle. -/
lemma IsSound.sliceRow_of_sliceNames? (ht : t.IsSound) {slices : List String}
    (h : sliceNames? t bundle = some slices) : t.SliceRow bundle slices := by
  rw [sliceNames?] at h
  split at h
  · rw [← Option.some.inj h]
    refine ⟨pairwise_lt_mergeSort nameBefore_iff
      ((ht.nodup_names bundle).filter _), fun name => ?_⟩
    rw [List.mem_mergeSort, List.mem_filter, mem_names_iff,
      Bool.and_eq_true, Bool.not_eq_true', isHiddenName_eq_false_iff]
    exact ⟨fun h => h.2.symm, fun h => ⟨has_of_isFolder h.1, h.symm⟩⟩
  · cases h

/-- A bundle that is a folder is looked at for just its slices. -/
lemma IsSound.sliceNames?_eq (ht : t.IsSound) {slices : List String}
    (hslices : t.SliceRow bundle slices) (hbundle : t.isFolder bundle = true) :
    sliceNames? t bundle = some slices := by
  cases h : sliceNames? t bundle with
  | none =>
      rw [sliceNames?, if_pos hbundle] at h
      cases h
  | some found =>
      have hfound := ht.sliceRow_of_sliceNames? h
      rw [eq_of_pairwise_lt hfound.sorted hslices.sorted fun name => by
        rw [hfound.mem_iff, hslices.mem_iff]]

/-! ### The headers of a slice -/

/-- The name of a framework. -/
def IsFrameworkName (name : String) : Prop :=
  ".framework".toList <:+ name.toList

/-- The folder of the headers of a slice: its own or, if it has none, that
of its first framework that has one. -/
structure IsHeadersFolder (t : FileTree) (slice folder : Path) : Prop where
  there : t.isFolder folder = true
  chosen : folder = slice ++ [headersName]
    ∨ t.isFolder (slice ++ [headersName]) = false
      ∧ ∃ name, folder = slice ++ [name, headersName] ∧ IsFrameworkName name
        ∧ ∀ other, IsFrameworkName other →
          t.isFolder (slice ++ [other, headersName]) = true → name ≤ other

/-- The headers of a slice: the files in the folder that is chosen, at any
depth, whose names are those of headers, in strict order. -/
structure HeadersOf (t : FileTree) (slice : Path) (paths : List Path) :
    Prop where
  sorted : paths.Pairwise (· < ·)
  mem_iff : ∀ p, p ∈ paths ↔ ∃ folder, t.IsHeadersFolder slice folder
    ∧ folder <+: p ∧ t.isFile p = true ∧ ".h".toList <:+ p.name.toList

/-- The frameworks of a slice with headers. -/
lemma IsSound.mem_frameworkNames_iff (ht : t.IsSound) :
    name ∈ frameworkNames t slice ↔ IsFrameworkName name
      ∧ t.isFolder (slice ++ [name, headersName]) = true := by
  rw [frameworkNames, List.mem_mergeSort, List.mem_filter, mem_names_iff,
    Bool.and_eq_true, List.isSuffixOf_iff_suffix, IsFrameworkName]
  refine and_iff_right_of_imp fun h => has_of_isFolder ?_
  refine ht.grounded.isFolder_of_has (has_of_isFolder h.2) _ ?_
  refine List.mem_map.mpr ⟨slice.length + 1, ?_, ?_⟩
  · rw [List.mem_range, List.length_append]
    simp
  · rw [List.take_append]
    simp

lemma IsSound.pairwise_frameworkNames (ht : t.IsSound) (slice : Path) :
    (frameworkNames t slice).Pairwise (· < ·) :=
  pairwise_lt_mergeSort nameBefore_iff ((ht.nodup_names slice).filter _)

/-- The first framework with headers is the least. -/
lemma IsSound.head?_frameworkNames_iff (ht : t.IsSound) :
    (frameworkNames t slice).head? = some name ↔ IsFrameworkName name
      ∧ t.isFolder (slice ++ [name, headersName]) = true
      ∧ ∀ other, IsFrameworkName other →
        t.isFolder (slice ++ [other, headersName]) = true → name ≤ other := by
  have hsorted := ht.pairwise_frameworkNames slice
  have hmem : ∀ name, name ∈ frameworkNames t slice ↔ IsFrameworkName name
      ∧ t.isFolder (slice ++ [name, headersName]) = true :=
    fun _ => ht.mem_frameworkNames_iff
  constructor
  · intro h
    obtain ⟨others, hnames⟩ := List.head?_eq_some_iff.mp h
    rw [hnames] at hsorted hmem
    have hname := (hmem name).mp List.mem_cons_self
    refine ⟨hname.1, hname.2, fun other hother hheaders => ?_⟩
    rcases List.mem_cons.mp ((hmem other).mpr ⟨hother, hheaders⟩) with
      rfl | hother
    · exact le_rfl
    · exact (List.rel_of_pairwise_cons hsorted hother).le
  · rintro ⟨hname, hheaders, hleast⟩
    have hmemName := (hmem name).mpr ⟨hname, hheaders⟩
    cases hnames : frameworkNames t slice with
    | nil =>
        rw [hnames] at hmemName
        cases hmemName
    | cons first others =>
        rw [hnames] at hsorted hmem hmemName
        have hfirst := (hmem first).mp List.mem_cons_self
        rcases List.mem_cons.mp hmemName with rfl | hothers
        · rfl
        · have hlt := List.rel_of_pairwise_cons hsorted hothers
          exact absurd (hleast first hfirst.1 hfirst.2) hlt.not_ge

/-- The folder that is chosen for the headers of a slice. -/
lemma IsSound.headersFolder?_eq_some_iff (ht : t.IsSound) :
    headersFolder? t slice = some folder
      ↔ t.IsHeadersFolder slice folder := by
  rw [headersFolder?]
  split
  · rename_i hown
    rw [Option.some.injEq]
    constructor
    · rintro rfl
      exact ⟨hown, .inl rfl⟩
    · rintro ⟨-, rfl | ⟨hnone, -⟩⟩
      · rfl
      · rw [hown] at hnone
        cases hnone
  · rename_i hown
    rw [Option.map_eq_some_iff]
    constructor
    · rintro ⟨name, hname, rfl⟩
      obtain ⟨hframework, hheaders, hleast⟩ :=
        ht.head?_frameworkNames_iff.mp hname
      exact ⟨hheaders, .inr ⟨Bool.eq_false_iff.mpr hown, name, rfl,
        hframework, hleast⟩⟩
    · rintro ⟨hthere, rfl | ⟨-, name, rfl, hframework, hleast⟩⟩
      · exact absurd hthere hown
      · exact ⟨name, ht.head?_frameworkNames_iff.mpr
          ⟨hframework, hthere, hleast⟩, rfl⟩

/-- The headers that are found in a slice are those of the slice. -/
lemma IsSound.headersOf_sliceHeaders (ht : t.IsSound) (slice : Path) :
    t.HeadersOf slice (sliceHeaders t slice) := by
  rw [sliceHeaders]
  split
  · rename_i folder hfolder
    have hchosen := ht.headersFolder?_eq_some_iff.mp hfolder
    have hne : folder ≠ [] := by
      rintro rfl
      obtain h | ⟨-, name, h, -⟩ := hchosen.chosen
      all_goals simp at h
    refine ⟨pairwise_lt_mergeSort namesBefore_iff
      ((ht.nodup_filesBelow folder).filter _), fun p => ?_⟩
    rw [List.mem_mergeSort, List.mem_filter, ht.mem_filesBelow_iff hne,
      isHeaderName, List.isSuffixOf_iff_suffix]
    constructor
    · rintro ⟨⟨hfile, hbelow⟩, hname⟩
      exact ⟨folder, hchosen, hbelow, hfile, hname⟩
    · rintro ⟨other, hother, hbelow, hfile, hname⟩
      have hsame := ht.headersFolder?_eq_some_iff.mpr hother
      rw [hfolder, Option.some.injEq] at hsame
      exact ⟨⟨hfile, hsame ▸ hbelow⟩, hname⟩
  · rename_i hnone
    refine ⟨List.Pairwise.nil, fun p => ?_⟩
    refine iff_of_false List.not_mem_nil ?_
    rintro ⟨folder, hfolder, -⟩
    rw [ht.headersFolder?_eq_some_iff.mpr hfolder] at hnone
    cases hnone

/-! ### The headers of a bundle -/

/-- A slice is made for "darwin" if its name has "macos" in it, and for "ios"
if it has "ios" in it and not "simulator", whatever the case of the letters;
none is made for another platform. -/
lemma isPlatformSlice_iff {name platform : String} :
    isPlatformSlice name platform = true
      ↔ platform = "darwin" ∧ "macos".toList <:+: (lowerText name).toList
        ∨ platform = "ios" ∧ "ios".toList <:+: (lowerText name).toList
          ∧ ¬ "simulator".toList <:+: (lowerText name).toList := by
  simp only [← hasPiece_iff]
  rw [isPlatformSlice]
  split
  · rename_i hdarwin
    subst hdarwin
    simp [occursIn]
  split
  · rename_i hios
    subst hios
    simp [occursIn]
  · rename_i hdarwin hios
    exact iff_of_false Bool.false_ne_true
      (not_or.mpr ⟨mt And.left hdarwin, mt And.left hios⟩)

/-- The slice that is tried before all: the first that is made for the
platform or, if none is, the first. -/
def IsPreferred (platform : String) (slices : List String) (first : String) :
    Prop :=
  (∃ before after, slices = before ++ first :: after
    ∧ isPlatformSlice first platform = true
    ∧ ∀ other ∈ before, isPlatformSlice other platform = false)
  ∨ (∀ other ∈ slices, isPlatformSlice other platform = false)
    ∧ slices.head? = some first

/-- The headers of the first of the slices that has any. -/
inductive FirstHeaders (t : FileTree) (bundle : Path) :
    List String → List Path → Prop
  | none : FirstHeaders t bundle [] []
  | here {name : String} {names : List String} {paths : List Path} :
    t.HeadersOf (bundle ++ [name]) paths → paths ≠ [] →
    FirstHeaders t bundle (name :: names) paths
  | later {name : String} {names : List String} {paths : List Path} :
    t.HeadersOf (bundle ++ [name]) [] → FirstHeaders t bundle names paths →
    FirstHeaders t bundle (name :: names) paths

/-- There are no first headers only if there are none at all. -/
lemma FirstHeaders.headersOf_nil {names : List String} {paths : List Path}
    (h : t.FirstHeaders bundle names paths) (hpaths : paths = []) :
    ∀ name ∈ names, t.HeadersOf (bundle ++ [name]) [] := by
  induction h with
  | none => exact List.forall_mem_nil _
  | here _ hne => exact absurd hpaths hne
  | later hempty _ ih => exact List.forall_mem_cons.mpr ⟨hempty, ih hpaths⟩

/-- Slice after slice, the first headers are looked for. -/
lemma IsSound.firstHeaders_find? (ht : t.IsSound) (bundle : Path)
    (names : List String) :
    t.FirstHeaders bundle names
      (((names.map fun name => sliceHeaders t (bundle ++ [name])).find?
        (!·.isEmpty)).getD []) := by
  induction names with
  | nil => exact .none
  | cons name names ih =>
      have hname := ht.headersOf_sliceHeaders (bundle ++ [name])
      rw [List.map_cons, List.find?_cons]
      split
      · rename_i hsome
        refine .here hname fun hempty => ?_
        rw [Option.getD_some] at hempty
        rw [hempty] at hsome
        cases hsome
      · rename_i hnone
        rw [Bool.not_eq_false', List.isEmpty_iff] at hnone
        exact .later (hnone ▸ hname) ih

/-- The preferred slice is tried before all. -/
lemma triedSlices_eq {slices : List String} (hne : slices ≠ [])
    (platform : String) :
    ∃ first, IsPreferred platform slices first
      ∧ triedSlices slices platform = first :: slices := by
  rw [triedSlices]
  cases hfind : slices.find? (isPlatformSlice · platform) with
  | some first =>
      obtain ⟨hfirst, before, after, hslices, hbefore⟩ :=
        List.find?_eq_some_iff_append.mp hfind
      refine ⟨first, .inl ⟨before, after, hslices, hfirst, ?_⟩, rfl⟩
      exact fun other hother => by simpa using hbefore other hother
  | none =>
      refine ⟨slices.head hne, .inr ⟨?_, List.head?_eq_some_head hne⟩, ?_⟩
      · simpa using List.find?_eq_none.mp hfind
      · rw [Option.orElse_eq_or, Option.none_or, List.head?_eq_some_head hne]
        rfl

/-- **Headers of a bundle.**  Where no slice is asked for, there is a fault
exactly if the bundle is no folder or has no slices.  Otherwise the headers
are those of the first slice that has any, where the preferred one comes
before all; so there are none only if no slice has any. -/
theorem bundleHeaders_of_sliceRow (ht : t.IsSound) {slices : List String}
    (hslices : t.SliceRow bundle slices) (platform : String) :
    (∀ fault, bundleHeaders t bundle none platform = .error fault ↔
      fault = .noBundle ∧ t.isFolder bundle = false
      ∨ fault = .noSlices ∧ t.isFolder bundle = true ∧ slices = [])
    ∧ ∀ paths, bundleHeaders t bundle none platform = .ok paths →
      (∃ first, IsPreferred platform slices first
        ∧ t.FirstHeaders bundle (first :: slices) paths)
      ∧ (paths = [] → ∀ name ∈ slices, t.HeadersOf (bundle ++ [name]) []) := by
  cases hbundle : t.isFolder bundle with
  | false =>
      have hnone : sliceNames? t bundle = none := by
        rw [sliceNames?, hbundle, if_neg Bool.false_ne_true]
      simp [bundleHeaders, hnone, eq_comm]
  | true =>
      rw [bundleHeaders, ht.sliceNames?_eq hslices hbundle]
      cases slices with
      | nil => simp [eq_comm]
      | cons head rest =>
          obtain ⟨first, hfirst, htried⟩ :=
            triedSlices_eq (List.cons_ne_nil head rest) platform
          have hfound := ht.firstHeaders_find? bundle (first :: head :: rest)
          refine ⟨fun fault => by simp, fun paths hpaths => ?_⟩
          dsimp only at hpaths
          rw [htried, Except.ok.injEq] at hpaths
          rw [hpaths] at hfound
          exact ⟨⟨first, hfirst, hfound⟩, fun hempty =>
            (List.forall_mem_cons.mp (hfound.headersOf_nil hempty)).2⟩

/-- A bundle with three slices.  That for "ios" has no headers. -/
def kitTree : FileTree :=
  ⟨[(["Kit"], .folder),
    (["Kit", "_CodeSignature"], .folder),
    (["Kit", "macos-arm64"], .folder),
    (["Kit", "macos-arm64", "B.framework"], .folder),
    (["Kit", "macos-arm64", "B.framework", "Headers"], .folder),
    (["Kit", "macos-arm64", "B.framework", "Headers", "b.h"], .file []),
    (["Kit", "macos-arm64", "B.framework", "Headers", "a.h"], .file []),
    (["Kit", "macos-arm64", "A.framework"], .folder),
    (["Kit", "appletv"], .folder),
    (["Kit", "appletv", "Headers"], .folder),
    (["Kit", "appletv", "Headers", "c.h"], .file []),
    (["Kit", "ios-arm64"], .folder),
    (["Kit", "ios-arm64", "Headers"], .folder)]⟩

/-- Its slices in order. -/
def kitSlices : List String :=
  ["appletv", "ios-arm64", "macos-arm64"]

/-- The headers of the slice for "darwin", in its second framework. -/
def darwinPaths : List Path :=
  [["Kit", "macos-arm64", "B.framework", "Headers", "a.h"],
    ["Kit", "macos-arm64", "B.framework", "Headers", "b.h"]]

/-- For "darwin" the headers of the last slice are found, although the first
has some.  For "ios" those of the first are found, as the slice that is made
for it has none. -/
theorem bundleHeaders_of_sliceRow_kit :
    kitTree.IsSound
      ∧ kitTree.SliceRow ["Kit"] kitSlices
      ∧ bundleHeaders kitTree ["Kit"] none "darwin" = .ok darwinPaths
      ∧ (∃ first, IsPreferred "darwin" kitSlices first
        ∧ kitTree.FirstHeaders ["Kit"] (first :: kitSlices) darwinPaths)
      ∧ bundleHeaders kitTree ["Kit"] none "ios"
        = .ok [["Kit", "appletv", "Headers", "c.h"]]
      ∧ ∃ first, IsPreferred "ios" kitSlices first
        ∧ kitTree.FirstHeaders ["Kit"] (first :: kitSlices)
          [["Kit", "appletv", "Headers", "c.h"]] := by
  have hsound : kitTree.IsSound :=
    ⟨by decide +kernel, by decide +kernel⟩
  have hnames : sliceNames? kitTree ["Kit"] = some kitSlices := by
    rw [sliceNames?, if_pos (by decide +kernel)]
    exact congrArg some (mergeSort_eq_of_perm nameBefore_iff
      (by decide +kernel) (by decide +kernel))
  have hslices := hsound.sliceRow_of_sliceNames? hnames
  have hios : sliceHeaders kitTree ["Kit", "ios-arm64"] = [] := by
    rw [sliceHeaders, headersFolder?, if_pos (by decide +kernel)]
    exact mergeSort_eq_of_perm namesBefore_iff .nil (by decide +kernel)
  have happletv : sliceHeaders kitTree ["Kit", "appletv"]
      = [["Kit", "appletv", "Headers", "c.h"]] := by
    rw [sliceHeaders, headersFolder?, if_pos (by decide +kernel)]
    exact mergeSort_eq_of_perm namesBefore_iff (by decide +kernel)
      (by decide +kernel)
  have hmacos : sliceHeaders kitTree ["Kit", "macos-arm64"]
      = darwinPaths := by
    have hframework : frameworkNames kitTree ["Kit", "macos-arm64"]
        = ["B.framework"] :=
      mergeSort_eq_of_perm nameBefore_iff (by decide +kernel)
        (by decide +kernel)
    rw [sliceHeaders, headersFolder?, if_neg (by decide +kernel), hframework]
    exact mergeSort_eq_of_perm namesBefore_iff (by decide +kernel)
      (by decide +kernel)
  have hbundle : ∀ platform, bundleHeaders kitTree ["Kit"] none platform
      = .ok ((((triedSlices kitSlices platform).map fun name =>
        sliceHeaders kitTree ["Kit", name]).find? (!·.isEmpty)).getD []) := by
    intro platform
    rw [bundleHeaders, hnames]
    rfl
  have hdarwin : bundleHeaders kitTree ["Kit"] none "darwin"
      = .ok darwinPaths := by
    have htried : triedSlices kitSlices "darwin"
        = "macos-arm64" :: kitSlices := by
      decide +kernel
    rw [hbundle, htried]
    simp [hmacos, darwinPaths]
  have hfallback : bundleHeaders kitTree ["Kit"] none "ios"
      = .ok [["Kit", "appletv", "Headers", "c.h"]] := by
    have htried : triedSlices kitSlices "ios" = "ios-arm64" :: kitSlices := by
      decide +kernel
    rw [hbundle, htried]
    simp [hios, happletv, kitSlices]
  exact ⟨hsound, hslices, hdarwin,
    ((bundleHeaders_of_sliceRow hsound hslices "darwin").2 _ hdarwin).1,
    hfallback,
    ((bundleHeaders_of_sliceRow hsound hslices "ios").2 _ hfallback).1⟩

end FileTree

end HeaderBinding
