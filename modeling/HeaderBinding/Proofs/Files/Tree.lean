/-
What writing to a tree of files changes.

* `FileTree.ChangedOnly`: from one tree to another, only certain places
  have changed; `changedOnly_write` says which ones a file changes;
* `FileTree.IsGrounded`: the folders of whatever stands in a tree are
  there; what can be looked up in such a tree has short names
  (`isShort_of_has`), and can be looked up in any tree
  (`isOverlong_of_isShort`);
* `FileTree.textAt?`: the text of a file, as it is read back, and what
  writing changes of it (`textAt?_of_write`, `textAt?_of_write_of_ne`);
* `bundleHeaders_congr`: the headers of a bundle depend on nothing but
  what stands below it.
-/
import Mathlib.Data.List.Infix
import Mathlib.Data.List.TakeWhile
import HeaderBinding.Files.Bundle
import HeaderBinding.Proofs.Text.Octets

namespace HeaderBinding

/-- The place and the names in it are short enough to be looked up. -/
structure Path.IsShort (p : Path) : Prop where
  text : isShortText p.shown = true
  names : ∀ name ∈ p, isShortName name = true

/-- A place other than the root is its name in its folder. -/
lemma Path.folder_append_name {p : Path} (hp : p ≠ []) :
    p.folder ++ [p.name] = p := by
  rw [Path.folder, Path.name, List.getLast?_eq_some_getLast hp,
    Option.getD_some, List.dropLast_append_getLast]

namespace FileTree

/-! ### Parts of trees -/

section Part

variable {t t' : FileTree} {test : Path → Bool}

/-- What is told of the entries of one part is the same where the part
is. -/
lemma filterMap_eq_of_filter_eq {α : Type}
    (h : t'.entries.filter (test ·.1) = t.entries.filter (test ·.1))
    {f : Path × FileEntry → Option α}
    (hf : ∀ e, test e.1 = false → f e = none) :
    t'.entries.filterMap f = t.entries.filterMap f := by
  have hpart : ∀ entries : List (Path × FileEntry),
      entries.filterMap f = (entries.filter (test ·.1)).filterMap f := by
    intro entries
    rw [List.filterMap_filter]
    refine List.filterMap_congr fun e _ => ?_
    cases he : test e.1 with
    | false => rw [hf e he]; rfl
    | true => rfl
  rw [hpart, h, ← hpart]

lemma lookup_eq_head? (entries : List (Path × FileEntry)) (p : Path) :
    entries.lookup p
      = (entries.filterMap fun e =>
        if p == e.1 then some e.2 else none).head? := by
  induction entries with
  | nil => rfl
  | cons e entries ih =>
      obtain ⟨q, entry⟩ := e
      rw [List.lookup_cons, List.filterMap_cons]
      cases hq : p == q with
      | true => simp only [if_true, List.head?_cons]
      | false => simp only [Bool.false_eq_true, if_false, ih]

/-- What stands at a place of the part is the same. -/
lemma entry?_eq_of_filter_eq
    (h : t'.entries.filter (test ·.1) = t.entries.filter (test ·.1))
    {p : Path} (hp : test p = true) : t'.entry? p = t.entry? p := by
  rw [FileTree.entry?, FileTree.entry?, lookup_eq_head?, lookup_eq_head?,
    filterMap_eq_of_filter_eq h]
  intro e he
  refine if_neg fun heq => ?_
  rw [← beq_iff_eq.mp heq, hp] at he
  cases he

end Part

/-! ### Places that change -/

/-- From one tree to the other nothing has changed but at the places. -/
def ChangedOnly (places : Path → Prop) (t t' : FileTree) : Prop :=
  ∀ test : Path → Bool, (∀ p, places p → test p = false) →
    t'.entries.filter (test ·.1) = t.entries.filter (test ·.1)

namespace ChangedOnly

variable {places more : Path → Prop} {t t' t'' : FileTree}

lemma refl (places : Path → Prop) (t : FileTree) :
    ChangedOnly places t t :=
  fun _ _ => rfl

lemma trans (h : ChangedOnly places t t') (h' : ChangedOnly places t' t'') :
    ChangedOnly places t t'' :=
  fun test htest => (h' test htest).trans (h test htest)

lemma mono (h : ChangedOnly places t t') (hmore : ∀ p, places p → more p) :
    ChangedOnly more t t' :=
  fun test htest => h test fun p hp => htest p (hmore p hp)

/-- What stands at any other place stays. -/
lemma entry?_eq (h : ChangedOnly places t t') {p : Path}
    (hp : ¬ places p) : t'.entry? p = t.entry? p := by
  refine entry?_eq_of_filter_eq (h (p == ·) fun q hq => ?_) (beq_self_eq_true p)
  rw [beq_eq_false_iff_ne]
  exact fun heq => hp (heq ▸ hq)

end ChangedOnly

lemma changedOnly_put (t : FileTree) (p : Path) (e : FileEntry) :
    ChangedOnly (· = p) t (t.put p e) := by
  intro test htest
  have hp := htest p rfl
  rw [put]
  dsimp only
  induction t.entries with
  | nil => simp [putField, hp]
  | cons entry entries ih =>
      rw [putField]
      split
      · rename_i hkey
        rw [beq_iff_eq] at hkey
        rw [List.filter_cons_of_neg (by simp [hp]),
          List.filter_cons_of_neg (by simp [hkey, hp])]
      · rw [List.filter_cons, List.filter_cons, ih]

lemma entry?_put_self {t : FileTree} {p : Path} (hp : p ≠ [])
    (e : FileEntry) : FileTree.entry? (t.put p e) p = some e := by
  rw [FileTree.entry?, if_neg (by simpa using hp)]
  exact lookup_putField p e t.entries

/-! ### Folders that are made -/

lemma changedOnly_addFolder (t : FileTree) (p : Path) :
    ChangedOnly (fun q => q = p ∧ t.has q = false) t (t.addFolder p) := by
  rw [addFolder]
  split
  · exact .refl _ t
  · rename_i h
    refine (changedOnly_put t p .folder).mono ?_
    rintro q rfl
    exact ⟨rfl, by simpa using h⟩

/-- What is there stays there. -/
lemma has_of_has_addFolder {t : FileTree} {p q : Path}
    (h : (t.addFolder p).has q = false) : t.has q = false := by
  cases ht : t.has q with
  | false => rfl
  | true =>
      have hchanged := changedOnly_addFolder t p
      have hsame := hchanged.entry?_eq (p := q) fun hq => by simp [ht] at hq
      rw [has, hsame, ← has, ht] at h
      cases h

lemma changedOnly_foldl_addFolder (t : FileTree) (ps : List Path) :
    ChangedOnly (fun q => q ∈ ps ∧ t.has q = false) t
      (ps.foldl addFolder t) := by
  induction ps generalizing t with
  | nil => exact .refl _ t
  | cons p ps ih =>
      rw [List.foldl_cons]
      refine ((changedOnly_addFolder t p).mono fun q hq => ?_).trans
        ((ih (t.addFolder p)).mono fun q hq => ?_)
      · exact ⟨hq.1 ▸ List.mem_cons_self, hq.2⟩
      · exact ⟨List.mem_cons_of_mem p hq.1, has_of_has_addFolder hq.2⟩

lemma isPrefix_of_mem_ancestors {p q : Path} (h : q ∈ p.ancestors) :
    q <+: p := by
  obtain ⟨n, -, rfl⟩ := List.mem_map.mp h
  exact List.take_prefix n p

lemma prefix_folder_of_mem_ancestors {p q : Path}
    (h : q ∈ p.ancestors) : q <+: p.folder := by
  obtain ⟨n, hn, rfl⟩ := List.mem_map.mp h
  rw [List.mem_range] at hn
  rw [Path.folder, List.dropLast_eq_take]
  exact List.take_prefix_take_left (by omega)

lemma mem_ancestors_of_prefix {p q : Path} (h : q <+: p) :
    q ∈ p.ancestors ++ [p] := by
  by_cases hlength : q.length = p.length
  · rw [h.eq_of_length hlength]
    exact List.mem_append_right _ List.mem_cons_self
  · have hle := h.length_le
    refine List.mem_append_left _ (List.mem_map.mpr ⟨q.length, ?_, ?_⟩)
    · exact List.mem_range.mpr (by omega)
    · exact (List.prefix_iff_eq_take.mp h).symm

/-- Folders are made only where there is nothing, on the way to a
place. -/
lemma changedOnly_addFolders (t : FileTree) (p : Path) :
    ChangedOnly (fun q => q <+: p ∧ t.has q = false) t (t.addFolders p) := by
  refine (changedOnly_foldl_addFolder t _).mono fun q hq => ⟨?_, hq.2⟩
  rcases List.mem_append.mp hq.1 with h | h
  · exact isPrefix_of_mem_ancestors h
  · rw [List.mem_singleton.mp h]

/-! ### Files that are written -/

/-- A file that could be written: no file stands in its way, and the names
that lead to it are short. -/
lemma of_write_eq_none {t t' : FileTree} {p : Path} {octets : List UInt8}
    (h : t.write p octets = (t', none)) :
    (∀ q ∈ p.folder.ancestors ++ [p.folder], t.isFile q = false)
      ∧ p.folder.all isShortName = true ∧ isShortName p.name = true
      ∧ t' = (t.addFolders p.folder).put p (.file octets) := by
  rw [write, makeFolder] at h
  split at h
  · cases h
  rename_i mid hmid
  split at hmid
  · cases hmid
  rename_i hfree
  split at hmid
  · cases hmid
  rename_i hplace
  rw [Prod.mk.injEq, ite_eq_left_iff] at hmid
  obtain ⟨hmid, hfault⟩ := hmid
  have hshort : p.folder.all isShortName = true := by
    by_contra hlong
    cases hfault hlong
  rw [List.takeWhile_eq_self_iff.mpr (List.all_eq_true.mp hshort)] at hmid
  split at h
  · rename_i hname
    rw [Prod.mk.injEq] at h
    refine ⟨fun q hq => ?_, hshort, hname, by rw [hmid, h.1]⟩
    rcases List.mem_append.mp hq with hq | hq
    · rw [isBlocked, List.any_eq_true, not_exists] at hfree
      exact Bool.eq_false_iff.mpr fun hfile => hfree q ⟨hq, hfile⟩
    · rw [List.mem_singleton.mp hq]
      exact Bool.eq_false_iff.mpr hplace
  · cases h

/-- A file changes its own place, and makes the folders that are
missing. -/
lemma changedOnly_write {t t' : FileTree} {p : Path} {octets : List UInt8}
    (h : t.write p octets = (t', none)) :
    ChangedOnly (fun q => q = p ∨ q <+: p.folder ∧ t.has q = false) t t' := by
  obtain ⟨-, -, -, rfl⟩ := of_write_eq_none h
  exact ((changedOnly_addFolders t p.folder).mono fun _ => .inr).trans
    ((changedOnly_put _ p _).mono fun _ => .inl)

/-- The octets that are written stand in the file. -/
lemma entry?_of_write {t t' : FileTree} {p : Path} {octets : List UInt8}
    (hp : p ≠ []) (h : t.write p octets = (t', none)) :
    t'.entry? p = some (.file octets) := by
  obtain ⟨-, -, -, rfl⟩ := of_write_eq_none h
  exact entry?_put_self hp _

/-! ### Places that can be looked up -/

/-- The folders of whatever stands in the tree are there. -/
def IsGrounded (t : FileTree) : Prop :=
  ∀ e ∈ t.entries, ∀ folder ∈ e.1.ancestors, t.isFolder folder = true

instance (t : FileTree) : Decidable t.IsGrounded :=
  inferInstanceAs (Decidable (∀ e ∈ t.entries,
    ∀ folder ∈ e.1.ancestors, t.isFolder folder = true))

/-- What stands in a grounded tree stands in folders that are there. -/
lemma IsGrounded.isFolder_of_has {t : FileTree} (ht : t.IsGrounded)
    {p : Path} (hp : t.has p = true) :
    ∀ folder ∈ p.ancestors, t.isFolder folder = true := by
  rw [has, entry?] at hp
  split at hp
  · rename_i hroot
    rw [List.isEmpty_iff.mp hroot]
    exact List.forall_mem_nil _
  · obtain ⟨e, he⟩ := Option.isSome_iff_exists.mp hp
    obtain ⟨before, after, hentries, -⟩ := List.lookup_eq_some_iff.mp he
    exact ht (p, e) (hentries ▸ List.mem_append_right _ List.mem_cons_self)

/-- It is enough that this is so of what can be found. -/
lemma isGrounded_of_has {t : FileTree}
    (h : ∀ p, t.has p = true → ∀ folder ∈ p.ancestors,
      t.isFolder folder = true) : t.IsGrounded := by
  refine fun e he => h e.1 ?_
  rw [has, entry?]
  split
  · rfl
  · exact List.lookup_isSome_iff.mpr ⟨e, he, beq_self_eq_true _⟩

/-- A folder stays where nothing but absent places and a file change. -/
lemma ChangedOnly.isFolder {t t' : FileTree} {p folder : Path}
    (h : ChangedOnly (fun q => q = p ∨ q <+: folder ∧ t.has q = false) t t')
    (hp : t.isFolder p = false) {q : Path} (hq : t.isFolder q = true) :
    t'.isFolder q = true := by
  rw [FileTree.isFolder, h.entry?_eq ?_]
  · exact hq
  rintro (rfl | ⟨-, habsent⟩)
  · rw [hp] at hq
    cases hq
  · rw [FileTree.isFolder, decide_eq_true_eq] at hq
    rw [has, hq] at habsent
    cases habsent

/-- A folder that is missing is made. -/
lemma isFolder_addFolder {t : FileTree} {p q : Path}
    (h : t.isFolder q = true ∨ p = q ∧ t.has q = false) :
    (t.addFolder p).isFolder q = true := by
  have hchanged := changedOnly_addFolder t p
  rcases h with h | ⟨rfl, habsent⟩
  · rw [isFolder, hchanged.entry?_eq ?_]
    · exact h
    rintro ⟨-, habsent⟩
    rw [isFolder, decide_eq_true_eq] at h
    rw [has, h] at habsent
    cases habsent
  · have hp : p ≠ [] := by
      rintro rfl
      cases habsent
    rw [addFolder, habsent, if_neg Bool.false_ne_true, isFolder,
      entry?_put_self hp, decide_eq_true_eq]

lemma isFolder_foldl_addFolder {ps : List Path} {t : FileTree} {q : Path}
    (h : t.isFolder q = true ∨ q ∈ ps ∧ t.has q = false) :
    (ps.foldl addFolder t).isFolder q = true := by
  induction ps generalizing t with
  | nil => exact h.resolve_right fun h => absurd h.1 List.not_mem_nil
  | cons p ps ih =>
      refine ih ?_
      rcases h with h | ⟨hmem, habsent⟩
      · exact .inl (isFolder_addFolder (.inl h))
      · by_cases hpq : p = q
        · exact .inl (isFolder_addFolder (.inr ⟨hpq, habsent⟩))
        · refine .inr ⟨(List.mem_cons.mp hmem).resolve_left (Ne.symm hpq), ?_⟩
          have hchanged := changedOnly_addFolder t p
          rw [has, hchanged.entry?_eq fun h => hpq h.1.symm]
          exact habsent

/-- The folders on the way to a file that was written are there. -/
lemma isFolder_of_write {t t' : FileTree} {p q : Path}
    {octets : List UInt8} (hp : p ≠ [])
    (h : t.write p octets = (t', none)) (hq : q <+: p.folder) :
    t'.isFolder q = true := by
  obtain ⟨hfree, -, -, rfl⟩ := of_write_eq_none h
  have hway := mem_ancestors_of_prefix hq
  have hmade : (t.addFolders p.folder).isFolder q = true := by
    refine isFolder_foldl_addFolder ?_
    cases hhas : t.has q with
    | false => exact .inr ⟨hway, rfl⟩
    | true =>
        left
        have hfile := hfree q hway
        obtain ⟨e, he⟩ := Option.isSome_iff_exists.mp hhas
        rw [isFile, he, Option.any_some] at hfile
        rw [isFolder, he, decide_eq_true_eq]
        cases e with
        | folder => rfl
        | file => cases hfile
  have hne : q ≠ p := by
    rintro rfl
    have hlength := hq.length_le
    rw [Path.folder, List.length_dropLast] at hlength
    exact hp (List.length_eq_zero_iff.mp (by omega))
  rw [isFolder, ChangedOnly.entry?_eq (changedOnly_put _ p _) hne]
  exact hmade

/-- A tree stays grounded where a file is written. -/
theorem IsGrounded.write {t t' : FileTree} (ht : t.IsGrounded) {p : Path}
    {octets : List UInt8} (hp : p ≠ []) (hfolder : t.isFolder p = false)
    (h : t.write p octets = (t', none)) : t'.IsGrounded := by
  have hchanged := changedOnly_write h
  refine isGrounded_of_has fun q hq folder hmem => ?_
  by_cases hnew : q = p ∨ q <+: p.folder ∧ t.has q = false
  · refine isFolder_of_write hp h ?_
    rcases hnew with rfl | ⟨hstart, -⟩
    · exact prefix_folder_of_mem_ancestors hmem
    · exact (isPrefix_of_mem_ancestors hmem).trans hstart
  · rw [has, hchanged.entry?_eq hnew] at hq
    exact hchanged.isFolder hfolder (ht.isFolder_of_has hq folder hmem)

/-- No place of short names and a short text is too long in any tree. -/
lemma isOverlong_of_isShort {p : Path} (hp : p.IsShort) (t : FileTree) :
    t.isOverlong p = false := by
  rw [isOverlong, hp.text, Bool.not_true, Bool.false_or,
    List.any_eq_false]
  intro e he
  rw [hp.names e.2 (List.of_mem_zip he).2, Bool.not_true, Bool.and_false]
  exact Bool.false_ne_true

/-- What can be looked up in a grounded tree is short. -/
lemma IsGrounded.isShort_of_has {t : FileTree} (ht : t.IsGrounded)
    {p : Path} (hp : t.has p = true) (hlook : t.isOverlong p = false) :
    p.IsShort := by
  rw [isOverlong, Bool.or_eq_false_iff, Bool.not_eq_false',
    List.any_eq_false] at hlook
  refine ⟨hlook.1, fun name hname => ?_⟩
  obtain ⟨n, hn, rfl⟩ := List.getElem_of_mem hname
  have hfolder : p.take n ∈ p.ancestors :=
    List.mem_map.mpr ⟨n, List.mem_range.mpr hn, rfl⟩
  have hzip : (p.take n, p[n]) ∈ p.ancestors.zip p :=
    List.mem_iff_getElem.mpr
      ⟨n, by simpa [Path.ancestors] using hn, by simp [Path.ancestors]⟩
  simpa [ht.isFolder_of_has hp _ hfolder] using hlook.2 _ hzip

end FileTree

/-! ### Texts of files -/

/-- The text of a file as it is read back, where line feeds alone end
lines. -/
def FileTree.textAt? (t : FileTree) (p : Path) : Option String :=
  match t.entry? p with
  | some (.file octets) =>
    (readStrict? octets).map fun cs => String.ofList (unifyLineEnds cs)
  | _ => none

/-- The text with line feeds alone as the ends of its lines. -/
def unified (text : String) : String :=
  String.ofList (unifyLineEnds text.toList)

lemma unified_eq_self_iff {text : String} :
    unified text = text ↔ '\r' ∉ text.toList := by
  rw [← unifyLineEnds_eq_self_iff, unified, ← String.toList_inj,
    String.toList_ofList]

namespace FileTree

/-- A text that is written is read back with line feeds alone. -/
lemma textAt?_of_write {t t' : FileTree} {p : Path} {text : String}
    (hp : p ≠ []) (h : t.write p (encodeUtf8 text.toList) = (t', none)) :
    t'.textAt? p = some (unified text) := by
  rw [textAt?, entry?_of_write hp h]
  dsimp only
  rw [readStrict?_encodeUtf8, Option.map_some, unified]

/-- A folder has no text. -/
lemma textAt?_of_isFolder {t : FileTree} {p : Path}
    (h : t.isFolder p = true) : t.textAt? p = none := by
  rw [isFolder, decide_eq_true_eq] at h
  rw [textAt?, h]

/-- There is a file where a text can be read. -/
lemma entry?_of_textAt? {t : FileTree} {p : Path} {text : String}
    (h : t.textAt? p = some text) :
    ∃ octets, t.entry? p = some (.file octets) := by
  rw [textAt?] at h
  split at h
  · rename_i octets hentry
    exact ⟨octets, hentry⟩
  · cases h

lemma has_of_textAt? {t : FileTree} {p : Path} {text : String}
    (h : t.textAt? p = some text) : t.has p = true := by
  obtain ⟨octets, hentry⟩ := entry?_of_textAt? h
  rw [has, hentry, Option.isSome_some]

/-- A text that can be read back has no carriage return. -/
lemma unified_of_textAt? {t : FileTree} {p : Path} {text : String}
    (h : t.textAt? p = some text) : unified text = text := by
  rw [unified_eq_self_iff]
  rw [textAt?] at h
  split at h
  · obtain ⟨cs, -, rfl⟩ := Option.map_eq_some_iff.mp h
    rw [String.toList_ofList]
    exact not_mem_unifyLineEnds cs
  · cases h

lemma ChangedOnly.textAt?_eq {places : Path → Prop} {t t' : FileTree}
    (h : ChangedOnly places t t') {p : Path} (hp : ¬ places p) :
    t'.textAt? p = t.textAt? p := by
  rw [textAt?, h.entry?_eq hp, ← textAt?]

/-- No other text changes where a text is written. -/
lemma textAt?_of_write_of_ne {t t' : FileTree} {p q : Path}
    {octets : List UInt8} (hp : p ≠ [])
    (h : t.write p octets = (t', none)) (hq : q ≠ p) :
    t'.textAt? q = t.textAt? q := by
  by_cases hnew : q <+: p.folder ∧ t.has q = false
  · rw [textAt?_of_isFolder (isFolder_of_write hp h hnew.1)]
    refine (Option.eq_none_iff_forall_ne_some.mpr fun text htext => ?_).symm
    rw [has_of_textAt? htext] at hnew
    cases hnew.2
  · exact (changedOnly_write h).textAt?_eq (not_or.mpr ⟨hq, hnew⟩)

/-! ### Bundles -/

section Bundle

variable {t t' : FileTree} {bundle : Path}

/-- The same stands below the place. -/
def SameBelow (bundle : Path) (t t' : FileTree) : Prop :=
  t'.entries.filter (bundle.isPrefixOf ·.1)
    = t.entries.filter (bundle.isPrefixOf ·.1)

lemma isPrefixOf?_eq_none {p q : Path} (h : p.isPrefixOf q = false) :
    p.isPrefixOf? q = none := by
  refine Option.eq_none_iff_forall_ne_some.mpr fun rest hrest => ?_
  rw [List.isPrefixOf?_eq_some_iff_append_eq] at hrest
  rw [← hrest, List.isPrefixOf_iff_prefix.mpr (List.prefix_append p rest)] at h
  cases h

/-- What is below a place in the bundle is below the bundle. -/
lemma isPrefixOf_eq_false_of_isPrefix {p q : Path} (hp : bundle <+: p)
    (hq : bundle.isPrefixOf q = false) : p.isPrefixOf q = false := by
  rw [Bool.eq_false_iff] at hq ⊢
  exact fun hpq => hq (List.isPrefixOf_iff_prefix.mpr
    (hp.trans (List.isPrefixOf_iff_prefix.mp hpq)))

namespace SameBelow

variable {p : Path}

lemma isFolder_eq (h : SameBelow bundle t t') (hp : bundle <+: p) :
    t'.isFolder p = t.isFolder p := by
  rw [isFolder, isFolder,
    entry?_eq_of_filter_eq h (List.isPrefixOf_iff_prefix.mpr hp)]

lemma names_eq (h : SameBelow bundle t t') (hp : bundle <+: p) :
    t'.names p = t.names p := by
  refine filterMap_eq_of_filter_eq h fun e he => ?_
  rw [isPrefixOf?_eq_none (isPrefixOf_eq_false_of_isPrefix hp he)]

lemma filesBelow_eq (h : SameBelow bundle t t') (hp : bundle <+: p) :
    t'.filesBelow p = t.filesBelow p := by
  have hfilter : ∀ entries : List (Path × FileEntry),
      entries.filter (fun e => e.2.isFile && p.isPrefixOf e.1)
        = (entries.filter (bundle.isPrefixOf ·.1)).filter
          fun e => e.2.isFile && p.isPrefixOf e.1 := by
    intro entries
    rw [List.filter_filter]
    refine List.filter_congr fun e _ => ?_
    cases he : bundle.isPrefixOf e.1 with
    | false => rw [isPrefixOf_eq_false_of_isPrefix hp he, Bool.and_false,
        Bool.and_false]
    | true => rw [Bool.and_true]
  rw [filesBelow, filesBelow, hfilter, h, ← hfilter]

/-- So are the slices of the bundle. -/
lemma sliceNames?_eq (h : SameBelow bundle t t') :
    sliceNames? t' bundle = sliceNames? t bundle := by
  rw [sliceNames?, sliceNames?, h.isFolder_eq (List.prefix_refl _),
    h.names_eq (List.prefix_refl _)]
  simp only [h.isFolder_eq (List.prefix_append bundle _)]

/-- The folder of the headers of a slice is below it. -/
lemma prefix_of_headersFolder? {folder : Path}
    (h : headersFolder? t p = some folder) : p <+: folder := by
  rw [headersFolder?] at h
  split at h
  · exact Option.some.inj h ▸ List.prefix_append p _
  · obtain ⟨name, -, rfl⟩ := Option.map_eq_some_iff.mp h
    exact List.prefix_append p _

/-- So are the headers of a slice. -/
lemma sliceHeaders_eq (h : SameBelow bundle t t') (hp : bundle <+: p) :
    sliceHeaders t' p = sliceHeaders t p := by
  have hbelow : ∀ names : List String, bundle <+: p ++ names :=
    fun names => hp.trans (List.prefix_append p names)
  have hfolder : headersFolder? t' p = headersFolder? t p := by
    rw [headersFolder?, headersFolder?, frameworkNames, frameworkNames,
      h.isFolder_eq (hbelow _), h.names_eq hp]
    simp only [h.isFolder_eq (hbelow _)]
  rw [sliceHeaders, sliceHeaders, hfolder]
  split
  · rename_i folder hsome
    rw [h.filesBelow_eq (hp.trans (prefix_of_headersFolder? hsome))]
  · rfl

end SameBelow

/-- The headers of a bundle are found below it. -/
theorem bundleHeaders_congr (h : SameBelow bundle t t')
    (slice? : Option String) (platform : String) :
    bundleHeaders t' bundle slice? platform
      = bundleHeaders t bundle slice? platform := by
  simp only [bundleHeaders, h.sliceNames?_eq,
    h.sliceHeaders_eq (List.prefix_append bundle _)]

end Bundle

end FileTree

end HeaderBinding
