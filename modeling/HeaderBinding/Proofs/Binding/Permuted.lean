/-
Binding some headers in another order.

* `Alias.renames`, `Header.aliasNames`, `Header.categoryNames`: the names
  that the order of the headers can count for;
* `OrderFree`: no alias and no class is in two headers, and the categories
  of a class are together;
* `ofHeaders_alike`: then the names of types are the same in any order;
* `mergeCategories_eq_map`: and the merge does to each header what it does
  to it alone, with the categories of its classes;
* `assembleHeaders_permuted`: so that the declarations only move with
  their headers.
-/
import Mathlib.Data.List.FinRange
import HeaderBinding.Proofs.Binding.Alike
import HeaderBinding.Proofs.Binding.Batch

namespace HeaderBinding

/-! ### The names of types -/

/-- The alias is another name for a type: it is no callable, and not only
its own name. -/
def Alias.renames (a : Alias) : Bool :=
  a.name ≠ "" && !a.isBlock && !a.isFunctionPointer && a.name ≠ a.target

/-- The names that the header declares as other names for types. -/
def Header.aliasNames (h : Header) : List String :=
  (h.aliases.filter (·.renames)).map (·.name)

/-- Some aliases put into a table, one after the other. -/
def putAliases (table : List (String × String)) (as : List Alias) :
    List (String × String) :=
  (as.filter (·.renames)).foldl (fun t a => putField a.name a.target t) table

lemma aliases_addAlias (ctx : TypeContext) (a : Alias) :
    (ctx.addAlias a).aliases = putAliases ctx.aliases [a] := by
  unfold TypeContext.addAlias putAliases
  repeat' split
  all_goals simp_all [Alias.renames]

lemma putAliases_append (table : List (String × String))
    (as bs : List Alias) :
    putAliases table (as ++ bs) = putAliases (putAliases table as) bs := by
  rw [putAliases, List.filter_append, List.foldl_append]
  rfl

lemma aliases_foldl_addAlias (ctx : TypeContext) (as : List Alias) :
    (as.foldl TypeContext.addAlias ctx).aliases
      = putAliases ctx.aliases as := by
  induction as generalizing ctx with
  | nil => rfl
  | cons a as ih =>
      rw [List.foldl_cons, ih, aliases_addAlias, ← putAliases_append]
      rfl

/-- A name that is not in front is put behind. -/
lemma putField_append {key : String} {front : List (String × String)}
    (h : key ∉ front.map (·.1)) (value : String)
    (table : List (String × String)) :
    putField key value (front ++ table)
      = front ++ putField key value table := by
  induction front with
  | nil => rfl
  | cons e front ih =>
      rw [List.map_cons, List.mem_cons, not_or] at h
      have he : (e.1 == key) = false := by simpa using Ne.symm h.1
      rw [List.cons_append, putField, he, ih h.2]
      rfl

lemma putAliases_front {front : List (String × String)} {as : List Alias}
    (h : ∀ a ∈ as, a.renames = true → a.name ∉ front.map (·.1))
    (table : List (String × String)) :
    putAliases (front ++ table) as = front ++ putAliases table as := by
  have h : ∀ a ∈ as.filter (·.renames), a.name ∉ front.map (·.1) :=
    fun a ha => h a (List.mem_filter.mp ha).1 (List.mem_filter.mp ha).2
  rw [putAliases, putAliases]
  generalize as.filter (·.renames) = bs at h
  induction bs generalizing table with
  | nil => rfl
  | cons a bs ih =>
      obtain ⟨ha, hbs⟩ := List.forall_mem_cons.mp h
      rw [List.foldl_cons, putField_append ha, ih _ hbs]
      rfl

lemma nodup_putField {key value : String} {table : List (String × String)}
    (h : (table.map (·.1)).Nodup) :
    ((putField key value table).map (·.1)).Nodup := by
  induction table with
  | nil => exact List.nodup_singleton key
  | cons e table ih =>
      obtain ⟨hnew, htable⟩ := List.nodup_cons.mp h
      rw [putField]
      split
      · rename_i heq
        rw [List.map_cons, List.nodup_cons]
        exact ⟨by rwa [← eq_of_beq heq], htable⟩
      · rename_i hne
        rw [List.map_cons, List.nodup_cons]
        refine ⟨fun hmem => ?_, ih htable⟩
        obtain ⟨f, hf, heq⟩ := List.mem_map.mp hmem
        rcases mem_putField hf with hf | rfl
        · exact hnew (List.mem_map.mpr ⟨f, hf, heq⟩)
        · exact hne (beq_iff_eq.mpr heq.symm)

lemma nodup_putAliases {table : List (String × String)}
    (h : (table.map (·.1)).Nodup) (as : List Alias) :
    ((putAliases table as).map (·.1)).Nodup :=
  holds_foldl (Q := fun t : List (String × String) => (t.map (·.1)).Nodup)
    (P := fun _ => False) (fun _ _ h => nodup_putField h)
    (fun _ _ h => h.elim) (.inl h)

/-- The entries are those of the table and of the aliases. -/
lemma mem_putAliases {table : List (String × String)} {as : List Alias}
    {entry : String × String} (h : entry ∈ putAliases table as) :
    entry ∈ table
      ∨ ∃ a ∈ as, a.renames = true ∧ entry = (a.name, a.target) := by
  refine (holds_of_foldl (Q := fun t => entry ∈ t)
    (P := fun a : Alias => entry = (a.name, a.target))
    (fun _ _ h => mem_putField h) h).imp_right ?_
  rintro ⟨a, ha, heq⟩
  exact ⟨a, (List.mem_filter.mp ha).1, (List.mem_filter.mp ha).2, heq⟩

/-! ### The names of types in any order -/

/-- The entries of the header's own aliases. -/
def Header.aliasTable (h : Header) : List (String × String) :=
  putAliases [] h.aliases

/-- No name of an alias is in both headers. -/
def AliasesApart (g h : Header) : Prop :=
  ∀ name ∈ g.aliasNames, name ∉ h.aliasNames

instance (g h : Header) : Decidable (AliasesApart g h) :=
  inferInstanceAs (Decidable (∀ name ∈ _, _))

lemma AliasesApart.symm {g h : Header} (hgh : AliasesApart g h) :
    AliasesApart h g :=
  fun name hh hg => hgh name hg hh

lemma mem_aliasNames {h : Header} {a : Alias} (ha : a ∈ h.aliases)
    (hr : a.renames = true) : a.name ∈ h.aliasNames :=
  List.mem_map.mpr ⟨a, List.mem_filter.mpr ⟨ha, hr⟩, rfl⟩

lemma mem_keys_aliasTable {h : Header} {name : String}
    (hname : name ∈ h.aliasTable.map (·.1)) : name ∈ h.aliasNames := by
  obtain ⟨entry, hentry, rfl⟩ := List.mem_map.mp hname
  rcases mem_putAliases hentry with hnil | ⟨a, ha, hr, rfl⟩
  · cases hnil
  · exact mem_aliasNames ha hr

/-- Apart from one another, the headers each add their own entries. -/
lemma putAliases_flatMap {hs : List Header} (h : hs.Pairwise AliasesApart) :
    putAliases [] (hs.flatMap (·.aliases))
      = hs.flatMap Header.aliasTable := by
  induction hs with
  | nil => rfl
  | cons g hs ih =>
      obtain ⟨hg, hhs⟩ := List.pairwise_cons.mp h
      rw [List.flatMap_cons, List.flatMap_cons, putAliases_append, ← ih hhs,
        ← List.append_nil (putAliases [] g.aliases), putAliases_front]
      · rfl
      · intro a ha hr hmem
        obtain ⟨k, hk, ha⟩ := List.mem_flatMap.mp ha
        exact hg k hk a.name (mem_keys_aliasTable hmem) (mem_aliasNames ha hr)

lemma contains_congr {names names' : List String}
    (h : ∀ name, name ∈ names ↔ name ∈ names') (name : String) :
    names.contains name = names'.contains name := by
  rw [Bool.eq_iff_iff, List.contains_iff_mem, List.contains_iff_mem, h]

namespace TypeContext

lemma aliases_ofHeaders (hs : List Header) :
    (ofHeaders hs).aliases = putAliases [] (hs.flatMap (·.aliases)) := by
  rw [ofHeaders, foldl_addHeader,
    foldl_eq (v := aliases) fun ctx s => (addStruct_eq ctx s).2.2.2,
    foldl_eq (v := aliases) fun ctx e => (addEnum_eq ctx e).2.2.2,
    aliases_foldl_addAlias]

/-- Headers whose aliases are apart give the same names to types in any
order. -/
theorem ofHeaders_alike {hs hs' : List Header} (hperm : hs.Perm hs')
    (h : hs.Pairwise AliasesApart) :
    (ofHeaders hs).Alike (ofHeaders hs') := by
  have hmem : ∀ {α : Type} (f : Header → List α) (a : α),
      a ∈ hs.flatMap f ↔ a ∈ hs'.flatMap f :=
    fun f a => (hperm.flatMap_right f).mem_iff
  have hjoined : ∀ hs, ofHeaders hs = ofHeader (Header.joined "" hs) :=
    fun hs => (ofHeaders_joined "" hs).symm
  refine ⟨?_, ?_, contains_congr fun name => ?_,
    contains_congr fun name => ?_, contains_congr fun name => ?_,
    contains_congr fun name => ?_⟩
  · rw [aliases_ofHeaders, aliases_ofHeaders, putAliases_flatMap h,
      putAliases_flatMap (hperm.pairwise h AliasesApart.symm)]
    exact hperm.flatMap_right _
  · rw [aliases_ofHeaders]
    refine nodup_putAliases ?_ _
    exact List.nodup_nil
  · simp only [hjoined, mem_blocks_ofHeader, Header.joined, hmem]
  · simp only [hjoined, mem_functionPointers_ofHeader, Header.joined, hmem]
  · simp only [hjoined, mem_enums_ofHeader, Header.joined, hmem]
  · simp only [hjoined, mem_structs_ofHeader, Header.joined, hmem]

end TypeContext

/-! ### The merge in any order -/

/-- The classes that the header adds to. -/
def Header.categoryNames (h : Header) : List String :=
  (h.interfaces.filter (·.isCategory)).map (·.name)

/-- The header alone after the merge, for the classes that are declared
somewhere and the categories that there are. -/
def Header.mergedFor (primaries : List String) (categories : List Interface)
    (h : Header) : Header :=
  { h with interfaces := mergeInterfaces primaries categories [] h.interfaces }

/-- No class is declared in both headers. -/
def ClassesApart (g h : Header) : Prop :=
  ∀ name ∈ primaryNames g.interfaces, name ∉ primaryNames h.interfaces

instance (g h : Header) : Decidable (ClassesApart g h) :=
  inferInstanceAs (Decidable (∀ name ∈ _, _))

/-- Where no class is in two headers, each header is merged for itself. -/
lemma mergeHeaders_eq_map {primaries : List String}
    {categories : List Interface} {seen : List String} {hs : List Header}
    (hseen : ∀ h ∈ hs, ∀ name ∈ primaryNames h.interfaces, name ∉ seen)
    (hapart : hs.Pairwise ClassesApart) :
    mergeHeaders primaries categories seen hs
      = hs.map (Header.mergedFor primaries categories) := by
  induction hs generalizing seen with
  | nil => rfl
  | cons g hs ih =>
      obtain ⟨hg, hhs⟩ := List.pairwise_cons.mp hapart
      obtain ⟨hgseen, hseen⟩ := List.forall_mem_cons.mp hseen
      have hrest : ∀ h ∈ hs, ∀ name ∈ primaryNames h.interfaces,
          name ∉ primaryNames g.interfaces ++ seen := by
        intro h hh name hname hmem
        rcases List.mem_append.mp hmem with hmem | hmem
        · exact hg h hh name hmem hname
        · exact hseen h hh name hname hmem
      rw [mergeHeaders, List.map_cons, ih hrest hhs, Header.mergedFor,
        mergeInterfaces_congr (fun _ => Iff.rfl) (fun _ _ _ => rfl)
          fun name hname => iff_of_false (hgseen name hname)
            List.not_mem_nil]

/-- Where only one of the parts is not empty, their order does not
count. -/
lemma flatMap_eq_of_perm {α β : Type} {f : α → List β} {xs ys : List α}
    (hperm : xs.Perm ys) (h : xs.Pairwise fun x y => f x = [] ∨ f y = []) :
    xs.flatMap f = ys.flatMap f := by
  induction hperm with
  | nil => rfl
  | cons x _ ih =>
      rw [List.flatMap_cons, List.flatMap_cons, ih (List.pairwise_cons.mp h).2]
  | swap x y xs =>
      have hxy := (List.pairwise_cons.mp h).1 x List.mem_cons_self
      rcases hxy with hnil | hnil <;> simp [List.flatMap_cons, hnil]
  | trans hperm _ ih ih' =>
      exact (ih h).trans (ih' (hperm.pairwise h Or.symm))

/-- One of the headers has no category of the class. -/
def CategoriesApart (name : String) (g h : Header) : Prop :=
  name ∈ g.categoryNames → name ∉ h.categoryNames

instance (name : String) (g h : Header) :
    Decidable (CategoriesApart name g h) :=
  inferInstanceAs (Decidable (_ → _))

lemma categories_eq_nil {h : Header} {name : String}
    (hname : name ∉ h.categoryNames) :
    (h.interfaces.filter (·.isCategory)).filter (·.name == name) = [] := by
  refine List.filter_eq_nil_iff.mpr fun i hi heq => hname ?_
  exact List.mem_map.mpr ⟨i, hi, eq_of_beq heq⟩

/-- The categories of a class come in the same order. -/
lemma filter_categories_eq {hs hs' : List Header} (hperm : hs.Perm hs')
    {name : String} (h : hs.Pairwise (CategoriesApart name)) :
    ((hs.flatMap (·.interfaces)).filter (·.isCategory)).filter
        (·.name == name)
      = ((hs'.flatMap (·.interfaces)).filter (·.isCategory)).filter
        (·.name == name) := by
  simp only [List.filter_flatMap]
  exact flatMap_eq_of_perm hperm (h.imp fun hgh =>
    (not_or_of_imp hgh).imp categories_eq_nil categories_eq_nil)

/-- What a header of some headers is merged to. -/
def Header.mergedAmong (hs : List Header) : Header → Header :=
  Header.mergedFor (primaryNames (hs.flatMap (·.interfaces)))
    ((hs.flatMap (·.interfaces)).filter (·.isCategory))

/-- Where no class is in two headers and the categories of each are
together, a header is merged alike in any order of the headers. -/
theorem mergeCategories_eq_map {hs hs' : List Header}
    (hperm : hs.Perm hs') (hapart : hs.Pairwise ClassesApart)
    (hcategories : ∀ name ∈ primaryNames (hs.flatMap (·.interfaces)),
      hs.Pairwise (CategoriesApart name)) :
    mergeCategories hs' = hs'.map (Header.mergedAmong hs) := by
  have hsymm : ∀ {g h}, ClassesApart g h → ClassesApart h g :=
    fun hgh name hh hg => hgh name hg hh
  have hunseen : ∀ h ∈ hs', ∀ name ∈ primaryNames h.interfaces,
      name ∉ ([] : List String) := fun _ _ _ _ => List.not_mem_nil
  rw [mergeCategories,
    mergeHeaders_eq_map hunseen (hperm.pairwise hapart hsymm)]
  refine List.map_congr_left fun g hg => ?_
  have hprimary : ∀ name, name ∈ primaryNames (hs'.flatMap (·.interfaces))
      ↔ name ∈ primaryNames (hs.flatMap (·.interfaces)) := fun name =>
    (((hperm.flatMap_right _).filter _).map _).mem_iff.symm
  rw [Header.mergedAmong, Header.mergedFor, Header.mergedFor,
    mergeInterfaces_congr hprimary (fun name hname _ => ?_)
      fun _ _ => Iff.rfl]
  refine (filter_categories_eq hperm (hcategories name ?_)).symm
  obtain ⟨i, hi, rfl⟩ := List.mem_map.mp hname
  obtain ⟨hmem, hclass⟩ := List.mem_filter.mp hi
  exact List.mem_map.mpr ⟨i, List.mem_filter.mpr
    ⟨List.mem_flatMap.mpr ⟨g, hperm.mem_iff.mpr hg, hmem⟩, hclass⟩, rfl⟩

/-! ### Headers in any order -/

/-- Some headers that do not depend on their order: no alias and no class
is in two of them, and the categories of a class are in one. -/
structure OrderFree {n : Nat} (hs : Fin n → Header) : Prop where
  aliases : ∀ i j, i ≠ j → AliasesApart (hs i) (hs j)
  classes : ∀ i j, i ≠ j → ClassesApart (hs i) (hs j)
  categories : ∀ k, ∀ name ∈ primaryNames (hs k).interfaces,
    ∀ i j, i ≠ j → CategoriesApart name (hs i) (hs j)

/-- **Headers in another order.**  If no alias and no class is in two
headers, and the categories of each class are in one, the headers in
another order get the declarations that they have, in that order. -/
theorem assembleHeaders_permuted {n : Nat} {hs : Fin n → Header}
    (h : OrderFree hs) (σ : Equiv.Perm (Fin n)) :
    ∃ bound : Fin n → List Declaration,
      assembleHeaders (List.ofFn hs) = List.ofFn bound
        ∧ assembleHeaders (List.ofFn (hs ∘ σ)) = List.ofFn (bound ∘ σ) := by
  have hperm : (List.ofFn hs).Perm (List.ofFn (hs ∘ σ)) :=
    (σ.ofFn_comp_perm hs).symm
  have haliases : (List.ofFn hs).Pairwise AliasesApart :=
    List.pairwise_ofFn.mpr fun i j hij => h.aliases i j hij.ne
  have hclasses : (List.ofFn hs).Pairwise ClassesApart :=
    List.pairwise_ofFn.mpr fun i j hij => h.classes i j hij.ne
  have hcategories : ∀ name ∈ primaryNames
      ((List.ofFn hs).flatMap (·.interfaces)),
      (List.ofFn hs).Pairwise (CategoriesApart name) := by
    intro name hname
    obtain ⟨c, hc, rfl⟩ := List.mem_map.mp hname
    obtain ⟨hmem, hclass⟩ := List.mem_filter.mp hc
    obtain ⟨g, hg, hmem⟩ := List.mem_flatMap.mp hmem
    obtain ⟨k, rfl⟩ := List.mem_ofFn.mp hg
    refine List.pairwise_ofFn.mpr fun i j hij => h.categories k c.name ?_ i j
      hij.ne
    exact List.mem_map.mpr ⟨c, List.mem_filter.mpr ⟨hmem, hclass⟩, rfl⟩
  have hbound : ∀ hs', (List.ofFn hs).Perm hs' → assembleHeaders hs'
      = hs'.map fun g => (g.mergedAmong (List.ofFn hs)).declarations
        (.ofHeaders (List.ofFn hs)) := by
    intro hs' hperm
    rw [assembleHeaders, mergeCategories_eq_map hperm hclasses hcategories,
      ← (TypeContext.ofHeaders_alike hperm haliases).declarations,
      List.map_map]
    rfl
  refine ⟨fun i => ((hs i).mergedAmong (List.ofFn hs)).declarations
    (.ofHeaders (List.ofFn hs)), ?_, ?_⟩
  · rw [hbound _ (List.Perm.refl _), List.map_ofFn]
    rfl
  · rw [hbound _ hperm, List.map_ofFn]
    rfl

/-- A class that uses an alias of the second header, which declares
another class, and a category of it beside one of a class that is not
there. -/
def boxHeaders : Fin 3 → Header
  | 0 => readHeader {} "" <| "\n".intercalate ["typedef NSString *Title;",
      "@interface Box", "- (Title)title;", "- (void)fill:(Tint)tint;", "@end"]
  | 1 => readHeader {} "" <| "\n".intercalate ["typedef NSInteger Tint;",
      "@interface Lid", "@property Title name;", "@end"]
  | 2 => readHeader {} "" <| "\n".intercalate ["@interface Box (Lids)",
      "- (Lid *)lid;", "@end", "@interface Shelf (Boxes)",
      "- (Box *)box;", "@end"]

/-- The last of them first. -/
theorem assembleHeaders_permuted_boxes :
    OrderFree boxHeaders ∧ ∃ bound : Fin 3 → List Declaration,
      assembleHeaders (List.ofFn boxHeaders) = List.ofFn bound
        ∧ assembleHeaders (List.ofFn (boxHeaders ∘ Equiv.swap 0 2))
          = List.ofFn (bound ∘ Equiv.swap 0 2) := by
  -- one computation, in which the headers are read only once
  have hapart : (∀ i j, i ≠ j → AliasesApart (boxHeaders i) (boxHeaders j))
      ∧ (∀ i j, i ≠ j → ClassesApart (boxHeaders i) (boxHeaders j))
      ∧ ∀ k, ∀ name ∈ primaryNames (boxHeaders k).interfaces,
        ∀ i j, i ≠ j → CategoriesApart name (boxHeaders i) (boxHeaders j) := by
    decide +kernel
  have hfree : OrderFree boxHeaders := ⟨hapart.1, hapart.2.1, hapart.2.2⟩
  exact ⟨hfree, assembleHeaders_permuted hfree (Equiv.swap 0 2)⟩

end HeaderBinding
