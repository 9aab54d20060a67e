/-
Which interfaces some headers have once their categories are folded.

* `Interface.withCategories`: a class with its own members in front of
  those of some categories, each part in one expression;
* `stays`, `isFirst`: which interfaces stay, and which of them is the
  first declaration of its class;
* `mergeCategories_eq_mapIdx`: the merge keeps the interfaces that stay, in
  their order, and gives the first declaration of each class all of its
  categories; it changes nothing else.
-/
import HeaderBinding.Proofs.Binding.Merging

namespace HeaderBinding

/-! ### A class with some categories -/

/-- The class with all that some categories add.  Of their protocols it
takes each that it lacks, once, where the first of them names it. -/
def Interface.withCategories (categories : List Interface)
    (primary : Interface) : Interface :=
  { primary with
    properties := primary.properties ++ categories.flatMap (·.properties)
    instanceMethods :=
      primary.instanceMethods ++ categories.flatMap (·.instanceMethods)
    classMethods :=
      primary.classMethods ++ categories.flatMap (·.classMethods)
    protocols := primary.protocols
      ++ ((categories.flatMap (·.protocols)).filter
        (· ∉ primary.protocols)).eraseDups
    initUnavailable :=
      primary.initUnavailable || categories.any (·.initUnavailable) }

/-! ### The interfaces of some headers -/

/-- Some of the headers declares the class. -/
def declares (hs : List Header) (name : String) : Bool :=
  hs.any fun h => h.interfaces.any fun i => !i.isCategory && i.name == name

/-- The categories of the class, header by header. -/
def categoriesOf (hs : List Header) (name : String) : List Interface :=
  hs.flatMap fun h =>
    h.interfaces.filter fun i => i.isCategory && i.name == name

/-- The interfaces of a header in front of one of them, after those of the
headers in front. -/
def interfacesBefore (hs : List Header) (h : Header) (n k : Nat) :
    List Interface :=
  (hs.take n).flatMap (·.interfaces) ++ h.interfaces.take k

/-- The interface stays in its header: it is a class, or a category of one
that no header declares. -/
def stays (hs : List Header) (i : Interface) : Bool :=
  !i.isCategory || !declares hs i.name

/-- The interface is a class that none of those before it declares. -/
def isFirst (before : List Interface) (i : Interface) : Bool :=
  !i.isCategory && before.all fun j => j.isCategory || j.name != i.name

/-! ### One class -/

/-- Names are taken one by one as they are all at once: those that are new,
each once. -/
lemma foldl_insertName (names new : List String) :
    new.foldl (fun ns name => insertName name ns) names
      = names ++ (new.filter (· ∉ names)).eraseDups := by
  induction new generalizing names with
  | nil => simp
  | cons name new ih =>
      rw [List.foldl_cons, ih, insertName]
      by_cases hname : name ∈ names
      · rw [if_pos (List.contains_iff_mem.mpr hname),
          List.filter_cons_of_neg (by simpa using hname)]
      · have hrest : new.filter (· ∉ names ++ [name])
            = (new.filter (· ∉ names)).filter (fun n => !n == name) := by
          rw [List.filter_filter]
          exact List.filter_congr fun n _ =>
            Bool.eq_iff_iff.mpr (by simp [not_or, and_comm])
        rw [if_neg (mt List.contains_iff_mem.mp hname),
          List.filter_cons_of_pos (by simpa using hname),
          List.eraseDups_cons, hrest, List.append_assoc, List.singleton_append]

/-- A class that adopts categories one by one has them all at once. -/
lemma foldl_adopt (i : Interface) (cs : List Interface) :
    cs.foldl Interface.adopt i = i.withCategories cs := by
  have hrow : cs.foldl Interface.adopt i
      = { i with
          properties := i.properties ++ cs.flatMap (·.properties)
          instanceMethods :=
            i.instanceMethods ++ cs.flatMap (·.instanceMethods)
          classMethods := i.classMethods ++ cs.flatMap (·.classMethods)
          protocols := (cs.flatMap (·.protocols)).foldl
            (fun ps p => insertName p ps) i.protocols
          initUnavailable :=
            i.initUnavailable || cs.any (·.initUnavailable) } := by
    induction cs generalizing i with
    | nil => simp
    | cons c cs ih =>
        rw [List.foldl_cons, ih, Interface.adopt]
        simp only [List.flatMap_cons, List.append_assoc, List.foldl_append,
          List.any_cons, Bool.or_assoc]
  rw [hrow, foldl_insertName, Interface.withCategories]

lemma adoptAll_eq_withCategories (categories : List Interface)
    (i : Interface) :
    i.adoptAll categories
      = i.withCategories (categories.filter (·.name == i.name)) :=
  foldl_adopt i _

/-! ### One row of interfaces -/

lemma primaryNames_append (is js : List Interface) :
    primaryNames (is ++ js) = primaryNames is ++ primaryNames js := by
  simp only [primaryNames, List.filter_append, List.map_append]

lemma mem_primaryNames {name : String} {is : List Interface} :
    name ∈ primaryNames is
      ↔ ∃ i ∈ is, i.isCategory = false ∧ i.name = name := by
  simp only [primaryNames, List.mem_map, List.mem_filter, Bool.not_eq_true',
    and_assoc]

/-- The classes that are declared, with one more declaration. -/
lemma mem_primaryNames_class {i : Interface} (hi : i.isCategory = false)
    {before : List Interface} {name : String} :
    name ∈ primaryNames (before ++ [i])
      ↔ name = i.name ∨ name ∈ primaryNames before := by
  rw [primaryNames_append, primaryNames_cons_class hi, List.mem_append,
    List.mem_cons, or_comm]
  simp [primaryNames]

lemma isFirst_eq_true_iff {before : List Interface} {i : Interface} :
    isFirst before i = true
      ↔ i.isCategory = false ∧ i.name ∉ primaryNames before := by
  simp only [isFirst, mem_primaryNames, Bool.and_eq_true, Bool.not_eq_true',
    List.all_eq_true, Bool.or_eq_true, bne_iff_ne, not_exists, not_and]
  exact and_congr_right fun _ => forall₂_congr fun j _ => by
    cases j.isCategory <;> simp

/-- The row of interfaces behind some others, place by place. -/
lemma mergeInterfaces_eq_map {primaries seen : List String}
    {categories before : List Interface} (is : List Interface)
    (hseen : ∀ name, name ∈ seen ↔ name ∈ primaryNames before) :
    mergeInterfaces primaries categories seen is
      = (is.zipIdx.filter fun ik =>
          !ik.1.isCategory || !primaries.contains ik.1.name).map
        fun ik =>
          if isFirst (before ++ is.take ik.2) ik.1 then
            ik.1.adoptAll categories
          else ik.1 := by
  induction is generalizing seen before with
  | nil => rfl
  | cons i is ih =>
      -- behind `i` the same holds of the places one further on
      have hrest : ∀ seen' : List String,
          (∀ name, name ∈ seen' ↔ name ∈ primaryNames (before ++ [i])) →
          mergeInterfaces primaries categories seen' is
            = ((is.zipIdx.map (Prod.map id (· + 1))).filter fun ik =>
                !ik.1.isCategory || !primaries.contains ik.1.name).map
              fun ik =>
                if isFirst (before ++ (i :: is).take ik.2) ik.1 then
                  ik.1.adoptAll categories
                else ik.1 := by
        intro seen' hseen'
        rw [ih hseen', List.filter_map, List.map_map]
        simp only [Function.comp_def, Prod.map, id, List.take_succ_cons,
          List.append_assoc, List.singleton_append]
        rfl
      rw [List.zipIdx_cons']
      cases hi : i.isCategory with
      | true =>
          have hsame : ∀ name,
              name ∈ seen ↔ name ∈ primaryNames (before ++ [i]) := by
            rw [primaryNames_append, primaryNames_cons_category hi,
              show primaryNames [] = [] from rfl, List.append_nil]
            exact hseen
          by_cases hdeclared : i.name ∈ primaries
          · rw [mergeInterfaces_adopted hi hdeclared, hrest _ hsame,
              List.filter_cons_of_neg (by simp [hi, hdeclared])]
          · rw [mergeInterfaces_stray hi hdeclared, hrest _ hsame,
              List.filter_cons_of_pos (by simp [hdeclared]), List.map_cons,
              if_neg (by simp [isFirst, hi])]
      | false =>
          rw [List.filter_cons_of_pos (by simp [hi]), List.map_cons,
            List.take_zero, List.append_nil]
          by_cases hagain : i.name ∈ seen
          · rw [mergeInterfaces_again hi hagain, if_neg fun h =>
              (isFirst_eq_true_iff.mp h).2 ((hseen _).mp hagain), hrest]
            intro name
            rw [mem_primaryNames_class hi, ← hseen]
            exact (or_iff_right_of_imp fun h => h ▸ hagain).symm
          · rw [mergeInterfaces_first hi hagain, if_pos
              (isFirst_eq_true_iff.mpr ⟨hi, mt (hseen _).mpr hagain⟩), hrest]
            intro name
            rw [mem_primaryNames_class hi, List.mem_cons, hseen]

/-! ### Some headers -/

lemma mem_primaryNames_flatMap {hs : List Header} {name : String} :
    name ∈ primaryNames (hs.flatMap (·.interfaces))
      ↔ declares hs name = true := by
  simp only [mem_primaryNames, declares, List.mem_flatMap, List.any_eq_true,
    Bool.and_eq_true, Bool.not_eq_true', beq_iff_eq]
  constructor
  · rintro ⟨i, ⟨h, hh, hi⟩, hclass⟩
    exact ⟨h, hh, i, hi, hclass⟩
  · rintro ⟨h, hh, i, hi, hclass⟩
    exact ⟨i, ⟨h, hh, hi⟩, hclass⟩

lemma filter_categories (hs : List Header) (name : String) :
    ((hs.flatMap (·.interfaces)).filter (·.isCategory)).filter
        (·.name == name)
      = categoriesOf hs name := by
  rw [List.filter_filter, List.filter_flatMap, categoriesOf]
  simp only [Bool.and_comm]

/-- The headers behind some interfaces, one by one. -/
lemma mergeHeaders_eq_mapIdx {primaries seen : List String}
    {categories before : List Interface} (hs : List Header)
    (hseen : ∀ name, name ∈ seen ↔ name ∈ primaryNames before) :
    mergeHeaders primaries categories seen hs = hs.mapIdx fun n h =>
      { h with
        interfaces := mergeInterfaces primaries categories
          (primaryNames (before ++ (hs.take n).flatMap (·.interfaces)))
          h.interfaces } := by
  induction hs generalizing seen before with
  | nil => rfl
  | cons h hs ih =>
      have hbehind : ∀ name, name ∈ primaryNames h.interfaces ++ seen
          ↔ name ∈ primaryNames (before ++ h.interfaces) := by
        intro name
        rw [primaryNames_append, List.mem_append, List.mem_append, hseen,
          or_comm]
      rw [mergeHeaders, ih hbehind, List.mapIdx_cons,
        mergeInterfaces_congr (fun _ => Iff.rfl) (fun _ _ _ => rfl)
          fun name _ => hseen name]
      simp only [List.take_zero, List.flatMap_nil, List.append_nil,
        List.take_succ_cons, List.flatMap_cons, List.append_assoc]

/-- The merge of categories, place by place.  The interfaces that stay keep
their order; of them the first declaration of each class, header by header,
has the members of all its categories behind its own.  All the rest of the
headers is as it was. -/
theorem mergeCategories_eq_mapIdx (hs : List Header) :
    mergeCategories hs = hs.mapIdx fun n h =>
      { h with
        interfaces :=
          (h.interfaces.zipIdx.filter fun ik => stays hs ik.1).map fun ik =>
            if isFirst (interfacesBefore hs h n ik.2) ik.1 then
              ik.1.withCategories (categoriesOf hs ik.1.name)
            else ik.1 } := by
  rw [mergeCategories, mergeHeaders_eq_mapIdx hs
    (show ∀ name, name ∈ [] ↔ name ∈ primaryNames [] from fun _ => Iff.rfl)]
  have hstays : ∀ i : Interface, stays hs i = (!i.isCategory
      || !(primaryNames (hs.flatMap (·.interfaces))).contains i.name) := by
    intro i
    rw [stays, Bool.eq_iff_iff.mpr (List.contains_iff_mem.trans
      mem_primaryNames_flatMap)]
  simp only [mergeInterfaces_eq_map _ fun _ => Iff.rfl,
    adoptAll_eq_withCategories, filter_categories, hstays,
    interfacesBefore, List.nil_append]
  rfl

-- a category in front of its class, one of a class that is declared twice,
-- and one of a class that is not declared
example :
    (mergeCategories
      [{ file := "a.h"
         interfaces :=
           [{ name := "A", category? := "x", protocols := ["P", "Q", "P"] },
            { name := "B", category? := "y" }] },
       { file := "b.h"
         interfaces :=
           [{ name := "A", protocols := ["Q"] }, { name := "A" },
            { name := "A", category? := "z", initUnavailable := true }] }]
      ).map (·.interfaces)
      = [[{ name := "B", category? := "y" }],
         [{ name := "A", protocols := ["Q", "P"], initUnavailable := true },
          { name := "A" }]] := by
  decide

end HeaderBinding
