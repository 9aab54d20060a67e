/-
Folding the categories of some headers, where those of the first headers
were folded before.

* `primaryNames_mergeInterfaces`, `categories_mergeInterfaces`: what is left
  of a row of interfaces declares the same classes, and has the categories
  of classes that were not declared;
* `adoptAll_adoptAll`: a class that adopts its categories in two parts has
  them all;
* `mergeInterfaces_mergeInterfaces`: so a row that is merged twice is as if
  it were merged once;
* `mergeCategories_take_drop`: the first headers may be merged before all
  of them are.
-/
import HeaderBinding.Proofs.Binding.Folded

namespace HeaderBinding

variable {primaries primaries' seen seen' : List String}
variable {categories categories' : List Interface}

/-- The interfaces of a name. -/
def namedAs (name : String) (is : List Interface) : List Interface :=
  is.filter (·.name == name)

lemma namedAs_append (name : String) (is js : List Interface) :
    namedAs name (is ++ js) = namedAs name is ++ namedAs name js :=
  List.filter_append ..

/-- None of the interfaces of other names has one of the names. -/
lemma namedAs_others_of_mem {names : List String} {name : String}
    (h : name ∈ names) (is : List Interface) :
    namedAs name (is.filter (·.name ∉ names)) = [] := by
  refine List.filter_eq_nil_iff.mpr fun i hi heq => ?_
  obtain rfl := eq_of_beq heq
  exact of_decide_eq_true (List.mem_filter.mp hi).2 h

/-- All interfaces of another name are among those of other names. -/
lemma namedAs_others_of_not_mem {names : List String} {name : String}
    (h : name ∉ names) (is : List Interface) :
    namedAs name (is.filter (·.name ∉ names)) = namedAs name is := by
  rw [namedAs, namedAs, List.filter_filter]
  refine List.filter_congr fun i _ => ?_
  by_cases heq : i.name = name
  · simp [heq, h]
  · simp [heq]

/-! ### What one merge leaves -/

lemma isCategory_adoptAll (categories : List Interface) (i : Interface) :
    (i.adoptAll categories).isCategory = i.isCategory :=
  congrArg Option.isSome (adoptAll_name categories i).2

/-- The merge declares no class, and loses none. -/
lemma primaryNames_mergeInterfaces (seen : List String)
    (is : List Interface) :
    primaryNames (mergeInterfaces primaries categories seen is)
      = primaryNames is := by
  induction is generalizing seen with
  | nil => rfl
  | cons i is ih =>
      cases hi : i.isCategory with
      | true =>
          rw [primaryNames_cons_category hi]
          by_cases hdeclared : i.name ∈ primaries
          · rw [mergeInterfaces_adopted hi hdeclared, ih]
          · rw [mergeInterfaces_stray hi hdeclared,
              primaryNames_cons_category hi, ih]
      | false =>
          rw [primaryNames_cons_class hi]
          by_cases hseen : i.name ∈ seen
          · rw [mergeInterfaces_again hi hseen, primaryNames_cons_class hi,
              ih]
          · have hclass : (i.adoptAll categories).isCategory = false :=
              (isCategory_adoptAll categories i).trans hi
            rw [mergeInterfaces_first hi hseen,
              primaryNames_cons_class hclass, (adoptAll_name categories i).1,
              ih]

/-- The categories that the merge leaves are those of classes that are not
declared. -/
lemma categories_mergeInterfaces (seen : List String)
    (is : List Interface) :
    (mergeInterfaces primaries categories seen is).filter (·.isCategory)
      = (is.filter (·.isCategory)).filter (·.name ∉ primaries) := by
  induction is generalizing seen with
  | nil => rfl
  | cons i is ih =>
      cases hi : i.isCategory with
      | true =>
          rw [List.filter_cons_of_pos hi]
          by_cases hdeclared : i.name ∈ primaries
          · rw [mergeInterfaces_adopted hi hdeclared,
              List.filter_cons_of_neg (by simpa using hdeclared), ih]
          · rw [mergeInterfaces_stray hi hdeclared,
              List.filter_cons_of_pos hi,
              List.filter_cons_of_pos (by simpa using hdeclared), ih]
      | false =>
          have hclass : ¬ i.isCategory = true := by simp [hi]
          rw [List.filter_cons_of_neg hclass]
          by_cases hseen : i.name ∈ seen
          · rw [mergeInterfaces_again hi hseen,
              List.filter_cons_of_neg hclass, ih]
          · rw [mergeInterfaces_first hi hseen, List.filter_cons_of_neg
              (by rwa [isCategory_adoptAll]), ih]

/-! ### One row that is merged twice -/

/-- A class that adopts some categories, and then those that come behind,
has them all. -/
lemma adoptAll_adoptAll {before after all : List Interface} {i : Interface}
    (h : namedAs i.name before ++ namedAs i.name after
      = namedAs i.name all) :
    (i.adoptAll before).adoptAll after = i.adoptAll all := by
  calc (i.adoptAll before).adoptAll after
      = (namedAs i.name after).foldl Interface.adopt (i.adoptAll before) := by
        rw [Interface.adoptAll, (adoptAll_name before i).1, namedAs]
    _ = (namedAs i.name before ++ namedAs i.name after).foldl
          Interface.adopt i := by
        rw [List.foldl_append, Interface.adoptAll, ← namedAs]
    _ = i.adoptAll all := by rw [h, namedAs, ← Interface.adoptAll]

/-- A row that was merged among its own classes is merged among more of
them as if it had not been. -/
lemma mergeInterfaces_mergeInterfaces {all : List Interface}
    {is : List Interface} (hsub : ∀ name ∈ primaries, name ∈ primaries')
    (hclasses : ∀ name ∈ primaryNames is, name ∈ primaries)
    (hall : ∀ name ∈ primaries,
      namedAs name categories ++ namedAs name categories'
        = namedAs name all) :
    mergeInterfaces primaries' categories' seen
        (mergeInterfaces primaries categories seen is)
      = mergeInterfaces primaries' all seen is := by
  induction is generalizing seen with
  | nil => rfl
  | cons i is ih =>
      cases hi : i.isCategory with
      | true =>
          rw [primaryNames_cons_category hi] at hclasses
          by_cases hdeclared : i.name ∈ primaries
          · rw [mergeInterfaces_adopted hi hdeclared,
              mergeInterfaces_adopted hi (hsub _ hdeclared), ih hclasses]
          · rw [mergeInterfaces_stray hi hdeclared]
            by_cases hlater : i.name ∈ primaries'
            · rw [mergeInterfaces_adopted hi hlater,
                mergeInterfaces_adopted hi hlater, ih hclasses]
            · rw [mergeInterfaces_stray hi hlater,
                mergeInterfaces_stray hi hlater, ih hclasses]
      | false =>
          rw [primaryNames_cons_class hi, List.forall_mem_cons] at hclasses
          by_cases hseen : i.name ∈ seen
          · rw [mergeInterfaces_again hi hseen,
              mergeInterfaces_again hi hseen,
              mergeInterfaces_again hi hseen, ih hclasses.2]
          · have hclass : (i.adoptAll categories).isCategory = false :=
              (isCategory_adoptAll categories i).trans hi
            have hname : (i.adoptAll categories).name = i.name :=
              (adoptAll_name categories i).1
            rw [mergeInterfaces_first hi hseen,
              mergeInterfaces_first hclass (by rwa [hname]), hname,
              ih hclasses.2, adoptAll_adoptAll (hall _ hclasses.1),
              mergeInterfaces_first hi hseen]

/-! ### Some headers -/

/-- The categories count only for classes that are not declared before. -/
lemma mergeHeaders_congr {hs : List Header}
    (hp : ∀ name, name ∈ primaries ↔ name ∈ primaries')
    (hc : ∀ name, name ∉ seen →
      namedAs name categories = namedAs name categories')
    (hseen : ∀ name, name ∈ seen ↔ name ∈ seen') :
    mergeHeaders primaries categories seen hs
      = mergeHeaders primaries' categories' seen' hs := by
  induction hs generalizing seen seen' with
  | nil => rfl
  | cons h hs ih =>
      have hbehind : ∀ name, name ∈ primaryNames h.interfaces ++ seen
          ↔ name ∈ primaryNames h.interfaces ++ seen' := by
        intro name
        rw [List.mem_append, List.mem_append, hseen]
      have hlater : ∀ name, name ∉ primaryNames h.interfaces ++ seen →
          namedAs name categories = namedAs name categories' := by
        intro name hname
        exact hc name fun hmem => hname (List.mem_append_right _ hmem)
      rw [mergeHeaders, mergeHeaders, ih hlater hbehind,
        mergeInterfaces_congr hp (fun name _ hname => hc name hname)
          fun name _ => hseen name]

/-- The merge goes from header to header. -/
lemma mergeHeaders_append (gs hs : List Header) :
    mergeHeaders primaries categories seen (gs ++ hs)
      = mergeHeaders primaries categories seen gs
        ++ mergeHeaders primaries categories
          (primaryNames (gs.flatMap (·.interfaces)) ++ seen) hs := by
  induction gs generalizing seen with
  | nil => rfl
  | cons g gs ih =>
      have hsame : ∀ name,
          name ∈ primaryNames (gs.flatMap (·.interfaces))
              ++ (primaryNames g.interfaces ++ seen)
            ↔ name ∈ primaryNames ((g :: gs).flatMap (·.interfaces))
              ++ seen := by
        intro name
        rw [List.flatMap_cons, primaryNames_append]
        simp only [List.mem_append]
        exact or_left_comm.trans or_assoc.symm
      rw [List.cons_append, mergeHeaders, ih, mergeHeaders, List.cons_append,
        mergeHeaders_congr (fun _ => Iff.rfl) (fun _ _ => rfl) hsame]

/-- The same of the headers in a row. -/
lemma mergeHeaders_mergeHeaders {all : List Interface} {hs : List Header}
    (hsub : ∀ name ∈ primaries, name ∈ primaries')
    (hclasses : ∀ name ∈ primaryNames (hs.flatMap (·.interfaces)),
      name ∈ primaries)
    (hall : ∀ name ∈ primaries,
      namedAs name categories ++ namedAs name categories'
        = namedAs name all) :
    mergeHeaders primaries' categories' seen
        (mergeHeaders primaries categories seen hs)
      = mergeHeaders primaries' all seen hs := by
  induction hs generalizing seen with
  | nil => rfl
  | cons h hs ih =>
      rw [List.flatMap_cons, primaryNames_append, List.forall_mem_append]
        at hclasses
      rw [mergeHeaders, mergeHeaders, mergeHeaders,
        mergeInterfaces_mergeInterfaces hsub hclasses.1 hall,
        primaryNames_mergeInterfaces, ih hclasses.2]

/-- Headers that were merged, with others behind them, are merged as if they
had not been. -/
lemma mergeCategories_append (gs hs : List Header) :
    mergeCategories (mergeCategories gs ++ hs)
      = mergeCategories (gs ++ hs) := by
  let is := gs.flatMap (·.interfaces)
  let js := hs.flatMap (·.interfaces)
  let left := mergeInterfaces (primaryNames is) (is.filter (·.isCategory))
    [] is
  have hleft : (mergeCategories gs ++ hs).flatMap (·.interfaces)
      = left ++ js := by
    rw [List.flatMap_append, interfaces_mergeCategories]
  have hboth : (gs ++ hs).flatMap (·.interfaces) = is ++ js :=
    List.flatMap_append
  have hnames : primaryNames (left ++ js) = primaryNames (is ++ js) := by
    rw [primaryNames_append, primaryNames_mergeInterfaces,
      ← primaryNames_append]
  -- of the first headers only the categories without a class are left
  have hover : (left ++ js).filter (·.isCategory)
      = (is.filter (·.isCategory)).filter (·.name ∉ primaryNames is)
        ++ js.filter (·.isCategory) := by
    rw [List.filter_append, categories_mergeInterfaces]
  have hdeclared : ∀ name ∈ primaryNames is,
      namedAs name (is.filter (·.isCategory))
          ++ namedAs name ((left ++ js).filter (·.isCategory))
        = namedAs name ((is ++ js).filter (·.isCategory)) := by
    intro name hname
    rw [hover, namedAs_append, namedAs_others_of_mem hname,
      List.nil_append, ← namedAs_append, List.filter_append]
  have hundeclared : ∀ name, name ∉ primaryNames is ++ [] →
      namedAs name ((left ++ js).filter (·.isCategory))
        = namedAs name ((is ++ js).filter (·.isCategory)) := by
    intro name hname
    rw [List.append_nil] at hname
    rw [hover, namedAs_append, namedAs_others_of_not_mem hname,
      ← namedAs_append, List.filter_append]
  have hsub : ∀ name ∈ primaryNames is, name ∈ primaryNames (is ++ js) := by
    intro name hname
    rw [primaryNames_append]
    exact List.mem_append_left _ hname
  calc mergeCategories (mergeCategories gs ++ hs)
      = mergeHeaders (primaryNames (is ++ js))
          ((left ++ js).filter (·.isCategory)) []
          (mergeCategories gs ++ hs) := by
        rw [mergeCategories, hleft, hnames]
    _ = mergeHeaders (primaryNames (is ++ js))
            ((is ++ js).filter (·.isCategory)) [] gs
          ++ mergeHeaders (primaryNames (is ++ js))
            ((is ++ js).filter (·.isCategory)) (primaryNames is ++ []) hs := by
        rw [mergeHeaders_append, interfaces_mergeCategories,
          primaryNames_mergeInterfaces, mergeCategories,
          mergeHeaders_mergeHeaders hsub (fun _ => id) hdeclared,
          mergeHeaders_congr (fun _ => Iff.rfl) hundeclared fun _ => Iff.rfl]
    _ = mergeCategories (gs ++ hs) := by
        rw [mergeCategories, hboth, mergeHeaders_append]

/-- **Merging in two steps.**  Folding the categories of the first headers,
and then those of all headers, leaves each header as folding them all at
once does; and folding them again changes nothing. -/
theorem mergeCategories_take_drop (hs : List Header) :
    (∀ k, mergeCategories (mergeCategories (hs.take k) ++ hs.drop k)
        = mergeCategories hs)
      ∧ mergeCategories (mergeCategories hs) = mergeCategories hs := by
  constructor
  · intro k
    rw [mergeCategories_append, List.take_append_drop]
  · calc mergeCategories (mergeCategories hs)
        = mergeCategories (mergeCategories hs ++ []) := by
          rw [List.append_nil]
      _ = mergeCategories hs := by
          rw [mergeCategories_append, List.append_nil]

end HeaderBinding
