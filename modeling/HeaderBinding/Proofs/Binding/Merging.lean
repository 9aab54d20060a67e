/-
What the merge of categories does to the interfaces of some headers.

* `mergeInterfaces_append`: it goes from left to right, where the classes
  on the left are declared before those on the right;
* `interfaces_mergeCategories`: over some headers it does what it does to
  all of their interfaces in one row;
* `map_mergeCategories`: nothing but the interfaces changes.
-/
import HeaderBinding.Proofs.Binding.Members

namespace HeaderBinding

variable {primaries : List String} {categories : List Interface}

lemma primaryNames_cons_category {i : Interface} (hi : i.isCategory = true)
    (is : List Interface) : primaryNames (i :: is) = primaryNames is := by
  simp [primaryNames, hi]

lemma primaryNames_cons_class {i : Interface} (hi : i.isCategory = false)
    (is : List Interface) :
    primaryNames (i :: is) = i.name :: primaryNames is := by
  simp [primaryNames, hi]

/-! ### One row of interfaces -/

section Row

variable {seen : List String} {i : Interface}

lemma mergeInterfaces_adopted (hi : i.isCategory = true)
    (hdeclared : i.name ∈ primaries) (is : List Interface) :
    mergeInterfaces primaries categories seen (i :: is)
      = mergeInterfaces primaries categories seen is := by
  rw [mergeInterfaces, if_pos hi,
    if_pos (List.contains_iff_mem.mpr hdeclared)]

lemma mergeInterfaces_stray (hi : i.isCategory = true)
    (hdeclared : i.name ∉ primaries) (is : List Interface) :
    mergeInterfaces primaries categories seen (i :: is)
      = i :: mergeInterfaces primaries categories seen is := by
  rw [mergeInterfaces, if_pos hi,
    if_neg (mt List.contains_iff_mem.mp hdeclared)]

lemma mergeInterfaces_again (hi : i.isCategory = false)
    (hseen : i.name ∈ seen) (is : List Interface) :
    mergeInterfaces primaries categories seen (i :: is)
      = i :: mergeInterfaces primaries categories seen is := by
  rw [mergeInterfaces, if_neg (by simp [hi]),
    if_pos (List.contains_iff_mem.mpr hseen)]

lemma mergeInterfaces_first (hi : i.isCategory = false)
    (hseen : i.name ∉ seen) (is : List Interface) :
    mergeInterfaces primaries categories seen (i :: is)
      = i.adoptAll categories
        :: mergeInterfaces primaries categories (i.name :: seen) is := by
  rw [mergeInterfaces, if_neg (by simp [hi]),
    if_neg (mt List.contains_iff_mem.mp hseen)]

end Row

/-- Of the names it only counts which classes are declared somewhere and
which before, and of the categories which a class has that is not declared
before. -/
lemma mergeInterfaces_congr {primaries' : List String}
    {categories' : List Interface} {seen seen' : List String}
    {is : List Interface} (hp : ∀ name, name ∈ primaries ↔ name ∈ primaries')
    (hc : ∀ name ∈ primaryNames is, name ∉ seen →
      categories.filter (·.name == name)
        = categories'.filter (·.name == name))
    (h : ∀ name ∈ primaryNames is, name ∈ seen ↔ name ∈ seen') :
    mergeInterfaces primaries categories seen is
      = mergeInterfaces primaries' categories' seen' is := by
  induction is generalizing seen seen' with
  | nil => rfl
  | cons i is ih =>
      cases hi : i.isCategory with
      | true =>
          rw [primaryNames_cons_category hi] at hc h
          by_cases hdeclared : i.name ∈ primaries
          · rw [mergeInterfaces_adopted hi hdeclared,
              mergeInterfaces_adopted hi ((hp _).mp hdeclared), ih hc h]
          · rw [mergeInterfaces_stray hi hdeclared,
              mergeInterfaces_stray hi (mt (hp _).mpr hdeclared), ih hc h]
      | false =>
          rw [primaryNames_cons_class hi, List.forall_mem_cons] at hc h
          by_cases hseen : i.name ∈ seen
          · rw [mergeInterfaces_again hi hseen,
              mergeInterfaces_again hi (h.1.mp hseen), ih hc.2 h.2]
          · have hcons : ∀ name ∈ primaryNames is,
                name ∈ i.name :: seen ↔ name ∈ i.name :: seen' :=
              fun name hname => by
                rw [List.mem_cons, List.mem_cons, h.2 name hname]
            have hrest : ∀ name ∈ primaryNames is, name ∉ i.name :: seen →
                categories.filter (·.name == name)
                  = categories'.filter (·.name == name) :=
              fun name hname hnew =>
                hc.2 name hname (mt (List.mem_cons_of_mem _) hnew)
            rw [mergeInterfaces_first hi hseen,
              mergeInterfaces_first hi (mt h.1.mpr hseen), ih hrest hcons,
              Interface.adoptAll, hc.1 hseen, Interface.adoptAll]

/-- The merge goes from left to right. -/
theorem mergeInterfaces_append (seen : List String)
    (xs ys : List Interface) :
    mergeInterfaces primaries categories seen (xs ++ ys)
      = mergeInterfaces primaries categories seen xs
        ++ mergeInterfaces primaries categories (primaryNames xs ++ seen)
          ys := by
  induction xs generalizing seen with
  | nil => rfl
  | cons i xs ih =>
      rw [List.cons_append]
      cases hi : i.isCategory with
      | true =>
          rw [primaryNames_cons_category hi]
          by_cases hdeclared : i.name ∈ primaries
          · rw [mergeInterfaces_adopted hi hdeclared,
              mergeInterfaces_adopted hi hdeclared, ih]
          · rw [mergeInterfaces_stray hi hdeclared,
              mergeInterfaces_stray hi hdeclared, ih, List.cons_append]
      | false =>
          rw [primaryNames_cons_class hi]
          by_cases hseen : i.name ∈ seen
          · rw [mergeInterfaces_again hi hseen,
              mergeInterfaces_again hi hseen, ih, List.cons_append,
              List.cons_inj_right, List.append_cancel_left_eq]
            refine mergeInterfaces_congr (fun _ => Iff.rfl) (fun _ _ _ => rfl)
              fun name _ => ?_
            rw [List.cons_append, List.mem_cons]
            exact (or_iff_right_of_imp fun h =>
              List.mem_append_right _ (h ▸ hseen)).symm
          · rw [mergeInterfaces_first hi hseen,
              mergeInterfaces_first hi hseen, ih, List.cons_append,
              List.cons_inj_right, List.append_cancel_left_eq]
            refine mergeInterfaces_congr (fun _ => Iff.rfl) (fun _ _ _ => rfl)
              fun name _ => ?_
            simp only [List.mem_append, List.mem_cons, or_left_comm,
              List.cons_append]

/-! ### Some headers -/

lemma interfaces_mergeHeaders (seen : List String) (hs : List Header) :
    (mergeHeaders primaries categories seen hs).flatMap (·.interfaces)
      = mergeInterfaces primaries categories seen
        (hs.flatMap (·.interfaces)) := by
  induction hs generalizing seen with
  | nil => rfl
  | cons h hs ih =>
      rw [mergeHeaders, List.flatMap_cons, List.flatMap_cons, ih,
        mergeInterfaces_append]

/-- Over some headers the merge does what it does to all of their
interfaces in one row. -/
theorem interfaces_mergeCategories (hs : List Header) :
    (mergeCategories hs).flatMap (·.interfaces)
      = mergeInterfaces (primaryNames (hs.flatMap (·.interfaces)))
        ((hs.flatMap (·.interfaces)).filter (·.isCategory)) []
        (hs.flatMap (·.interfaces)) :=
  interfaces_mergeHeaders [] hs

lemma map_mergeHeaders {α : Type} {f : Header → α}
    (hf : ∀ h is, f { h with interfaces := is } = f h)
    (seen : List String) (hs : List Header) :
    (mergeHeaders primaries categories seen hs).map f = hs.map f := by
  induction hs generalizing seen with
  | nil => rfl
  | cons h hs ih => rw [mergeHeaders, List.map_cons, List.map_cons, hf, ih]

/-- Nothing but the interfaces of the headers changes. -/
theorem map_mergeCategories {α : Type} {f : Header → α}
    (hf : ∀ h is, f { h with interfaces := is } = f h) (hs : List Header) :
    (mergeCategories hs).map f = hs.map f :=
  map_mergeHeaders hf [] hs

end HeaderBinding
