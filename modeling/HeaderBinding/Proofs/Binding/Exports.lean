/-
The members of classes and categories in their bindings.

* `exportedSelectors`: the selectors that the members of bound classes and
  categories stand for;
* `Interface.memberNames`, `Interface.withheldNames`: the members that a
  class or category declares, and those that are left out;
* `flatMap_mergeCategories_perm`: what goes over to a class from its
  categories is neither lost nor doubled by the merge;
* `exports_perm`: nor is any member lost or doubled in the declarations of
  some headers, apart from those that are left out;
* `exports_of_assembleHeaders?`: so in their bindings, which there are if no
  type in the headers leads to itself;
* `not_assembles_openAngle`: a type that is cut open does.
-/
import Mathlib.Data.List.Perm.Basic
import HeaderBinding.Proofs.Binding.Batch
import HeaderBinding.Proofs.Binding.Settled
import HeaderBinding.Proofs.Header.WellFormed

namespace HeaderBinding

/-! ### The merge -/

section Merge

variable {α : Type} {g : Interface → List α}

/-- What is kept of each category goes over to the class. -/
lemma flatMap_adoptAll_perm (hg : ∀ i c, (g (i.adopt c)).Perm (g i ++ g c))
    (categories : List Interface) (i : Interface) :
    (g (i.adoptAll categories)).Perm
      (g i ++ (categories.filter (·.name == i.name)).flatMap g) := by
  rw [Interface.adoptAll]
  generalize categories.filter (·.name == i.name) = own
  induction own generalizing i with
  | nil => simp
  | cons c own ih =>
      rw [List.foldl_cons, List.flatMap_cons, ← List.append_assoc]
      exact (ih _).trans ((hg i c).append_right _)

/-- What one of two tests lets through, where none lets through what the
other does. -/
lemma filter_or_perm {β : Type} {p q r : β → Bool}
    (hr : ∀ c, r c = (p c || q c)) (hpq : ∀ c, p c = true → q c = false)
    (cs : List β) :
    (cs.filter p ++ cs.filter q).Perm (cs.filter r) := by
  have hp : (cs.filter r).filter p = cs.filter p := by
    rw [List.filter_filter]
    refine List.filter_congr fun c _ => ?_
    rw [hr]
    cases p c <;> simp
  have hq : (cs.filter r).filter (!p ·) = cs.filter q := by
    rw [List.filter_filter]
    refine List.filter_congr fun c _ => ?_
    rw [hr]
    cases hc : p c with
    | false => simp
    | true => simp [hpq c hc]
  have hsplit := List.filter_append_perm p (cs.filter r)
  rwa [hp, hq] at hsplit

/-- The category is folded into a class that one of the names declares. -/
def Interface.isAdopted (primaries : List String) (i : Interface) : Bool :=
  i.isCategory && primaries.contains i.name

/-- In one row, categories leave their place and go over to the classes
that are declared first. -/
lemma flatMap_mergeInterfaces_perm
    (hg : ∀ i c, (g (i.adopt c)).Perm (g i ++ g c))
    (primaries : List String) (categories : List Interface)
    (seen : List String) (is : List Interface) :
    ((mergeInterfaces primaries categories seen is).flatMap g).Perm
      ((is.filter (!·.isAdopted primaries)).flatMap g
        ++ (categories.filter fun c =>
          (primaryNames is).contains c.name && !seen.contains c.name).flatMap
            g) := by
  induction is generalizing seen with
  | nil => simp [mergeInterfaces, primaryNames]
  | cons i is ih =>
      cases hi : i.isCategory with
      | true =>
          rw [primaryNames_cons_category hi]
          by_cases hdeclared : i.name ∈ primaries
          · rw [mergeInterfaces_adopted hi hdeclared,
              List.filter_cons_of_neg (by simp [Interface.isAdopted, hi,
                hdeclared])]
            exact ih seen
          · rw [mergeInterfaces_stray hi hdeclared,
              List.filter_cons_of_pos (by simp [Interface.isAdopted,
                hdeclared]), List.flatMap_cons, List.flatMap_cons,
              List.append_assoc]
            exact (ih seen).append_left _
      | false =>
          rw [primaryNames_cons_class hi,
            List.filter_cons_of_pos (by simp [Interface.isAdopted, hi]),
            List.flatMap_cons, List.append_assoc]
          by_cases hseen : i.name ∈ seen
          · have hsame : (categories.filter fun c =>
                (i.name :: primaryNames is).contains c.name
                  && !seen.contains c.name)
                = categories.filter fun c =>
                  (primaryNames is).contains c.name
                    && !seen.contains c.name := by
              refine List.filter_congr fun c _ => ?_
              by_cases hc : c.name = i.name <;> simp [hc, hseen]
            rw [mergeInterfaces_again hi hseen, List.flatMap_cons, hsame]
            exact (ih seen).append_left _
          · rw [mergeInterfaces_first hi hseen, List.flatMap_cons]
            have hown := flatMap_adoptAll_perm hg categories i
            have hsplit := filter_or_perm
              (p := (·.name == i.name))
              (q := fun c => (primaryNames is).contains c.name
                && !(i.name :: seen).contains c.name)
              (r := fun c => (i.name :: primaryNames is).contains c.name
                && !seen.contains c.name)
              (fun c => by by_cases hc : c.name = i.name <;> simp [hc, hseen])
              (fun c hc => by simp [beq_iff_eq.mp hc]) categories
            have hrest := hsplit.flatMap_right g
            rw [List.flatMap_append] at hrest
            refine (hown.append (ih (i.name :: seen))).trans ?_
            rw [List.append_assoc]
            refine List.Perm.append_left _ ?_
            exact List.perm_append_comm_assoc _ _ _ |>.trans
              (hrest.append_left _)

/-- The merge of some headers neither loses nor doubles anything. -/
theorem flatMap_mergeCategories_perm
    (hg : ∀ i c, (g (i.adopt c)).Perm (g i ++ g c)) (hs : List Header) :
    (((mergeCategories hs).flatMap (·.interfaces)).flatMap g).Perm
      ((hs.flatMap (·.interfaces)).flatMap g) := by
  rw [interfaces_mergeCategories]
  generalize hs.flatMap (·.interfaces) = is
  refine (flatMap_mergeInterfaces_perm hg _ _ [] is).trans ?_
  have hadopted : ((is.filter (·.isCategory)).filter fun c =>
        (primaryNames is).contains c.name && !List.contains [] c.name)
      = is.filter (·.isAdopted (primaryNames is)) := by
    rw [List.filter_filter]
    refine List.filter_congr fun c _ => ?_
    simp [Interface.isAdopted, Bool.and_comm]
  rw [hadopted, ← List.flatMap_append]
  exact (List.perm_append_comm.trans
    (List.filter_append_perm _ is)).flatMap_right g

end Merge

/-! ### Names of members -/

/-- The names of the properties and the selectors of the methods of a class
or category. -/
def Interface.memberNames (i : Interface) : List String :=
  i.properties.map (·.name)
    ++ (i.instanceMethods.map (·.selector)
      ++ i.classMethods.map (·.selector))

/-- The methods that a class without a default constructor does not get:
`init` of its objects, and `new` of its own. -/
def Interface.withheldNames (i : Interface) : List String :=
  if i.initUnavailable then
    (i.instanceMethods.map (·.selector)).filter (· = "init")
      ++ (i.classMethods.map (·.selector)).filter (· = "new")
  else []

/-- The members that a class or category is bound with. -/
def Interface.boundNames (i : Interface) : List String :=
  i.properties.map (·.name)
    ++ ((i.instanceMethods.filter (!isWithheld i "init" ·)).map (·.selector)
      ++ (i.classMethods.filter (!isWithheld i "new" ·)).map (·.selector))

/-- A class takes over the members of a category. -/
lemma memberNames_adopt_perm (i c : Interface) :
    (i.adopt c).memberNames.Perm (i.memberNames ++ c.memberNames) := by
  rw [List.perm_iff_count]
  intro name
  simp only [Interface.memberNames, Interface.adopt, List.map_append,
    List.count_append]
  omega

lemma map_filter_isWithheld (i : Interface) (selector : String)
    (ms : List Method) :
    (ms.filter (isWithheld i selector)).map (·.selector)
      = if i.initUnavailable then
          (ms.map (·.selector)).filter (· = selector)
        else [] := by
  cases hi : i.initUnavailable with
  | false => simp [isWithheld, hi]
  | true =>
      rw [if_pos rfl, List.filter_map]
      refine congrArg _ (List.filter_congr fun m _ => ?_)
      simp [isWithheld, hi, beq_eq_decide]

/-- Every member is bound or left out. -/
lemma boundNames_append_perm (i : Interface) :
    (i.boundNames ++ i.withheldNames).Perm i.memberNames := by
  have hsplit : ∀ selector (ms : List Method),
      ((ms.filter (!isWithheld i selector ·)).map (·.selector)
        ++ (ms.filter (isWithheld i selector)).map (·.selector)).Perm
        (ms.map (·.selector)) := by
    intro selector ms
    rw [← List.map_append]
    exact (List.perm_append_comm.trans
      (List.filter_append_perm _ ms)).map _
  have hwithheld : i.withheldNames
      = (i.instanceMethods.filter (isWithheld i "init")).map (·.selector)
        ++ (i.classMethods.filter (isWithheld i "new")).map
          (·.selector) := by
    rw [map_filter_isWithheld, map_filter_isWithheld,
      Interface.withheldNames]
    split <;> rfl
  have hinstance := hsplit "init" i.instanceMethods
  have hclass := hsplit "new" i.classMethods
  rw [hwithheld, Interface.boundNames, Interface.memberNames]
  rw [List.perm_iff_count] at hinstance hclass ⊢
  intro name
  have hinstance := hinstance name
  have hclass := hclass name
  simp only [List.count_append] at hinstance hclass ⊢
  omega

/-! ### Attributes -/

/-- The selectors that the `Export` attributes of a member name. -/
def Member.exports (m : Member) : List String :=
  (m.attributes.filter (·.name = "Export")).filterMap
    (·.args.head?.map unquoted)

/-- The declaration binds a class or a category. -/
def Declaration.bindsClass (d : Declaration) : Bool :=
  d.kind = .interface || d.kind = .category

/-- The selectors in the `Export` attributes of all members of classes and
categories. -/
def exportedSelectors (ds : List Declaration) : List String :=
  (ds.filter (·.bindsClass)).flatMap
    fun d => d.members.flatMap Member.exports

/-- Quotation marks around a text without any are taken off again. -/
lemma unquoted_quoted {s : String} (h : '"' ∉ s.toList) :
    unquoted (quoted s) = s := by
  have hquoted : (quoted s).toList = '"' :: (s.toList ++ ['"']) := by
    simp [quoted]
  have hends : ∀ cs ds : List Char, '"' ∉ cs → cs ≠ [] →
      (cs ++ ds).dropWhile (· = '"') = cs ++ ds := by
    intro cs ds hcs hne
    obtain ⟨c, rest, rfl⟩ := List.exists_cons_of_ne_nil hne
    have hc : c ≠ '"' := fun h => hcs (h ▸ List.mem_cons_self)
    rw [List.cons_append, List.dropWhile_cons_of_neg (by simpa using hc)]
  rw [unquoted, hquoted, List.dropWhile_cons_of_pos (by simp)]
  by_cases hs : s.toList = []
  · rw [hs]
    exact (String.toList_inj.mp (hs.trans rfl)).symm
  · rw [hends _ _ h hs, List.reverse_append]
    have hrev := hends s.toList.reverse [] (by simpa using h)
      (by simpa using hs)
    rw [List.append_nil] at hrev
    rw [List.reverse_singleton, List.singleton_append,
      List.dropWhile_cons_of_pos (by simp), hrev, List.reverse_reverse,
      String.ofList_toList]

/-- A member whose other attributes have other names. -/
lemma exports_of_others {m : Member} {as : List Attribute}
    {selector : String} {semantic? : Option String}
    (hm : m.attributes = as ++ [exportAttribute selector semantic?])
    (has : ∀ a ∈ as, a.name ≠ "Export") (hs : '"' ∉ selector.toList) :
    m.exports = [selector] := by
  have hnone : as.filter (·.name = "Export") = [] :=
    List.filter_eq_nil_iff.mpr fun a ha h => has a ha (of_decide_eq_true h)
  rw [Member.exports, hm, List.filter_append, hnone]
  simp [exportAttribute, unquoted_quoted hs]

variable {ctx : TypeContext}

lemma exports_bindProperty {site : MemberSite} {p : Property}
    (hs : '"' ∉ p.name.toList) :
    (bindProperty ctx site p).exports = [p.name] := by
  refine exports_of_others rfl ?_ hs
  simp only [List.forall_mem_append, staticAttribute,
    MemberSite.abstractAttribute]
  refine ⟨⟨?_, ?_⟩, ?_⟩ <;> split <;> simp [nullAllowed]

lemma exports_bindConstructor {owner : String} {m : Method}
    (hs : '"' ∉ m.selector.toList) :
    (bindConstructor ctx owner m).exports = [m.selector] := by
  refine exports_of_others rfl ?_ hs
  split <;> simp

lemma exports_bindMethod {site : MemberSite} {onClass : Bool} {m : Method}
    (hs : '"' ∉ m.selector.toList) :
    (bindMethod ctx site onClass m).exports = [m.selector] := by
  refine exports_of_others rfl ?_ hs
  simp only [List.forall_mem_append, staticAttribute,
    MemberSite.abstractAttribute]
  refine ⟨⟨⟨?_, ?_⟩, ?_⟩, ?_⟩ <;> split <;> simp [returnNullAllowed]

lemma exports_bindInstanceMethod {i : Interface} {m : Method}
    (hs : '"' ∉ m.selector.toList) :
    (bindInstanceMethod ctx i m).exports = [m.selector] := by
  rw [bindInstanceMethod]
  split
  · exact exports_bindConstructor hs
  · exact exports_bindMethod hs

/-- Members that each export one name export them in their order. -/
lemma flatMap_exports_map {β : Type} {f : β → Member} {name : β → String}
    {bs : List β} (h : ∀ b ∈ bs, (f b).exports = [name b]) :
    (bs.map f).flatMap Member.exports = bs.map name := by
  rw [List.flatMap_map, List.flatMap_congr h, List.map_eq_flatMap]

/-- A class or category whose names hold no quotation mark. -/
def Interface.IsPlain (i : Interface) : Prop :=
  ∀ name ∈ i.memberNames, '"' ∉ name.toList

/-- The bindings of a class or category export its members, but for those
that are left out. -/
lemma exports_bindInterface {i : Interface} (h : i.IsPlain) :
    (bindInterface ctx i).members.flatMap Member.exports = i.boundNames := by
  have hmembers : (bindInterface ctx i).members
      = bindInterfaceMembers ctx i := by
    unfold bindInterface
    split <;> rfl
  simp only [Interface.IsPlain, Interface.memberNames,
    List.forall_mem_append, List.forall_mem_map] at h
  obtain ⟨hproperties, hinstance, hclass⟩ := h
  rw [hmembers, bindInterfaceMembers, List.flatMap_append,
    List.flatMap_append, Interface.boundNames, List.append_assoc,
    flatMap_exports_map fun p hp => exports_bindProperty (hproperties p hp),
    flatMap_exports_map fun m hm => exports_bindInstanceMethod
      (hinstance m (List.mem_of_mem_filter hm)),
    flatMap_exports_map fun m hm => exports_bindMethod
      (hclass m (List.mem_of_mem_filter hm))]

/-! ### Headers -/

/-- The declarations of a header for classes and categories bind its
interfaces. -/
lemma filter_bindsClass_perm (ctx : TypeContext) (h : Header) :
    ((h.declarations ctx).filter (·.bindsClass)).Perm
      (h.interfaces.map (bindInterface ctx)) := by
  have hkinds := filter_or_perm (p := fun d : Declaration =>
      decide (d.kind = .interface)) (q := fun d => decide (d.kind = .category))
    (r := (·.bindsClass)) (fun _ => rfl)
    (fun d hd => by simp [of_decide_eq_true hd]) (h.declarations ctx)
  have hinterfaces := filter_or_perm (p := fun i : Interface =>
      decide (i.boundKind = .interface))
    (q := fun i => decide (i.boundKind = .category)) (r := fun _ => true)
    (fun i => by unfold Interface.boundKind; split <;> rfl)
    (fun i hi => by simp [of_decide_eq_true hi]) h.interfaces
  refine hkinds.symm.trans ?_
  rw [← ofKind, ← ofKind, ofKind_declarations, ofKind_declarations,
    Header.declarationsOf, Header.declarationsOf, Header.boundInterfaces,
    Header.boundInterfaces, ← List.map_append]
  rw [List.filter_true] at hinterfaces
  exact hinterfaces.map _

lemma exportedSelectors_append (ds es : List Declaration) :
    exportedSelectors (ds ++ es)
      = exportedSelectors ds ++ exportedSelectors es := by
  rw [exportedSelectors, List.filter_append, List.flatMap_append]
  rfl

/-- Some headers export what their interfaces are bound with. -/
lemma exportedSelectors_perm {ctx : TypeContext} {hs : List Header}
    (hplain : ∀ i ∈ hs.flatMap (·.interfaces), i.IsPlain) :
    (exportedSelectors (hs.map (Header.declarations ctx)).flatten).Perm
      ((hs.flatMap (·.interfaces)).flatMap Interface.boundNames) := by
  induction hs with
  | nil => rfl
  | cons h hs ih =>
      rw [List.flatMap_cons, List.forall_mem_append] at hplain
      have hone := (filter_bindsClass_perm ctx h).flatMap_right
        fun d => d.members.flatMap Member.exports
      rw [List.flatMap_map, List.flatMap_congr fun i hi =>
        exports_bindInterface (hplain.1 i hi)] at hone
      rw [List.map_cons, List.flatten_cons, exportedSelectors_append,
        List.flatMap_cons, List.flatMap_append]
      exact hone.append (ih hplain.2)

/-- No member that is read of a text has a quotation mark in its name. -/
lemma isPlain_of_mem_interfaces {rules : MacroRules} {file text : String}
    {i : Interface} (hi : i ∈ (readHeader rules file text).interfaces) :
    i.IsPlain := by
  have hwell := isWellFormed_of_mem_interfaces hi
  have hquote : isLabelChar '"' = false := by decide
  have hmethod : ∀ onClass, ∀ m ∈ i.methods onClass,
      '"' ∉ m.selector.toList := by
    intro onClass m hm hmem
    rcases (hwell.methods onClass m hm).1.spelled _ hmem with h | h
    · rw [hquote] at h
      cases h
    · exact absurd h (by decide)
  simp only [Interface.IsPlain, Interface.memberNames,
    List.forall_mem_append, List.forall_mem_map]
  exact ⟨fun p hp => (hwell.properties p hp).1.spelled.not_mem hquote,
    hmethod false, hmethod true⟩

/-- Taken together, the declarations of some texts export every property and
every method that the classes and categories in them declare, as often as
it is declared; only the methods `init` and `new` are left out, where the
class or category that holds them after the merge has no default
constructor. -/
theorem exports_perm (sources : List (MacroRules × String × String)) :
    let hs := sources.map fun s => readHeader s.1 s.2.1 s.2.2
    (exportedSelectors (assembleHeaders hs).flatten
        ++ ((mergeCategories hs).flatMap (·.interfaces)).flatMap
          Interface.withheldNames).Perm
      ((hs.flatMap (·.interfaces)).flatMap Interface.memberNames) := by
  intro hs
  have hmerge := flatMap_mergeCategories_perm memberNames_adopt_perm hs
  have hread : ∀ i ∈ hs.flatMap (·.interfaces), i.IsPlain := by
    intro i hi
    obtain ⟨h, hh, hi⟩ := List.mem_flatMap.mp hi
    obtain ⟨s, -, rfl⟩ := List.mem_map.mp hh
    exact isPlain_of_mem_interfaces hi
  -- a name in a merged interface comes from one of those that were read
  have hplain : ∀ i ∈ (mergeCategories hs).flatMap (·.interfaces),
      i.IsPlain := by
    intro i hi name hname
    obtain ⟨j, hj, hname⟩ := List.mem_flatMap.mp
      (hmerge.mem_iff.mp (List.mem_flatMap.mpr ⟨i, hi, hname⟩))
    exact hread j hj name hname
  refine List.Perm.trans ?_ hmerge
  refine ((exportedSelectors_perm hplain).append_right _).trans ?_
  refine (List.flatMap_append_perm _ _ _).trans ?_
  exact List.Perm.flatMap_left _ fun i _ => boundNames_append_perm i

/-- Some texts are bound exactly if no type in their headers leads to itself,
once the categories are folded; and then the bindings export every member
that is declared, as often as it is, but for the `init` and `new` of what
has no default constructor. -/
theorem exports_of_assembleHeaders?
    (sources : List (MacroRules × String × String)) :
    let hs := sources.map fun s => readHeader s.1 s.2.1 s.2.2
    ((assembleHeaders? hs).isSome = true
        ↔ ∀ h ∈ mergeCategories hs, h.Settles (.ofHeaders hs))
      ∧ ∀ dss, assembleHeaders? hs = some dss →
        (exportedSelectors dss.flatten
            ++ ((mergeCategories hs).flatMap (·.interfaces)).flatMap
              Interface.withheldNames).Perm
          ((hs.flatMap (·.interfaces)).flatMap Interface.memberNames) := by
  refine ⟨isSome_assembleHeaders?_iff, fun dss hdss => ?_⟩
  obtain ⟨-, rfl⟩ := assembleHeaders?_eq_some_iff.mp hdss
  exact exports_perm sources

/-- A class and a category in a header each.  The category takes the default
constructor away. -/
def docSources : List (MacroRules × String × String) :=
  [({}, "Doc.h", "@interface Doc\n- (id)init;\n- (void)save;\n@end\n"),
    ({}, "Doc+Copy.h",
      "@interface Doc (Copy)\nDOC_INIT_UNAVAILABLE\n- (id)copy;\n@end\n")]

theorem exports_of_assembleHeaders?_doc :
    let hs := docSources.map fun s => readHeader s.1 s.2.1 s.2.2
    ∃ dss, assembleHeaders? hs = some dss
      ∧ exportedSelectors dss.flatten = ["save", "copy"]
      ∧ ((mergeCategories hs).flatMap (·.interfaces)).flatMap
        Interface.withheldNames = ["init"]
      ∧ (exportedSelectors dss.flatten
          ++ ((mergeCategories hs).flatMap (·.interfaces)).flatMap
            Interface.withheldNames).Perm
        ((hs.flatMap (·.interfaces)).flatMap Interface.memberNames) := by
  intro hs
  have hsettled : (assembleHeaders? hs).isSome = true := by decide +kernel
  obtain ⟨dss, hdss⟩ := Option.isSome_iff_exists.mp hsettled
  refine ⟨dss, hdss, ?_, ?_,
    (exports_of_assembleHeaders? docSources).2 dss hdss⟩
  · obtain ⟨-, rfl⟩ := assembleHeaders?_eq_some_iff.mp hdss
    decide +kernel
  · decide +kernel

/-- A parameter whose type is cut at the comma, beside a class. -/
def openAngleText : String :=
  "extern void f(NSDictionary<NSString *, id> *d);\n"
    ++ "@interface A : NSObject\n- (void)run;\n@end\n"

/-- What is left of the type opens an angle bracket that is not closed.  All
of it is taken for the name of a generic type, which leads to itself, so that
no member of the class is exported. -/
theorem not_assembles_openAngle :
    let hs := [readHeader {} "A.h" openAngleText]
    (hs.flatMap (·.interfaces)).flatMap Interface.memberNames = ["run"]
      ∧ ((mergeCategories hs).flatMap (·.interfaces)).flatMap
        Interface.withheldNames = []
      ∧ mapStep (.ofHeaders hs) none "NSDictionary<NSString *".toList
        = .again "" "NSDictionary<NSString *".toList ""
      ∧ assembleHeaders? hs = none := by
  intro hs
  have hstep : mapStep (.ofHeaders hs) none "NSDictionary<NSString *".toList
      = .again "" "NSDictionary<NSString *".toList "" := by
    decide +kernel
  have hplace : ⟨none, "NSDictionary<NSString *", true⟩
      ∈ (mergeCategories hs).flatMap (·.places (.ofHeaders hs)) := by
    decide +kernel
  exact ⟨by decide +kernel, by decide +kernel, hstep,
    assembleHeaders?_eq_none hplace hstep⟩

end HeaderBinding
