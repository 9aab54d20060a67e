/-
The declarations that bind one header.

* `assembleHeader_eq`: they are those of the header with its categories
  folded, in the terms of its own names;
* `forall_mem_mergeInterfaces`: what classes and categories have and keep
  when they take over one another, all have after the merge;
* `exists_mem_mergeInterfaces`: every class is still there;
* `forall_declarations`: a fact about all declarations is one about each
  enumeration, structure, function, variable, protocol, class and block
  type.
-/
import HeaderBinding.Binding.Place
import HeaderBinding.Proofs.Mapping.Declared

namespace HeaderBinding

/-! ### Folding categories -/

/-- The header with its categories folded into its classes. -/
def Header.merged (h : Header) : Header :=
  { h with
    interfaces := mergeInterfaces (primaryNames h.interfaces)
      (h.interfaces.filter (·.isCategory)) [] h.interfaces }

lemma mergeCategories_singleton (h : Header) :
    mergeCategories [h] = [h.merged] := by
  simp only [mergeCategories, mergeHeaders, List.flatMap_cons,
    List.flatMap_nil, List.append_nil, Header.merged]

theorem assembleHeader_eq (h : Header) :
    assembleHeader h = h.merged.declarations (.ofHeader h) := by
  rw [assembleHeader, assembleHeaders, mergeCategories_singleton,
    List.map_singleton, List.flatten_singleton, TypeContext.ofHeader]

section Merge

variable {P : Interface → Prop} {categories : List Interface}

lemma adoptAll_of_forall {i : Interface}
    (hadopt : ∀ i c, P i → P c → c.name = i.name → P (i.adopt c))
    (hcats : ∀ c ∈ categories, P c) (hi : P i) :
    P (i.adoptAll categories) := by
  have hall : ∀ c ∈ categories.filter (·.name == i.name),
      P c ∧ c.name = i.name := fun c hc =>
    ⟨hcats c (List.mem_filter.mp hc).1,
      eq_of_beq (List.mem_filter.mp hc).2⟩
  rw [Interface.adoptAll]
  generalize hname : i.name = name at hall
  generalize categories.filter (·.name == name) = cs at hall
  induction cs generalizing i with
  | nil => exact hi
  | cons c cs ih =>
      obtain ⟨⟨hc, hcn⟩, hrest⟩ := List.forall_mem_cons.mp hall
      exact ih (hadopt i c hi hc (hcn.trans hname.symm)) hname hrest

/-- What all interfaces have and keep when they take over one another,
they have after the merge. -/
theorem forall_mem_mergeInterfaces {primaries seen : List String}
    {is : List Interface}
    (hadopt : ∀ i c, P i → P c → c.name = i.name → P (i.adopt c))
    (hcats : ∀ c ∈ categories, P c) (his : ∀ i ∈ is, P i) :
    ∀ i ∈ mergeInterfaces primaries categories seen is, P i := by
  induction is generalizing seen with
  | nil => exact fun _ hi => nomatch hi
  | cons i is ih =>
      obtain ⟨hi, hrest⟩ := List.forall_mem_cons.mp his
      rw [mergeInterfaces]
      split
      · split
        · exact ih hrest
        · exact List.forall_mem_cons.mpr ⟨hi, ih hrest⟩
      · split
        · exact List.forall_mem_cons.mpr ⟨hi, ih hrest⟩
        · exact List.forall_mem_cons.mpr
            ⟨adoptAll_of_forall hadopt hcats hi, ih hrest⟩

lemma adoptAll_name (categories : List Interface) (i : Interface) :
    (i.adoptAll categories).name = i.name
      ∧ (i.adoptAll categories).category? = i.category? :=
  ⟨foldl_eq (f := Interface.adopt) (v := (·.name)) (fun _ _ => rfl) _ i,
    foldl_eq (f := Interface.adopt) (v := (·.category?))
      (fun _ _ => rfl) _ i⟩

/-- A class is still there after the merge. -/
theorem exists_mem_mergeInterfaces {primaries seen : List String}
    {is : List Interface} {i : Interface} (hi : i ∈ is)
    (hprimary : i.category? = none) :
    ∃ j ∈ mergeInterfaces primaries categories seen is,
      j.name = i.name ∧ j.category? = none := by
  induction is generalizing seen with
  | nil => cases hi
  | cons k is ih =>
      rw [mergeInterfaces]
      rcases List.mem_cons.mp hi with rfl | hi
      · rw [if_neg (by simp [Interface.isCategory, hprimary])]
        split
        · exact ⟨i, List.mem_cons_self, rfl, hprimary⟩
        · obtain ⟨hname, hcat⟩ := adoptAll_name categories i
          exact ⟨_, List.mem_cons_self, hname, hcat.trans hprimary⟩
      · split
        · split
          · exact ih hi
          · exact (ih hi).imp fun j hj => hj.imp_left (List.mem_cons_of_mem _)
        · split
          all_goals
            exact (ih hi).imp fun j hj => hj.imp_left (List.mem_cons_of_mem _)

end Merge

/-! ### Declarations -/

/-- Each declaration for an enumeration is bound under some name. -/
lemma mem_bindEnums {d : Declaration} {anonymous : Nat}
    {es : List EnumDef} (h : d ∈ bindEnums anonymous es) :
    ∃ e ∈ es, ∃ name, d = bindEnum e name := by
  fun_induction bindEnums anonymous es with
  | case1 => cases h
  | case2 anonymous e es name hname ih =>
      rcases List.mem_cons.mp h with rfl | h
      · exact ⟨e, List.mem_cons_self, name, rfl⟩
      · exact (ih h).imp fun _ he => he.imp_left (List.mem_cons_of_mem _)
  | case3 anonymous e es hname hcases ih =>
      exact (ih h).imp fun _ he => he.imp_left (List.mem_cons_of_mem _)
  | case4 anonymous e es hname hcases ih =>
      rcases List.mem_cons.mp h with rfl | h
      · exact ⟨e, List.mem_cons_self, _, rfl⟩
      · exact (ih h).imp fun _ he => he.imp_left (List.mem_cons_of_mem _)

/-- The enumerations that are declared: those with a name or a case. -/
def Header.boundEnums (h : Header) : List EnumDef :=
  h.enums.filter fun e =>
    (e.name?.filter (· ≠ "")).isSome || !e.cases.isEmpty

/-- A fact about the declarations of enumerations that their names do not
matter for is one about each of them. -/
lemma forall_bindEnums {P : Declaration → Prop} {Q : EnumDef → Prop}
    {h : Header} (hP : ∀ e name, P (bindEnum e name) ↔ Q e) :
    (∀ d ∈ bindEnums 0 h.enums, P d) ↔ ∀ e ∈ h.boundEnums, Q e := by
  rw [Header.boundEnums]
  generalize 0 = anonymous
  fun_induction bindEnums anonymous h.enums with
  | case1 =>
      exact iff_of_true (fun _ hd => nomatch hd) fun _ he => nomatch he
  | case2 anonymous e es name hname ih =>
      rw [List.filter_cons_of_pos (by rw [hname]; rfl),
        List.forall_mem_cons, List.forall_mem_cons, ih, hP]
  | case3 anonymous e es hname hcases ih =>
      rw [List.filter_cons_of_neg (by rw [hname, hcases]; decide), ih]
  | case4 anonymous e es hname hcases ih =>
      rw [List.filter_cons_of_pos (by simp [hcases]),
        List.forall_mem_cons, List.forall_mem_cons, ih, hP]

/-- An enumeration with a name is bound under it. -/
lemma bindEnum_mem {e : EnumDef} {name : String} (hname : name ≠ "")
    (he : e.name? = some name) {es : List EnumDef} (hmem : e ∈ es)
    (anonymous : Nat) : bindEnum e name ∈ bindEnums anonymous es := by
  have hfilter : e.name?.filter (· ≠ "") = some name := by
    rw [he, Option.filter_some, if_pos (by simpa using hname)]
  fun_induction bindEnums anonymous es with
  | case1 => cases hmem
  | case2 anonymous k es n hn ih =>
      rcases List.mem_cons.mp hmem with rfl | hmem
      · obtain rfl := Option.some.inj (hfilter.symm.trans hn)
        exact List.mem_cons_self
      · exact List.mem_cons_of_mem _ (ih hmem)
  | case3 anonymous k es hn hcases ih =>
      rcases List.mem_cons.mp hmem with rfl | hmem
      · cases hfilter.symm.trans hn
      · exact ih hmem
  | case4 anonymous k es hn hcases ih =>
      rcases List.mem_cons.mp hmem with rfl | hmem
      · cases hfilter.symm.trans hn
      · exact List.mem_cons_of_mem _ (ih hmem)

/-- A fact about the class of the functions is one about each of them. -/
lemma forall_bindFunctions {P : Declaration → Prop} {Q : Function → Prop}
    {ctx : TypeContext} {h : Header}
    (hP : ∀ fs : List Function,
      P { kind := .functions
          name := "CFunctions"
          members := fs.map (bindFunction ctx) }
        ↔ ∀ f ∈ fs, Q f) :
    (∀ d ∈ bindFunctions ctx h.functions, P d)
      ↔ ∀ f ∈ h.boundFunctions, Q f := by
  rw [bindFunctions, Header.boundFunctions]
  cases h.functions.filter fun f => !f.isInline && !f.isConstant with
  | nil => exact ⟨fun _ _ hf => (nomatch hf), fun _ _ hd => nomatch hd⟩
  | cons f fs => exact List.forall_mem_singleton.trans (hP (f :: fs))

/-- A fact about the interface of the variables is one about each of
them. -/
lemma forall_bindConstants {P : Declaration → Prop} {Q : Function → Prop}
    {ctx : TypeContext} {h : Header}
    (hP : ∀ fs : List Function,
      P { kind := .constants
          name := "Constants"
          attributes := [⟨"Static", [], none⟩]
          members := fs.map (bindConstant ctx) }
        ↔ ∀ f ∈ fs, Q f) :
    (∀ d ∈ bindConstants ctx h.functions, P d)
      ↔ ∀ f ∈ h.boundConstants, Q f := by
  rw [bindConstants, Header.boundConstants]
  cases h.functions.filter fun f => !f.isInline && f.isConstant with
  | nil => exact ⟨fun _ _ hf => (nomatch hf), fun _ _ hd => nomatch hd⟩
  | cons f fs => exact List.forall_mem_singleton.trans (hP (f :: fs))

/-- A fact about all declarations is one about those of each kind. -/
theorem forall_declarations {P : Declaration → Prop} (ctx : TypeContext)
    (h : Header) :
    (∀ d ∈ h.declarations ctx, P d)
      ↔ (∀ d ∈ bindEnums 0 h.enums, P d)
        ∧ (∀ s ∈ h.boundStructs, P (bindStruct ctx s))
        ∧ (∀ d ∈ bindFunctions ctx h.functions, P d)
        ∧ (∀ d ∈ bindConstants ctx h.functions, P d)
        ∧ (∀ p ∈ h.protocols, P (bindProtocol ctx p))
        ∧ (∀ i ∈ h.interfaces, P (bindInterface ctx i))
        ∧ ∀ a ∈ h.boundBlocks, P (bindDelegate ctx a) := by
  simp only [Header.declarations, bindStructs, Header.boundStructs,
    Header.boundBlocks, List.forall_mem_append, List.forall_mem_map,
    and_assoc]

end HeaderBinding
