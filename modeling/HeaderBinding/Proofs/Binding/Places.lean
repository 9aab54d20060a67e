/-
Rules for the types of declarations.

* `TypeRule`: a rule that types are held to; `TypeRule.Lawful`: it lets the
  types pass that are no types of the header;
* `declarations_obey`: the declarations of a header obey a rule exactly if
  its places do, and so does the type of its constructors.
-/
import HeaderBinding.Proofs.Binding.Slots

namespace HeaderBinding

/-! ### Constructors -/

/-- The methods that are bound as constructors. -/
def Interface.constructors (i : Interface) : List Method :=
  (i.instanceMethods.filter (!isWithheld i "init" ·)).filter fun m =>
    m.isInitializer && m.returnsSelf i.name && !i.isCategory

/-- The methods of the header that are bound as constructors. -/
def Header.constructors (h : Header) : List Method :=
  h.interfaces.flatMap Interface.constructors

/-! ### Rules for types -/

lemma toList_brackets (type : String) :
    (type ++ "[]").toList = type.toList ++ ['['] ++ [']'] := by
  rw [String.toList_append, List.append_assoc]
  rfl

/-- A rule that types are held to, those of values and those of
parameters. -/
structure TypeRule where
  value : String → Prop
  argument : String → Prop

/-- The types that members get whatever the header says; constructors
apart. -/
def fixedTypes : List String :=
  ["", "void", "IntPtr", "NSString"]

/-- The rule is no stricter for parameters, takes an array like its
elements, and lets the types pass that are no types of the header. -/
structure TypeRule.Lawful (R : TypeRule) : Prop where
  argument : ∀ {type}, R.value type → R.argument type
  array : ∀ type, R.value (type ++ "[]") ↔ R.value type
  fixed : ∀ type ∈ fixedTypes, R.value type

/-- The types of the member and of its parameters obey the rule. -/
def Member.Obeys (R : TypeRule) (m : Member) : Prop :=
  R.value m.type ∧ ∀ p ∈ m.parameters, R.argument p.type

/-- The types of the members obey the rule, and those of a delegate. -/
def Declaration.Obeys (R : TypeRule) (d : Declaration) : Prop :=
  (∀ m ∈ d.members, m.Obeys R)
    ∧ (∀ type ∈ d.returnType?, R.value type)
    ∧ ∀ p ∈ d.parameters, R.argument p.type

/-- The C# type that the place gets. -/
def Place.boundType (ctx : TypeContext) (p : Place) : String :=
  (bindType ctx p.self? p.type).1

/-- The type that the place gets obeys the rule. -/
def Place.Obeys (R : TypeRule) (ctx : TypeContext) (p : Place) : Prop :=
  if p.isArgument then R.argument (p.boundType ctx)
  else R.value (p.boundType ctx)

section Obeys

variable {R : TypeRule} {ctx : TypeContext}

@[simp] lemma Place.obeys_argument (self? : Option String)
    (type : String) :
    Place.Obeys R ctx ⟨self?, type, true⟩
      ↔ R.argument (bindType ctx self? type).1 :=
  Iff.rfl

@[simp] lemma Place.obeys_value (self? : Option String)
    (type : String) :
    Place.Obeys R ctx ⟨self?, type, false⟩
      ↔ R.value (bindType ctx self? type).1 :=
  Iff.rfl

/-- A fact about what is made of each element of a list. -/
lemma forall_mem_mapIdx {α β : Type} {f : Nat → α → β} {P : β → Prop}
    {Q : α → Prop} (h : ∀ i a, P (f i a) ↔ Q a) (as : List α) :
    (∀ b ∈ as.mapIdx f, P b) ↔ ∀ a ∈ as, Q a := by
  constructor
  · intro hall a ha
    obtain ⟨i, hi, rfl⟩ := List.getElem_of_mem ha
    exact (h i _).mp (hall _ (List.mem_mapIdx.mpr ⟨i, hi, rfl⟩))
  · intro hall b hb
    obtain ⟨i, hi, rfl⟩ := List.mem_mapIdx.mp hb
    exact (h i _).mpr (hall _ (List.getElem_mem hi))

lemma bindParameters_obey (self? : Option String) (m : Method) :
    (∀ p ∈ (bindParameters ctx self? m).1, R.argument p.type)
      ↔ ∀ p ∈ m.argumentPlaces self?, p.Obeys R ctx := by
  simp only [bindParameters, Method.argumentPlaces, List.forall_mem_map]
  exact forall_mem_mapIdx
    (P := fun b : BoundParameter × Bool => R.argument b.1.type)
    (Q := fun p : Parameter => Place.Obeys R ctx ⟨self?, p.type, true⟩)
    (fun _ _ => Iff.rfl) m.parameters

lemma bindMethod_obeys (site : MemberSite) (onClass : Bool)
    (m : Method) :
    (bindMethod ctx site onClass m).Obeys R
      ↔ ∀ p ∈ m.places site.owner?, p.Obeys R ctx := by
  rw [Method.places, List.forall_mem_cons, ← bindParameters_obey]
  exact Iff.rfl

lemma bindConstructor_obeys (owner : String) (m : Method) :
    (bindConstructor ctx owner m).Obeys R
      ↔ R.value "NativeHandle"
        ∧ ∀ p ∈ m.argumentPlaces (some owner), p.Obeys R ctx := by
  rw [← bindParameters_obey]
  exact Iff.rfl

/-- Without parameters only the type of the member counts. -/
lemma Member.obeys_iff_type {m : Member} (hparams : m.parameters = []) :
    m.Obeys R ↔ R.value m.type := by
  refine and_iff_left ?_
  rw [hparams]
  exact fun _ hp => nomatch hp

lemma bindProperty_obeys (site : MemberSite) (p : Property) :
    (bindProperty ctx site p).Obeys R
      ↔ Place.Obeys R ctx ⟨site.owner?, p.type, false⟩ :=
  Member.obeys_iff_type rfl

lemma bindArgument_obeys (hR : R.Lawful) (p : Parameter) (index : Nat) :
    R.argument (bindArgument ctx p index).1.type
      ↔ (p.name ≠ restName → Place.Obeys R ctx ⟨none, p.type, true⟩) := by
  have hhandle : R.argument "IntPtr" :=
    hR.argument (hR.fixed "IntPtr" (by decide))
  unfold bindArgument
  split
  · rename_i hrest
    exact iff_of_true hhandle fun hne => absurd hrest hne
  · rename_i hrest
    exact (imp_iff_right hrest).symm

lemma bindFunction_obeys (hR : R.Lawful) (f : Function) :
    (bindFunction ctx f).Obeys R ↔ ∀ p ∈ f.places, p.Obeys R ctx := by
  rw [Function.places, List.forall_mem_cons, List.forall_mem_map]
  refine and_congr Iff.rfl ?_
  simp only [bindFunction, List.forall_mem_map, List.mem_filter, and_imp,
    decide_eq_true_eq]
  exact forall_mem_mapIdx
    (P := fun b : BoundParameter × Bool => R.argument b.1.type)
    (Q := fun p => p.name ≠ restName →
      Place.Obeys R ctx ⟨none, p.type, true⟩)
    (fun index p => bindArgument_obeys hR p index) f.parameters

lemma bindOptionalProperty_obey (hR : R.Lawful) (p : Property) :
    (∀ m ∈ bindOptionalProperty ctx p, m.Obeys R)
      ↔ Place.Obeys R ctx ⟨none, p.type, false⟩ := by
  have hgetter : (bindGetter ctx p).Obeys R
      ↔ Place.Obeys R ctx ⟨none, p.type, false⟩ :=
    Member.obeys_iff_type rfl
  have hsetter : R.value (bindType ctx none p.type).1 →
      (bindSetter ctx p).Obeys R := fun h =>
    ⟨hR.fixed "void" (by decide),
      List.forall_mem_singleton.mpr (hR.argument h)⟩
  rw [bindOptionalProperty, List.forall_mem_cons, hgetter]
  refine and_iff_left_of_imp fun h m hm => ?_
  split at hm
  · cases hm
  · obtain rfl := List.mem_singleton.mp hm
    exact hsetter h

lemma bindField_obeys (hR : R.Lawful) (f : StructField) :
    (bindField ctx f).Obeys R ↔ ∀ p ∈ f.places ctx, p.Obeys R ctx := by
  unfold bindField StructField.places StructField.elementType
  simp only
  split
  · rw [List.forall_mem_singleton, Place.obeys_value, ← hR.array]
    exact Member.obeys_iff_type rfl
  split
  · exact iff_of_true
      ((Member.obeys_iff_type rfl).mpr (hR.fixed "IntPtr" (by decide)))
      fun _ hp => nomatch hp
  · rw [List.forall_mem_singleton, Place.obeys_value]
    exact Member.obeys_iff_type rfl

lemma bindConstant_obeys (hR : R.Lawful) (f : Function) :
    (bindConstant ctx f).Obeys R
      ↔ ∀ p ∈ f.constantPlaces ctx, p.Obeys R ctx := by
  have htype : (bindConstant ctx f).type = constantType ctx f.returnType :=
    rfl
  rw [Member.obeys_iff_type rfl, htype, constantType,
    Function.constantPlaces]
  split
  · exact iff_of_true (hR.fixed "NSString" (by decide))
      fun _ hp => nomatch hp
  · rw [List.forall_mem_singleton, Place.obeys_value]

/-- Without a delegate's types only the members count. -/
lemma Declaration.obeys_iff_members {d : Declaration}
    (hreturn : d.returnType? = none) (hparams : d.parameters = []) :
    d.Obeys R ↔ ∀ m ∈ d.members, m.Obeys R := by
  rw [Declaration.Obeys, hreturn, hparams]
  exact and_iff_left ⟨fun _ ht => (nomatch ht), fun _ hp => nomatch hp⟩

lemma bindEnum_obeys (hR : R.Lawful) (e : EnumDef) (name : String) :
    (bindEnum e name).Obeys R :=
  (Declaration.obeys_iff_members rfl rfl).mpr <|
    List.forall_mem_map.mpr fun _ _ =>
      (Member.obeys_iff_type rfl).mpr (hR.fixed "" (by decide))

lemma bindInstanceMethod_obeys (i : Interface) (m : Method) :
    (bindInstanceMethod ctx i m).Obeys R
      ↔ ((m.isInitializer && m.returnsSelf i.name && !i.isCategory) = true →
          R.value "NativeHandle")
        ∧ ∀ p ∈ i.methodPlaces m, p.Obeys R ctx := by
  unfold bindInstanceMethod Interface.methodPlaces
  split
  · rename_i h
    rw [bindConstructor_obeys, imp_iff_right h]
  · rename_i h
    rw [bindMethod_obeys, and_iff_right fun hm => absurd hm h]
    rfl

lemma bindInterfaceMembers_obey (i : Interface) :
    (∀ m ∈ bindInterfaceMembers ctx i, m.Obeys R)
      ↔ (∀ m ∈ i.constructors, R.value "NativeHandle")
        ∧ ∀ p ∈ i.places, p.Obeys R ctx := by
  have hinstance : ∀ ms : List Method,
      (∀ m ∈ ms, (bindInstanceMethod ctx i m).Obeys R)
        ↔ (∀ m ∈ ms.filter fun m =>
            m.isInitializer && m.returnsSelf i.name && !i.isCategory,
              R.value "NativeHandle")
          ∧ ∀ m ∈ ms, ∀ p ∈ i.methodPlaces m, p.Obeys R ctx := by
    intro ms
    simp only [bindInstanceMethod_obeys, List.mem_filter, and_imp,
      forall_and]
  simp only [bindInterfaceMembers, Interface.places,
    Interface.constructors, List.forall_mem_append, List.forall_mem_map,
    List.forall_mem_flatMap, bindProperty_obeys, bindMethod_obeys,
    hinstance, MemberSite.owner?]
  tauto

lemma bindInterface_obeys (i : Interface) :
    (bindInterface ctx i).Obeys R
      ↔ (∀ m ∈ i.constructors, R.value "NativeHandle")
        ∧ ∀ p ∈ i.places, p.Obeys R ctx := by
  rw [← bindInterfaceMembers_obey]
  unfold bindInterface
  split
  · exact Declaration.obeys_iff_members rfl rfl
  · exact Declaration.obeys_iff_members rfl rfl

lemma bindProtocol_obeys (hR : R.Lawful) (p : Protocol) :
    (bindProtocol ctx p).Obeys R ↔ ∀ q ∈ p.places, q.Obeys R ctx := by
  have hproperty : ∀ q, (∀ m ∈ bindProtocolProperty ctx q, m.Obeys R)
      ↔ Place.Obeys R ctx ⟨none, q.type, false⟩ := by
    intro q
    unfold bindProtocolProperty
    split
    · exact bindOptionalProperty_obey hR q
    · exact List.forall_mem_singleton.trans (bindProperty_obeys .required q)
  refine (Declaration.obeys_iff_members rfl rfl).trans ?_
  simp only [bindProtocol, Protocol.places, List.forall_mem_append,
    List.forall_mem_map, List.forall_mem_flatMap, List.flatMap_append,
    bindMethod_obeys, hproperty, MemberSite.owner?]
  tauto

lemma bindStruct_obeys (hR : R.Lawful) (s : StructDef) :
    (bindStruct ctx s).Obeys R
      ↔ ∀ p ∈ (s.fields.filter (·.name ≠ "")).flatMap (·.places ctx),
        p.Obeys R ctx := by
  refine (Declaration.obeys_iff_members rfl rfl).trans ?_
  simp only [bindStruct, List.forall_mem_map, List.forall_mem_flatMap,
    bindField_obeys hR]

lemma bindDelegate_obeys (a : Alias) :
    (bindDelegate ctx a).Obeys R ↔ ∀ p ∈ a.places, p.Obeys R ctx := by
  have hreturn : ∀ s : String, (∀ type ∈ some (bindType ctx none s).1,
      R.value type) ↔ Place.Obeys R ctx ⟨none, s, false⟩ := fun s =>
    ⟨fun hall => hall _ rfl,
      fun hs type htype => Option.some.inj htype ▸ hs⟩
  simp only [Declaration.Obeys, bindDelegate, Alias.places,
    List.forall_mem_cons, List.forall_mem_map, hreturn]
  refine (and_iff_right fun _ hm => nomatch hm).trans
    (and_congr_right fun _ => ?_)
  exact forall_mem_mapIdx (P := fun p : BoundParameter =>
      R.argument p.type)
    (Q := fun cs : List Char => Place.Obeys R ctx ⟨none,
      String.ofList ((splitBlockParameter? cs).getD (cs, [])).1, true⟩)
    (fun _ _ => Iff.rfl) _

/-- The declarations of a header obey a rule exactly if its places do, and
the type of its constructors, if there are any. -/
theorem declarations_obey (hR : R.Lawful) (ctx : TypeContext)
    (h : Header) :
    (∀ d ∈ h.declarations ctx, d.Obeys R)
      ↔ (∀ m ∈ h.constructors, R.value "NativeHandle")
        ∧ ∀ p ∈ h.places ctx, p.Obeys R ctx := by
  have henums : ∀ d ∈ bindEnums 0 h.enums, d.Obeys R := by
    intro d hd
    obtain ⟨e, -, name, rfl⟩ := mem_bindEnums hd
    exact bindEnum_obeys hR e name
  have hfunctions : (∀ d ∈ bindFunctions ctx h.functions, d.Obeys R)
      ↔ ∀ f ∈ h.boundFunctions, (bindFunction ctx f).Obeys R :=
    forall_bindFunctions fun _ =>
      (Declaration.obeys_iff_members rfl rfl).trans List.forall_mem_map
  have hconstants : (∀ d ∈ bindConstants ctx h.functions, d.Obeys R)
      ↔ ∀ f ∈ h.boundConstants, (bindConstant ctx f).Obeys R :=
    forall_bindConstants fun _ =>
      (Declaration.obeys_iff_members rfl rfl).trans List.forall_mem_map
  rw [forall_declarations, and_iff_right henums, hfunctions, hconstants]
  simp only [Header.places, Header.constructors, List.forall_mem_append,
    List.forall_mem_flatMap, bindStruct_obeys hR, bindFunction_obeys hR,
    bindConstant_obeys hR, bindProtocol_obeys hR, bindInterface_obeys,
    bindDelegate_obeys, forall_and]
  tauto

end Obeys

end HeaderBinding
