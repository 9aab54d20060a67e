/-
The attributes of the declarations of a header.

* `Declaration.allAttributes`: those of a declaration, with those of its
  members and parameters;
* `Declaration.IsPlain`: they are all of `Foundation`;
* `declarations_cases`: so it is for all but enumerations, structures and
  the class of the functions;
* `exists_native_iff`, `hasFlags_of_attribute`, `needsInterop_of_attribute`:
  what it takes for an attribute of another namespace.
-/
import HeaderBinding.Binding.Using
import HeaderBinding.Proofs.Binding.Places

namespace HeaderBinding

/-! ### Attributes of `Foundation` -/

/-- The attributes of the member, of its parameters and accessors. -/
def Member.allAttributes (m : Member) : List Attribute :=
  m.attributes ++ m.parameters.flatMap (·.attributes)
    ++ m.accessors.flatMap (·.attributes)

/-- The attributes of the declaration, of its members and parameters. -/
def Declaration.allAttributes (d : Declaration) : List Attribute :=
  d.attributes ++ d.members.flatMap (·.allAttributes)
    ++ d.parameters.flatMap (·.attributes)

/-- The names of the attributes of `Foundation`. -/
def plainAttributes : List String :=
  ["Static", "Abstract", "Async", "NullAllowed", "Export", "Bind",
    "DesignatedInitializer", "Notification", "Field", "Protocol",
    "BaseType", "Category", "DisableDefaultCtor"]

/-- The attribute is one of `Foundation`. -/
def Attribute.IsPlain (a : Attribute) : Prop :=
  a.name ∈ plainAttributes

/-- All attributes of the member are of `Foundation`. -/
def Member.IsPlain (m : Member) : Prop :=
  ∀ a ∈ m.allAttributes, a.IsPlain

/-- All attributes of the declaration are of `Foundation`. -/
def Declaration.IsPlain (d : Declaration) : Prop :=
  ∀ a ∈ d.allAttributes, a.IsPlain

instance (a : Attribute) : Decidable a.IsPlain :=
  inferInstanceAs (Decidable (_ ∈ _))

section Plain

variable {ctx : TypeContext}

/-- What holds of the one element of a list that may be empty. -/
lemma forall_mem_guarded {α : Type} {P : α → Prop} {c : Prop}
    [Decidable c] {a : α} (h : P a) : ∀ b ∈ if c then [a] else [], P b := by
  split
  · exact List.forall_mem_singleton.mpr h
  · exact fun _ hb => nomatch hb

lemma exportAttribute_plain (selector : String) (semantic? : Option String) :
    ∀ a ∈ [exportAttribute selector semantic?], a.IsPlain :=
  List.forall_mem_singleton.mpr (show "Export" ∈ plainAttributes by decide)

lemma staticAttribute_plain (onClass : Bool) :
    ∀ a ∈ staticAttribute onClass, a.IsPlain :=
  forall_mem_guarded (by decide)

lemma abstractAttribute_plain (site : MemberSite) :
    ∀ a ∈ site.abstractAttribute, a.IsPlain :=
  forall_mem_guarded (by decide)

lemma bindParameter_plain (self? : Option String) (scope : Bool)
    (p : Parameter) (index : Nat) :
    ∀ a ∈ (bindParameter ctx self? scope p index).1.attributes,
      a.IsPlain := by
  simp only [bindParameter]
  exact forall_mem_guarded (by decide)

lemma bindParameters_plain (self? : Option String) (m : Method) :
    ∀ p ∈ (bindParameters ctx self? m).1, ∀ a ∈ p.attributes,
      a.IsPlain := by
  simp only [bindParameters, List.forall_mem_map]
  intro b hb
  obtain ⟨index, hindex, rfl⟩ := List.mem_mapIdx.mp hb
  exact bindParameter_plain self? _ _ index

lemma bindAccessor_plain (kind : AccessorKind) (p : Property) :
    ∀ a ∈ (bindAccessor kind p).attributes, a.IsPlain :=
  List.forall_mem_map.mpr fun _ _ =>
    show "Bind" ∈ plainAttributes by decide

/-- A member is plain if its parts are. -/
lemma Member.isPlain_of_parts {m : Member}
    (hattributes : ∀ a ∈ m.attributes, a.IsPlain)
    (hparams : ∀ p ∈ m.parameters, ∀ a ∈ p.attributes, a.IsPlain)
    (haccessors : ∀ c ∈ m.accessors, ∀ a ∈ c.attributes, a.IsPlain) :
    m.IsPlain :=
  List.forall_mem_append.mpr ⟨List.forall_mem_append.mpr
    ⟨hattributes, List.forall_mem_flatMap.mpr hparams⟩,
      List.forall_mem_flatMap.mpr haccessors⟩

lemma bindMethod_plain (site : MemberSite) (onClass : Bool) (m : Method) :
    (bindMethod ctx site onClass m).IsPlain := by
  refine Member.isPlain_of_parts ?_ (bindParameters_plain site.owner? m)
    fun _ hc => nomatch hc
  simp only [bindMethod, List.forall_mem_append]
  exact ⟨⟨⟨⟨staticAttribute_plain onClass, abstractAttribute_plain site⟩,
    forall_mem_guarded (by decide)⟩, forall_mem_guarded (by decide)⟩,
      exportAttribute_plain _ _⟩

lemma bindConstructor_plain (owner : String) (m : Method) :
    (bindConstructor ctx owner m).IsPlain := by
  refine Member.isPlain_of_parts ?_ (bindParameters_plain (some owner) m)
    fun _ hc => nomatch hc
  exact List.forall_mem_append.mpr
    ⟨forall_mem_guarded (by decide), exportAttribute_plain _ _⟩

lemma bindProperty_plain (site : MemberSite) (p : Property) :
    (bindProperty ctx site p).IsPlain := by
  refine Member.isPlain_of_parts ?_ (fun _ hp => nomatch hp) ?_
  · simp only [bindProperty, List.forall_mem_append]
    exact ⟨⟨⟨staticAttribute_plain _, abstractAttribute_plain site⟩,
      forall_mem_guarded (by decide)⟩, exportAttribute_plain _ _⟩
  · refine List.forall_mem_cons.mpr ⟨bindAccessor_plain .get p, ?_⟩
    split
    · exact fun _ hc => nomatch hc
    · exact List.forall_mem_singleton.mpr (bindAccessor_plain .set p)

lemma bindOptionalProperty_plain (p : Property) :
    ∀ m ∈ bindOptionalProperty ctx p, m.IsPlain := by
  have hgetter : (bindGetter ctx p).IsPlain := by
    refine Member.isPlain_of_parts ?_ (fun _ hp => nomatch hp)
      fun _ hc => nomatch hc
    simp only [bindGetter, List.forall_mem_append]
    exact ⟨⟨staticAttribute_plain _, forall_mem_guarded (by decide)⟩,
      exportAttribute_plain _ _⟩
  have hsetter : (bindSetter ctx p).IsPlain := by
    refine Member.isPlain_of_parts ?_ ?_ fun _ hc => nomatch hc
    · exact List.forall_mem_append.mpr
        ⟨staticAttribute_plain _, exportAttribute_plain _ _⟩
    · exact List.forall_mem_singleton.mpr (forall_mem_guarded (by decide))
  refine List.forall_mem_cons.mpr ⟨hgetter, ?_⟩
  split
  · exact fun _ hm => nomatch hm
  · exact List.forall_mem_singleton.mpr hsetter

lemma bindConstant_plain (f : Function) : (bindConstant ctx f).IsPlain := by
  refine Member.isPlain_of_parts ?_ (fun _ hp => nomatch hp)
    (List.forall_mem_singleton.mpr fun _ ha => nomatch ha)
  refine List.forall_mem_append.mpr ⟨forall_mem_guarded (by decide), ?_⟩
  exact List.forall_mem_singleton.mpr
    (show "Field" ∈ plainAttributes by decide)

/-- A declaration is plain if its parts are. -/
lemma Declaration.isPlain_of_parts {d : Declaration}
    (hattributes : ∀ a ∈ d.attributes, a.IsPlain)
    (hmembers : ∀ m ∈ d.members, m.IsPlain)
    (hparams : ∀ p ∈ d.parameters, ∀ a ∈ p.attributes, a.IsPlain) :
    d.IsPlain :=
  List.forall_mem_append.mpr ⟨List.forall_mem_append.mpr
    ⟨hattributes, List.forall_mem_flatMap.mpr hmembers⟩,
      List.forall_mem_flatMap.mpr hparams⟩

lemma baseTypeAttribute_plain (name : String) :
    (baseTypeAttribute name).IsPlain :=
  show "BaseType" ∈ plainAttributes by decide

lemma bindProtocol_plain (p : Protocol) : (bindProtocol ctx p).IsPlain := by
  refine Declaration.isPlain_of_parts ?_ ?_ fun _ hp => nomatch hp
  · exact List.forall_mem_cons.mpr ⟨by decide,
      List.forall_mem_singleton.mpr (baseTypeAttribute_plain _)⟩
  · have hproperty : ∀ q, ∀ m ∈ bindProtocolProperty ctx q, m.IsPlain := by
      intro q
      unfold bindProtocolProperty
      split
      · exact bindOptionalProperty_plain q
      · exact List.forall_mem_singleton.mpr (bindProperty_plain _ q)
    simp only [bindProtocol, List.forall_mem_append, List.forall_mem_map,
      List.forall_mem_flatMap]
    exact ⟨⟨⟨⟨fun m _ => bindMethod_plain _ _ m,
      fun m _ => bindMethod_plain _ _ m⟩, fun q _ => hproperty q⟩,
      fun m _ => bindMethod_plain _ _ m⟩, fun m _ => bindMethod_plain _ _ m⟩

lemma bindInterfaceMembers_plain (i : Interface) :
    ∀ m ∈ bindInterfaceMembers ctx i, m.IsPlain := by
  have hinstance : ∀ m, (bindInstanceMethod ctx i m).IsPlain := by
    intro m
    unfold bindInstanceMethod
    split
    · exact bindConstructor_plain i.name m
    · exact bindMethod_plain _ _ m
  simp only [bindInterfaceMembers, List.forall_mem_append,
    List.forall_mem_map]
  exact ⟨⟨fun p _ => bindProperty_plain _ p, fun m _ => hinstance m⟩,
    fun m _ => bindMethod_plain _ _ m⟩

lemma bindInterface_plain (i : Interface) :
    (bindInterface ctx i).IsPlain := by
  unfold bindInterface
  split
  · refine Declaration.isPlain_of_parts ?_ (bindInterfaceMembers_plain i)
      fun _ hp => nomatch hp
    exact List.forall_mem_cons.mpr ⟨by decide,
      List.forall_mem_singleton.mpr (baseTypeAttribute_plain _)⟩
  · refine Declaration.isPlain_of_parts ?_ (bindInterfaceMembers_plain i)
      fun _ hp => nomatch hp
    refine List.forall_mem_append.mpr ⟨?_, forall_mem_guarded (by decide)⟩
    simp only [Option.mem_toList, Option.map_eq_some_iff]
    rintro a ⟨name, -, rfl⟩
    exact baseTypeAttribute_plain name

lemma bindDelegate_plain (a : Alias) : (bindDelegate ctx a).IsPlain := by
  refine Declaration.isPlain_of_parts (List.forall_mem_nil _)
    (List.forall_mem_nil _) fun p hp => ?_
  simp only [bindDelegate] at hp
  obtain ⟨index, _, rfl⟩ := List.mem_mapIdx.mp hp
  exact List.forall_mem_nil _

lemma bindConstants_plain (fs : List Function) :
    ∀ d ∈ bindConstants ctx fs, d.IsPlain := by
  unfold bindConstants
  split
  · exact fun _ hd => nomatch hd
  · refine List.forall_mem_singleton.mpr (Declaration.isPlain_of_parts
      (List.forall_mem_singleton.mpr (by decide)) ?_
      fun _ hp => nomatch hp)
    exact List.forall_mem_map.mpr fun f _ => bindConstant_plain f

end Plain

/-! ### Other attributes -/

section Other

variable {ctx : TypeContext} {h : Header}

lemma not_hasAttribute_of_forall {d : Declaration} {name : String}
    (hd : ∀ a ∈ d.attributes, a.name ≠ name) :
    ¬ d.hasAttribute name = true := by
  intro h
  obtain ⟨a, ha, hname⟩ := List.find?_isSome.mp h
  exact hd a ha (eq_of_beq (Bool.and_eq_true_iff.mp hname).1)

lemma Declaration.IsPlain.not_hasAttribute {d : Declaration}
    (hd : d.IsPlain) {name : String} (hname : name ∉ plainAttributes) :
    ¬ d.hasAttribute name = true := by
  refine not_hasAttribute_of_forall fun a ha heq => hname ?_
  exact heq ▸ hd a (List.mem_append_left _ (List.mem_append_left _ ha))

/-- The kinds of declarations with attributes beyond `Foundation`. -/
def foreignKinds : List DeclarationKind :=
  [.enum, .struct, .functions]

lemma bindInterface_kind (i : Interface) :
    (bindInterface ctx i).kind ∉ foreignKinds := by
  unfold bindInterface
  split
  · exact show DeclarationKind.category ∉ foreignKinds by decide
  · exact show DeclarationKind.interface ∉ foreignKinds by decide

lemma bindConstants_kind {fs : List Function} {d : Declaration}
    (hd : d ∈ bindConstants ctx fs) : d.kind ∉ foreignKinds := by
  unfold bindConstants at hd
  split at hd
  · cases hd
  · obtain rfl := List.mem_singleton.mp hd
    exact show DeclarationKind.constants ∉ foreignKinds by decide

lemma bindFunctions_bare {fs : List Function} {d : Declaration}
    (hd : d ∈ bindFunctions ctx fs) :
    d.kind = .functions ∧ d.attributes = [] := by
  unfold bindFunctions at hd
  split at hd
  · cases hd
  · obtain rfl := List.mem_singleton.mp hd
    exact ⟨rfl, rfl⟩

/-- A declaration is one of an enumeration, of a structure or of the
functions, or it is plain. -/
theorem declarations_cases (ctx : TypeContext) (h : Header) :
    ∀ d ∈ h.declarations ctx,
      (∃ e name, d = bindEnum e name) ∨ (∃ s, d = bindStruct ctx s)
        ∨ (d.kind = .functions ∧ d.attributes = [])
        ∨ (d.IsPlain ∧ d.kind ∉ foreignKinds) := by
  refine (forall_declarations ctx h).mpr ⟨fun d hd => ?_,
    fun s _ => .inr (.inl ⟨s, rfl⟩),
    fun d hd => .inr (.inr (.inl (bindFunctions_bare hd))),
    fun d hd => .inr (.inr (.inr
      ⟨bindConstants_plain _ d hd, bindConstants_kind hd⟩)),
    fun p _ => .inr (.inr (.inr ⟨bindProtocol_plain p, ?_⟩)),
    fun i _ => .inr (.inr (.inr
      ⟨bindInterface_plain i, bindInterface_kind i⟩)),
    fun a _ => .inr (.inr (.inr ⟨bindDelegate_plain a, ?_⟩))⟩
  · obtain ⟨e, -, name, rfl⟩ := mem_bindEnums hd
    exact .inl ⟨e, name, rfl⟩
  · exact show DeclarationKind.protocol ∉ foreignKinds by decide
  · exact show DeclarationKind.delegate ∉ foreignKinds by decide

/-- The attributes of an enumeration stand on no part of it, and each at
most once. -/
lemma bindEnum_attributes (e : EnumDef) (name : String) :
    (bindEnum e name).allAttributes = (bindEnum e name).attributes
      ∧ ∀ a ∈ (bindEnum e name).attributes,
        (a.name = "Native" ∧ isNativeEnum e.backing? = true)
          ∨ (a.name = "Flags" ∧ e.isOptions = true) := by
  constructor
  · have hmembers : (bindEnum e name).members.flatMap (·.allAttributes)
        = [] :=
      List.flatMap_eq_nil_iff.mpr (List.forall_mem_map.mpr fun _ _ => rfl)
    rw [Declaration.allAttributes, hmembers, List.append_nil]
    exact List.append_nil _
  · simp only [bindEnum, List.mem_append, List.mem_ite_nil_right,
      List.mem_singleton]
    rintro a (⟨h, rfl⟩ | ⟨h, rfl⟩)
    · exact .inl ⟨rfl, h⟩
    · exact .inr ⟨rfl, h⟩

lemma bindEnum_hasAttribute (e : EnumDef) (name : String) :
    (bindEnum e name).hasAttribute "Native" = isNativeEnum e.backing?
      ∧ (bindEnum e name).hasAttribute "Flags" = e.isOptions := by
  simp only [bindEnum, Declaration.hasAttribute, findAttribute?]
  cases isNativeEnum e.backing? <;> cases e.isOptions <;> decide

/-- The enumerations of native numbers are marked so, and nothing else. -/
theorem exists_native_iff :
    (∃ d ∈ h.declarations ctx, d.hasAttribute "Native" = true)
      ↔ ∃ e ∈ h.boundEnums, isNativeEnum e.backing? = true := by
  have henum : ∀ e name, (¬ (bindEnum e name).hasAttribute "Native" = true)
      ↔ ¬ isNativeEnum e.backing? = true := fun e name => by
    rw [(bindEnum_hasAttribute e name).1]
  have hplain : ∀ {d : Declaration}, d.IsPlain →
      ¬ d.hasAttribute "Native" = true := fun hd =>
    hd.not_hasAttribute (by decide)
  rw [← not_iff_not]
  simp only [not_exists, not_and]
  rw [forall_declarations, forall_bindEnums henum]
  refine and_iff_left ⟨fun s _ => not_hasAttribute_of_forall ?_,
    fun d hd => not_hasAttribute_of_forall ?_,
    fun d hd => hplain (bindConstants_plain _ d hd),
    fun p _ => hplain (bindProtocol_plain p),
    fun i _ => hplain (bindInterface_plain i),
    fun a _ => hplain (bindDelegate_plain a)⟩
  · exact List.forall_mem_singleton.mpr (by decide)
  · rw [(bindFunctions_bare hd).2]
    exact fun _ ha => nomatch ha

/-- An enumeration with such an attribute is one of options. -/
theorem hasFlags_of_attribute {d : Declaration}
    (hd : d ∈ h.declarations ctx) (hkind : d.kind = .enum)
    (ha : ∃ a ∈ d.attributes, a.name = "Flags") :
    d.hasAttribute "Flags" = true := by
  rcases declarations_cases ctx h d hd with ⟨e, name, rfl⟩ | ⟨s, rfl⟩
    | ⟨hfunctions, -⟩ | ⟨-, hplain⟩
  · obtain ⟨a, ha, hname⟩ := ha
    rcases (bindEnum_attributes e name).2 a ha with ⟨hnative, -⟩ | ⟨-, h⟩
    · exact absurd (hname.symm.trans hnative) (by decide)
    · rw [(bindEnum_hasAttribute e name).2, h]
  · cases hkind
  · cases hkind.symm.trans hfunctions
  · rw [hkind] at hplain
    exact absurd hplain (by decide)

/-- How values are laid out and called is told by structures and by the
class of the functions. -/
theorem needsInterop_of_attribute {d : Declaration}
    (hd : d ∈ h.declarations ctx) {a : Attribute} (ha : a ∈ d.allAttributes)
    (hname : a.name ∉ "Native" :: "Flags" :: plainAttributes) :
    d.needsInterop = true := by
  simp only [List.mem_cons, not_or] at hname
  obtain ⟨hnative, hflags, hforeign⟩ := hname
  rcases declarations_cases ctx h d hd with ⟨e, name, rfl⟩ | ⟨s, rfl⟩
    | ⟨hfunctions, -⟩ | ⟨hplain, -⟩
  · obtain ⟨hall, hnames⟩ := bindEnum_attributes e name
    rcases hnames a (hall ▸ ha) with ⟨h, -⟩ | ⟨h, -⟩
    · exact absurd h hnative
    · exact absurd h hflags
  · rfl
  · rw [Declaration.needsInterop, hfunctions]
    rfl
  · exact absurd (hplain a ha) hforeign

end Other

end HeaderBinding
