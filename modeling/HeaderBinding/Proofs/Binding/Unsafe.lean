/-
Which members are told to be unsafe.

* `putsUnsafe_iff`: the line of a member has the word `unsafe` before the
  type exactly if the member is told to be unsafe, constructors apart;
* `flagged_of_mem`: a member is told so exactly if a pointer is among its
  types, but constructors and variables never are;
* `marksPointers_iff`: so the mark is right for all members but the
  constructors and the variables with a pointer;
* `not_marksPointers_constructor`: such a constructor.
-/
import HeaderBinding.Binding.Source
import HeaderBinding.Header.Read
import HeaderBinding.Proofs.Binding.Slots

namespace HeaderBinding

/-! ### Lines -/

/-- A pointer is the type of the member or of a parameter. -/
def Member.HasPointer (m : Member) : Prop :=
  '*' ∈ m.type.toList ∨ ∃ p ∈ m.parameters, '*' ∈ p.type.toList

instance (m : Member) : Decidable m.HasPointer :=
  inferInstanceAs (Decidable (_ ∨ _))

/-- The line of the member is the one that it would have if it were safe,
with the word `unsafe` before the type. -/
def Member.PutsUnsafe (m : Member) : Prop :=
  ∃ before behind,
    { m with isUnsafe := false }.core
        = before ++ (m.type ++ " " ++ m.name) ++ behind
      ∧ m.core = before ++ ("unsafe " ++ m.type ++ " " ++ m.name) ++ behind

/-- The mark of the member and its line tell whether it has a pointer. -/
def Member.MarksPointers (m : Member) : Prop :=
  (m.isUnsafe = true ↔ m.HasPointer) ∧ (m.PutsUnsafe ↔ m.HasPointer)

/-- A line with the word is longer than one without it. -/
lemma Member.PutsUnsafe.core_ne {m : Member} (h : m.PutsUnsafe) :
    m.core ≠ { m with isUnsafe := false }.core := by
  obtain ⟨before, behind, hsafe, hcore⟩ := h
  intro heq
  rw [hcore, hsafe] at heq
  have := congrArg String.length heq
  simp at this

/-- What stands around the type and the name in the line of a member. -/
lemma exists_core_eq {m : Member} (hk : m.kind ≠ .value)
    (hc : m.kind ≠ .constructor) :
    ∃ before behind, ∀ mark, { m with isUnsafe := mark }.core
      = before ++ { m with isUnsafe := mark }.typedName ++ behind := by
  cases hkind : m.kind with
  | value => exact absurd hkind hk
  | constructor => exact absurd hkind hc
  | method =>
      refine ⟨"", " " ++ parameterList m.parameters ++ ";", fun mark => ?_⟩
      simp only [Member.core, String.empty_append, String.append_assoc]
  | function =>
      refine ⟨"static extern ", " " ++ parameterList m.parameters ++ ";",
        fun mark => ?_⟩
      simp only [Member.core, String.append_assoc]
  | property | field =>
      by_cases haccessors : m.accessors.isEmpty = true
      · refine ⟨"public ", ";", fun mark => ?_⟩
        simp only [Member.core, haccessors, if_true]
      · refine ⟨"", " " ++ accessorList m.accessors, fun mark => ?_⟩
        simp only [Member.core, haccessors, String.empty_append,
          String.append_assoc, Bool.false_eq_true, if_false]

/-- The line has the word exactly if the member is told to be unsafe and
is no constructor. -/
theorem putsUnsafe_iff {m : Member} (hk : m.kind ≠ .value) :
    m.PutsUnsafe ↔ m.isUnsafe = true ∧ m.kind ≠ .constructor := by
  constructor
  · refine fun h => ⟨?_, fun hkind => ?_⟩
    · by_contra hsafe
      refine h.core_ne ?_
      rw [Bool.not_eq_true] at hsafe
      rw [← hsafe]
    · refine h.core_ne ?_
      simp only [Member.core, hkind]
  · rintro ⟨hflag, hc⟩
    obtain ⟨before, behind, hcore⟩ := exists_core_eq hk hc
    refine ⟨before, behind, ?_, ?_⟩
    · rw [hcore, Member.typedName, if_neg Bool.false_ne_true,
        String.empty_append]
    · have := hcore m.isUnsafe
      rw [Member.typedName, if_pos hflag] at this
      exact this

/-! ### Members -/

/-- The mark of the member tells whether it has a pointer. -/
def Member.Flagged (m : Member) : Prop :=
  m.isUnsafe = true ↔ m.HasPointer

/-- Without parameters only the type of the member counts. -/
lemma Member.flagged_of_type {m : Member} (hparams : m.parameters = [])
    (h : m.isUnsafe = true ↔ '*' ∈ m.type.toList) : m.Flagged := by
  refine h.trans (or_iff_left ?_).symm
  rintro ⟨_, hp, -⟩
  rw [hparams] at hp
  cases hp

/-- Constructors and variables are never told to be unsafe, all other
members exactly if they have a pointer. -/
def FlaggedIn (kind : DeclarationKind) (m : Member) : Prop :=
  if m.kind = .constructor ∨ kind = .constants then m.isUnsafe = false
  else m.Flagged

/-- A place and whether it is told to be unsafe. -/
def FlaggedPlace (bound : BoundParameter × Bool) : Prop :=
  bound.2 = true ↔ '*' ∈ bound.1.type.toList

lemma any_flagged {bound : List (BoundParameter × Bool)}
    (h : ∀ b ∈ bound, FlaggedPlace b) :
    bound.any (·.2) = true
      ↔ ∃ p ∈ bound.map (·.1), '*' ∈ p.type.toList := by
  rw [List.any_eq_true]
  constructor
  · rintro ⟨b, hb, hflag⟩
    exact ⟨b.1, List.mem_map.mpr ⟨b, hb, rfl⟩, (h b hb).mp hflag⟩
  · rintro ⟨p, hp, hstar⟩
    obtain ⟨b, hb, rfl⟩ := List.mem_map.mp hp
    exact ⟨b, hb, (h b hb).mpr hstar⟩

section Binders

variable {ctx : TypeContext} {self? : Option String}

lemma bindType_flag (hctx : ctx.Unmarking self?) {type : String}
    (h : Unmarked type.toList) :
    (bindType ctx self? type).2 = true
      ↔ '*' ∈ (bindType ctx self? type).1.toList := by
  rw [bindType, mapType_eq_text]
  exact splitUnsafe_flag (mapTrace_kept hctx h)

lemma bindParameters_flag (hctx : ctx.Unmarking self?) {m : Method}
    (h : m.IsUnmarked) :
    (bindParameters ctx self? m).2 = true
      ↔ ∃ p ∈ (bindParameters ctx self? m).1, '*' ∈ p.type.toList := by
  refine any_flagged fun b hb => ?_
  obtain ⟨i, hi, rfl⟩ := List.mem_mapIdx.mp hb
  exact bindType_flag hctx (h.2 _ (List.getElem_mem hi))

lemma bindMethod_flagged (site : MemberSite)
    (hctx : ctx.Unmarking site.owner?) {m : Method} (h : m.IsUnmarked)
    (onClass : Bool) : (bindMethod ctx site onClass m).Flagged := by
  have htype := bindType_flag hctx h.1
  have hparams := bindParameters_flag hctx h
  refine Bool.or_eq_true_iff.trans (or_congr htype hparams)

lemma bindProperty_flagged (site : MemberSite)
    (hctx : ctx.Unmarking site.owner?) {p : Property}
    (h : Unmarked p.type.toList) : (bindProperty ctx site p).Flagged :=
  Member.flagged_of_type rfl (bindType_flag hctx h)

lemma bindOptionalProperty_flagged (hctx : ctx.Unmarking none)
    {p : Property} (h : Unmarked p.type.toList) :
    ∀ m ∈ bindOptionalProperty ctx p, m.kind = .method ∧ m.Flagged := by
  have hflag := bindType_flag hctx h
  have hgetter : (bindGetter ctx p).Flagged :=
    Member.flagged_of_type rfl hflag
  have hsetter : (bindSetter ctx p).Flagged := by
    have hvoid : '*' ∉ "void".toList := by decide
    refine hflag.trans (Iff.trans ?_ (or_iff_right hvoid).symm)
    refine ⟨fun hstar => ⟨_, List.mem_singleton_self _, hstar⟩, ?_⟩
    rintro ⟨_, hp, hstar⟩
    obtain rfl := List.mem_singleton.mp hp
    exact hstar
  refine List.forall_mem_cons.mpr ⟨⟨rfl, hgetter⟩, fun m hm => ?_⟩
  split at hm
  · cases hm
  · obtain rfl := List.mem_singleton.mp hm
    exact ⟨rfl, hsetter⟩

lemma bindField_flagged (hctx : ctx.Unmarking none) {f : StructField}
    (h : Unmarked f.elementType.toList) :
    (bindField ctx f).kind = .field ∧ (bindField ctx f).Flagged := by
  have hflag := bindType_flag hctx h
  rw [StructField.elementType] at hflag
  unfold bindField
  simp only
  generalize bindType ctx none _ = type at hflag ⊢
  split
  · have harray : '*' ∈ (type.1 ++ "[]").toList ↔ '*' ∈ type.1.toList := by
      rw [String.toList_append, List.mem_append]
      exact or_iff_left (by decide)
    exact ⟨rfl, Member.flagged_of_type rfl (hflag.trans harray.symm)⟩
  split
  · have hhandle : '*' ∉ "IntPtr".toList := by decide
    exact ⟨rfl, Member.flagged_of_type rfl
      (iff_of_false Bool.false_ne_true hhandle)⟩
  · exact ⟨rfl, Member.flagged_of_type rfl hflag⟩

lemma bindArgument_flagged (hctx : ctx.Unmarking none) {p : Parameter}
    (h : Unmarked p.type.toList) (index : Nat) :
    FlaggedPlace (bindArgument ctx p index) := by
  unfold bindArgument
  split
  · exact iff_of_false Bool.false_ne_true (by decide)
  · exact bindType_flag hctx h

lemma bindFunction_flagged (hctx : ctx.Unmarking none) {f : Function}
    (h : f.IsUnmarked) : (bindFunction ctx f).Flagged := by
  refine Bool.or_eq_true_iff.trans
    (or_congr (bindType_flag hctx h.1) (any_flagged fun b hb => ?_))
  obtain ⟨i, hi, rfl⟩ := List.mem_mapIdx.mp hb
  exact bindArgument_flagged hctx (h.2 _ (List.getElem_mem hi)) i

end Binders

/-! ### Declarations -/

/-- All members of the declaration are flagged as they should be, cases
of enumerations apart. -/
def Declaration.MembersFlagged (d : Declaration) : Prop :=
  ∀ m ∈ d.members, m.kind ≠ .value → FlaggedIn d.kind m

lemma Member.Flagged.inKind {m : Member} (h : m.Flagged)
    (hc : m.kind ≠ .constructor) {kind : DeclarationKind}
    (hkind : kind ≠ .constants) : FlaggedIn kind m := by
  rw [FlaggedIn, if_neg (not_or.mpr ⟨hc, hkind⟩)]
  exact h

lemma bindInterfaceMembers_flagged {ctx : TypeContext} {i : Interface}
    (hctx : ctx.Unmarking (some i.name)) (h : i.IsUnmarked)
    {kind : DeclarationKind} (hkind : kind ≠ .constants) :
    ∀ m ∈ bindInterfaceMembers ctx i, FlaggedIn kind m := by
  obtain ⟨-, hp, hi, hc⟩ := h
  refine List.forall_mem_append.mpr ⟨List.forall_mem_append.mpr
    ⟨List.forall_mem_map.mpr fun p hmem => ?_,
      List.forall_mem_map.mpr fun m hmem => ?_⟩,
    List.forall_mem_map.mpr fun m hmem => ?_⟩
  · exact (bindProperty_flagged (.ofClass i.name) hctx
      (hp p hmem)).inKind (by simp [bindProperty]) hkind
  · unfold bindInstanceMethod
    split
    · rw [FlaggedIn, if_pos (.inl rfl)]
      rfl
    · exact (bindMethod_flagged (.ofClass i.name) hctx
        (hi m (List.mem_filter.mp hmem).1) false).inKind
          (by simp [bindMethod]) hkind
  · exact (bindMethod_flagged (.ofClass i.name) hctx
      (hc m (List.mem_filter.mp hmem).1) true).inKind
        (by simp [bindMethod]) hkind

lemma bindInterface_flagged {ctx : TypeContext} {i : Interface}
    (hctx : ctx.Unmarking (some i.name)) (h : i.IsUnmarked) :
    (bindInterface ctx i).MembersFlagged := by
  unfold bindInterface
  split
  · exact fun m hm _ =>
      bindInterfaceMembers_flagged hctx h (by simp [bindCategory]) m hm
  · exact fun m hm _ =>
      bindInterfaceMembers_flagged hctx h (by simp [bindClass]) m hm

lemma bindProtocol_flagged {ctx : TypeContext} {p : Protocol}
    (hctx : ctx.Unmarking none) (h : p.IsUnmarked) :
    (bindProtocol ctx p).MembersFlagged := by
  obtain ⟨hp, hri, hrc, hoi, hoc⟩ := h
  have hmethod : ∀ (site : MemberSite) (onClass : Bool) (ms : List Method),
      site.owner? = none → (∀ m ∈ ms, m.IsUnmarked) →
        ∀ m ∈ ms.map (bindMethod ctx site onClass),
          FlaggedIn .protocol m := by
    intro site onClass ms hsite hms
    refine List.forall_mem_map.mpr fun m hm => ?_
    exact (bindMethod_flagged site (hsite ▸ hctx) (hms m hm) onClass).inKind
      (by simp [bindMethod]) (by decide)
  suffices ∀ m ∈ (bindProtocol ctx p).members, FlaggedIn .protocol m from
    fun m hm _ => this m hm
  simp only [bindProtocol, List.forall_mem_append]
  refine ⟨⟨⟨⟨hmethod _ _ _ rfl hri, hmethod _ _ _ rfl hrc⟩, ?_⟩,
    hmethod _ _ _ rfl hoi⟩, hmethod _ _ _ rfl hoc⟩
  intro m hm
  obtain ⟨q, hq, hm⟩ := List.mem_flatMap.mp hm
  unfold bindProtocolProperty at hm
  split at hm
  · obtain ⟨hkind, hflag⟩ :=
      bindOptionalProperty_flagged hctx (hp q hq) m hm
    exact hflag.inKind (by simp [hkind]) (by decide)
  · obtain rfl := List.mem_singleton.mp hm
    exact (bindProperty_flagged .required hctx (hp q hq)).inKind
      (by simp [bindProperty]) (by decide)

/-- Constructors and variables are never told to be unsafe, all other
members exactly if they have a pointer. -/
theorem flagged_of_mem {h : Header} (hu : h.IsUnmarked) {d : Declaration}
    (hd : d ∈ assembleHeader h) : d.MembersFlagged := by
  have hfree : (TypeContext.ofHeader h).Unmarking none :=
    hu.unmarking fun _ hname => nomatch hname
  obtain ⟨hi, hp, hs, hf, -⟩ := hu.merged
  rw [assembleHeader_eq] at hd
  refine (forall_declarations (P := Declaration.MembersFlagged) _ _).mpr
    ⟨?_, ?_, ?_, ?_, ?_, ?_, ?_⟩ d hd
  · intro d hd m hm hk
    obtain ⟨e, -, name, rfl⟩ := mem_bindEnums hd
    obtain ⟨c, -, rfl⟩ := List.mem_map.mp hm
    exact absurd rfl hk
  · intro s hsm m hm _
    obtain ⟨f, hf, rfl⟩ := List.mem_map.mp hm
    obtain ⟨hkind, hflag⟩ := bindField_flagged hfree
      (hs s (List.mem_filter.mp hsm).1 f (List.mem_filter.mp hf).1)
    exact hflag.inKind (by simp [hkind]) (by simp [bindStruct])
  · refine (forall_bindFunctions (Q := fun f =>
      (bindFunction _ f).kind ≠ .value → FlaggedIn .functions _)
      fun _ => List.forall_mem_map).mpr fun f hmem _ => ?_
    exact (bindFunction_flagged hfree
      (hf f (List.mem_filter.mp hmem).1)).inKind
        (by simp [bindFunction]) (by decide)
  · refine (forall_bindConstants (Q := fun f =>
      (bindConstant _ f).kind ≠ .value → FlaggedIn .constants _)
      fun _ => List.forall_mem_map).mpr fun f _ _ => ?_
    rw [FlaggedIn, if_pos (.inr rfl)]
    rfl
  · exact fun p hmem => bindProtocol_flagged hfree (hp p hmem)
  · intro i hmem
    refine bindInterface_flagged (hu.unmarking fun name hname => ?_)
      (hi i hmem)
    obtain rfl := Option.some.inj hname
    exact (hi i hmem).1
  · exact fun a _ m hm => nomatch hm

/-- The mark is right for all members but the constructors and the
variables with a pointer, which are never marked. -/
theorem marksPointers_iff {h : Header} (hu : h.IsUnmarked)
    {d : Declaration} (hd : d ∈ assembleHeader h) {m : Member}
    (hm : m ∈ d.members) (hk : m.kind ≠ .value) :
    m.MarksPointers
      ↔ (m.kind = .constructor ∨ d.kind = .constants → ¬ m.HasPointer) := by
  have hflag := flagged_of_mem hu hd m hm hk
  rw [Member.MarksPointers, putsUnsafe_iff hk]
  by_cases hnever : m.kind = .constructor ∨ d.kind = .constants
  · rw [FlaggedIn, if_pos hnever] at hflag
    have hunmarked : ¬ m.isUnsafe = true := by rw [hflag]; decide
    refine ⟨fun h _ hp => hunmarked (h.1.mpr hp), fun h => ?_⟩
    have hnone := h hnever
    exact ⟨iff_of_false hunmarked hnone,
      iff_of_false (fun hu => hunmarked hu.1) hnone⟩
  · rw [FlaggedIn, if_neg hnever] at hflag
    obtain ⟨hc, -⟩ := not_or.mp hnever
    exact ⟨fun _ hin => absurd hin hnever,
      fun _ => ⟨hflag, (and_iff_left hc).trans hflag⟩⟩

/-- A class with a method and a constructor for a pointer. -/
def packetClass : Header :=
  readHeader {} "" <| "\n".intercalate ["typedef unsigned char Octet;",
    "@interface Packet", "- (instancetype)initWithBytes:(const Octet *)bytes;",
    "- (Octet *)bytes;", "@end"]

/-- The header is free of marks, and the class has a method with a pointer
and an unmarked constructor with one. -/
lemma packetClass_members :
    packetClass.IsUnmarked
      ∧ (∃ d ∈ assembleHeader packetClass, ∃ m ∈ d.members,
        m.kind = .method ∧ d.kind = .interface ∧ m.HasPointer)
      ∧ ∃ d ∈ assembleHeader packetClass, ∃ m ∈ d.members,
        m.kind ≠ .value ∧ m.isUnsafe = false ∧ m.HasPointer := by
  rw [packetClass, readHeader, tokenize_intercalate]
  decide +kernel

/-- The method is marked. -/
theorem marksPointers_bytes :
    packetClass.IsUnmarked ∧ ∃ d ∈ assembleHeader packetClass,
      ∃ m ∈ d.members, m.kind ≠ .value ∧ m.HasPointer ∧ m.MarksPointers := by
  obtain ⟨hu, ⟨d, hd, m, hm, hkind, hdkind, hp⟩, -⟩ := packetClass_members
  have hk : m.kind ≠ .value := by rw [hkind]; decide
  refine ⟨hu, d, hd, m, hm, hk, hp, (marksPointers_iff hu hd hm hk).mpr ?_⟩
  rw [hkind, hdkind]
  exact fun hin => absurd hin (by decide)

/-- The constructor is not. -/
theorem not_marksPointers_constructor :
    ¬ ∀ d ∈ assembleHeader packetClass, ∀ m ∈ d.members,
      m.kind ≠ .value → m.MarksPointers := by
  intro hall
  obtain ⟨-, -, d, hd, m, hm, hk, hsafe, hp⟩ := packetClass_members
  have := (hall d hd m hm hk).1.mpr hp
  rw [hsafe] at this
  cases this

end HeaderBinding
