/-
The namespaces that the declarations of a header list, and those that their
types and attributes belong to.

* `UsingsSuffice`: the namespace of every type and attribute is listed;
* `Header.ListsRuntime`: what in a header makes `ObjCRuntime` be listed;
* `usingsSuffice_iff`: the namespaces suffice exactly if there is such a
  thing or no type of the header mentions one of `ObjCRuntime`; the other
  namespaces are listed whenever they are needed;
* `not_usingsSuffice_kinds`: a property that mentions one within another
  type.
-/
import HeaderBinding.Binding.Using
import HeaderBinding.Header.Read
import HeaderBinding.Proofs.Binding.Attributes

namespace HeaderBinding

/-! ### Namespaces that suffice -/

/-- One of the names is a word of the type. -/
def Mentions (names : List String) (type : String) : Prop :=
  ∃ name ∈ names, name.toList ∈ wordsIn type.toList

/-- There is such a type in the declaration: that of a member, of a
parameter, or what a delegate returns. -/
def Declaration.HasType (P : String → Prop) (d : Declaration) : Prop :=
  (∃ m ∈ d.members, P m.type ∨ ∃ p ∈ m.parameters, P p.type)
    ∨ (∃ type ∈ d.returnType?, P type) ∨ ∃ p ∈ d.parameters, P p.type

/-- The namespace of every type and attribute of the declarations is
listed. -/
structure UsingsSuffice (ds : List Declaration) : Prop where
  runtime : (∃ d ∈ ds,
      d.HasType (Mentions ["Selector", "Class", "NativeHandle"])) →
    "ObjCRuntime" ∈ usings ds
  system : (∃ d ∈ ds, d.HasType (Mentions ["IntPtr", "UIntPtr", "Action"])) →
    "System" ∈ usings ds
  flags : (∃ d ∈ ds, d.kind = .enum ∧ ∃ a ∈ d.attributes, a.name = "Flags") →
    "System" ∈ usings ds
  interop : (∃ d ∈ ds, ∃ a ∈ d.allAttributes,
      a.name ∈ ["StructLayout", "MarshalAs", "DllImport"]) →
    "System.Runtime.InteropServices" ∈ usings ds

/-- What makes `ObjCRuntime` be listed: an enumeration of native numbers, a
function, a constructor, or a type of that namespace or an array of
one. -/
def Header.ListsRuntime (ctx : TypeContext) (h : Header) : Prop :=
  (∃ e ∈ h.boundEnums, isNativeEnum e.backing? = true)
    ∨ h.boundFunctions ≠ [] ∨ h.constructors ≠ []
    ∨ ∃ p ∈ h.places ctx, usesRuntime (p.boundType ctx) = true

instance (names : List String) (type : String) :
    Decidable (Mentions names type) :=
  decidable_of_iff (names.any fun name =>
    (wordsIn type.toList).contains name.toList) (by simp [Mentions])

instance (P : String → Prop) [DecidablePred P] (d : Declaration) :
    Decidable (d.HasType P) :=
  inferInstanceAs (Decidable (_ ∨ _ ∨ _))

section Usings

variable {ds : List Declaration}

lemma mem_usings_runtime :
    "ObjCRuntime" ∈ usings ds ↔ ∃ d ∈ ds, d.needsRuntime = true := by
  rw [← List.any_eq_true]
  unfold usings
  split_ifs <;> simp_all

lemma mem_usings_system :
    "System" ∈ usings ds ↔ ∃ d ∈ ds, d.needsSystem = true := by
  rw [← List.any_eq_true]
  unfold usings
  split_ifs <;> simp_all

lemma mem_usings_interop :
    "System.Runtime.InteropServices" ∈ usings ds
      ↔ ∃ d ∈ ds, d.needsInterop = true := by
  rw [← List.any_eq_true]
  unfold usings
  split_ifs <;> simp_all

end Usings

/-! ### Types -/

section HasType

variable {P : String → Prop} {d : Declaration}

/-- The types of a declaration are those that its namespaces are found
by; an empty one apart. -/
lemma hasType_iff_usedTypes (hP : ¬ P "") :
    d.HasType P ↔ ∃ type ∈ d.usedTypes, P type := by
  have hreturn : (∃ type ∈ d.returnType?, P type)
      ↔ ∃ type ∈ (d.returnType?.filter (· ≠ "")).toList, P type := by
    cases d.returnType? with
    | none => simp
    | some type =>
        by_cases hempty : type = ""
        · subst hempty
          simp [hP]
        · simp [hempty]
  simp only [Declaration.HasType, Declaration.usedTypes, hreturn,
    List.mem_append, List.mem_map, List.mem_flatMap]
  constructor
  · rintro (⟨m, hm, h | ⟨p, hp, h⟩⟩ | ⟨type, ht, h⟩ | ⟨p, hp, h⟩)
    · exact ⟨_, .inl (.inl (.inl ⟨m, hm, rfl⟩)), h⟩
    · exact ⟨_, .inl (.inl (.inr ⟨m, hm, p, hp, rfl⟩)), h⟩
    · exact ⟨type, .inr ht, h⟩
    · exact ⟨_, .inl (.inr ⟨p, hp, rfl⟩), h⟩
  · rintro ⟨type, ((⟨m, hm, rfl⟩ | ⟨m, hm, p, hp, rfl⟩) | ⟨p, hp, rfl⟩)
      | ht, h⟩
    · exact .inl ⟨m, hm, .inl h⟩
    · exact .inl ⟨m, hm, .inr ⟨p, hp, h⟩⟩
    · exact .inr (.inr ⟨p, hp, h⟩)
    · exact .inr (.inl ⟨type, ht, h⟩)

/-- No type is so. -/
def TypeRule.never (P : String → Prop) : TypeRule :=
  ⟨fun type => ¬ P type, fun type => ¬ P type⟩

lemma not_hasType_iff : ¬ d.HasType P ↔ d.Obeys (.never P) := by
  simp only [Declaration.HasType, Declaration.Obeys, Member.Obeys,
    TypeRule.never, not_or, not_exists, not_and]

lemma Place.obeys_never {ctx : TypeContext} {p : Place} :
    p.Obeys (.never P) ctx ↔ ¬ P (p.boundType ctx) := by
  unfold Place.Obeys
  split <;> exact Iff.rfl

lemma TypeRule.never_lawful
    (harray : ∀ type, P (type ++ "[]") ↔ P type)
    (hfixed : ∀ type ∈ fixedTypes, ¬ P type) : (never P).Lawful :=
  ⟨id, fun type => not_congr (harray type), hfixed⟩

end HasType

lemma mentions_array (names : List String) (type : String) :
    Mentions names (type ++ "[]") ↔ Mentions names type := by
  rw [Mentions, Mentions, String.toList_append,
    wordsIn_append_gap _ (by decide)]

/-- A type of `ObjCRuntime`, or an array of one. -/
lemma usesRuntime_iff (type : String) :
    usesRuntime type = true ↔ ∃ name ∈ runtimeTypes,
      type = name ∨ name.toList ++ ['['] <+: type.toList := by
  simp only [usesRuntime, List.any_eq_true, Bool.or_eq_true, beq_iff_eq,
    List.isPrefixOf_iff_prefix, String.toList_append]
  exact Iff.rfl

/-- Brackets behind a type change nothing. -/
lemma usesRuntime_array (type : String) :
    usesRuntime (type ++ "[]") = true ↔ usesRuntime type = true := by
  have hlast : ∀ name ∈ runtimeTypes, name.toList.getLast? ≠ some ']' := by
    decide
  rw [usesRuntime_iff, usesRuntime_iff]
  refine exists_congr fun name => and_congr_right fun hname => ?_
  have hno : type ++ "[]" ≠ name := by
    rintro rfl
    refine hlast _ hname ?_
    rw [toList_brackets, List.getLast?_concat]
  have hbracket : name.toList ++ ['['] ≠ type.toList ++ ['['] ++ [']'] := by
    intro h
    have := congrArg List.getLast? h
    rw [List.getLast?_concat, List.getLast?_concat] at this
    exact absurd this (by decide)
  rw [or_iff_right hno, toList_brackets, List.prefix_concat_iff,
    or_iff_right hbracket, List.prefix_concat_iff]
  refine or_congr_left ?_
  rw [List.append_cancel_right_eq, String.toList_inj]
  exact eq_comm

/-! ### What lists a namespace -/

section Listed

variable {ctx : TypeContext} {h : Header} {ds : List Declaration}

lemma needsRuntime_iff (d : Declaration) :
    d.needsRuntime = true ↔ d.hasAttribute "Native" = true
      ∨ d.kind = .functions ∨ d.HasType (usesRuntime · = true) := by
  rw [hasType_iff_usedTypes (by decide)]
  simp only [Declaration.needsRuntime, Bool.or_eq_true, beq_iff_eq,
    List.any_eq_true, or_assoc]

/-- There is a class of functions if there is a function. -/
lemma exists_functions_iff :
    (∃ d ∈ h.declarations ctx, d.kind = .functions)
      ↔ h.boundFunctions ≠ [] := by
  have hforeign : ∀ {kind}, kind ∉ foreignKinds → ¬ kind = .functions := by
    rintro _ hkind rfl
    exact hkind (by decide)
  have hbound : (∀ d ∈ bindFunctions ctx h.functions, ¬ d.kind = .functions)
      ↔ h.boundFunctions = [] := by
    rw [bindFunctions, Header.boundFunctions]
    cases h.functions.filter fun f => !f.isInline && !f.isConstant with
    | nil => exact iff_of_true (List.forall_mem_nil _) rfl
    | cons f fs =>
        exact iff_of_false (fun hno => hno _ List.mem_cons_self rfl)
          (List.cons_ne_nil f fs)
  rw [← not_iff_not, not_not, ← hbound]
  simp only [not_exists, not_and]
  rw [forall_declarations]
  refine ⟨fun hall => hall.2.2.1, fun hno => ⟨fun d hd => ?_, ?_, hno,
    fun d hd => hforeign (bindConstants_kind hd), ?_,
    fun i _ => hforeign (bindInterface_kind i), ?_⟩⟩
  · obtain ⟨e, -, name, rfl⟩ := mem_bindEnums hd
    intro hkind
    cases hkind
  all_goals
    intro _ _ hkind
    cases hkind

/-- There is such a type if a place has one, or constructors do. -/
lemma exists_hasType_iff {P : String → Prop} (ctx : TypeContext)
    (h : Header) (harray : ∀ type, P (type ++ "[]") ↔ P type)
    (hfixed : ∀ type ∈ fixedTypes, ¬ P type) :
    (∃ d ∈ h.declarations ctx, d.HasType P)
      ↔ (h.constructors ≠ [] ∧ P "NativeHandle")
        ∨ ∃ p ∈ h.places ctx, P (p.boundType ctx) := by
  have hall := declarations_obey (TypeRule.never_lawful harray hfixed) ctx h
  simp only [← not_hasType_iff, Place.obeys_never] at hall
  have hhandle :
      (∀ m ∈ h.constructors, (TypeRule.never P).value "NativeHandle")
        ↔ ¬ (h.constructors ≠ [] ∧ P "NativeHandle") := by
    rw [not_and]
    cases h.constructors with
    | nil =>
        exact iff_of_true (List.forall_mem_nil _) fun hne => absurd rfl hne
    | cons m ms =>
        exact ⟨fun hno _ => hno m List.mem_cons_self,
          fun hno _ _ => hno (List.cons_ne_nil m ms)⟩
  rw [← not_iff_not, not_or, ← hhandle]
  simpa only [not_exists, not_and] using hall

theorem mem_usings_runtime_iff :
    "ObjCRuntime" ∈ usings (h.declarations ctx) ↔ h.ListsRuntime ctx := by
  have hhandle : usesRuntime "NativeHandle" = true := by decide
  have htypes := exists_hasType_iff (P := (usesRuntime · = true)) ctx h
    usesRuntime_array (by decide)
  rw [and_iff_left hhandle] at htypes
  simp only [mem_usings_runtime, needsRuntime_iff, and_or_left, exists_or,
    exists_native_iff, exists_functions_iff, htypes, Header.ListsRuntime]

/-- A type that mentions one of `System` makes the namespace be listed. -/
lemma mem_usings_system_of_hasType
    (hd : ∃ d ∈ ds, d.HasType (Mentions systemTypes)) :
    "System" ∈ usings ds := by
  obtain ⟨d, hd, htype⟩ := hd
  obtain ⟨type, ht, name, hname, hword⟩ :=
    (hasType_iff_usedTypes (by decide)).mp htype
  have huses : usesSystem type = true :=
    List.any_eq_true.mpr ⟨name, hname,
      hasPiece_iff.mpr (infix_of_mem_wordsIn hword)⟩
  refine mem_usings_system.mpr ⟨d, hd, ?_⟩
  rw [Declaration.needsSystem, List.any_eq_true.mpr ⟨type, ht, huses⟩,
    Bool.or_true]

/-- An enumeration of options makes `System` be listed. -/
lemma mem_usings_system_of_flags
    (hd : ∃ d ∈ h.declarations ctx,
      d.kind = .enum ∧ ∃ a ∈ d.attributes, a.name = "Flags") :
    "System" ∈ usings (h.declarations ctx) := by
  obtain ⟨d, hd, hkind, ha⟩ := hd
  refine mem_usings_system.mpr ⟨d, hd, ?_⟩
  rw [Declaration.needsSystem, hasFlags_of_attribute hd hkind ha,
    Bool.true_or]

/-- An attribute on how values are laid out or called makes its namespace
be listed. -/
lemma mem_usings_interop_of_attribute
    (hd : ∃ d ∈ h.declarations ctx, ∃ a ∈ d.allAttributes,
      a.name ∈ ["StructLayout", "MarshalAs", "DllImport"]) :
    "System.Runtime.InteropServices" ∈ usings (h.declarations ctx) := by
  have hforeign : ∀ name ∈ ["StructLayout", "MarshalAs", "DllImport"],
      name ∉ "Native" :: "Flags" :: plainAttributes := by
    decide
  obtain ⟨d, hd, a, ha, hname⟩ := hd
  exact mem_usings_interop.mpr
    ⟨d, hd, needsInterop_of_attribute hd ha (hforeign _ hname)⟩

end Listed

/-- The namespaces suffice exactly if something makes `ObjCRuntime` be
listed, or no type of the header mentions one of that namespace. -/
theorem usingsSuffice_iff (h : Header) :
    UsingsSuffice (assembleHeader h)
      ↔ h.merged.ListsRuntime (.ofHeader h)
        ∨ ∀ p ∈ h.merged.places (.ofHeader h),
          ¬ Mentions ["Selector", "Class", "NativeHandle"]
            (p.boundType (.ofHeader h)) := by
  have htypes := exists_hasType_iff (.ofHeader h) h.merged
    (mentions_array ["Selector", "Class", "NativeHandle"]) (by decide)
  rw [assembleHeader_eq]
  constructor
  · intro hs
    rw [or_iff_not_imp_left]
    intro hlists p hp hmentions
    exact hlists (mem_usings_runtime_iff.mp
      (hs.runtime (htypes.mpr (.inr ⟨p, hp, hmentions⟩))))
  · intro hor
    refine ⟨fun hruntime => mem_usings_runtime_iff.mpr ?_,
      mem_usings_system_of_hasType, mem_usings_system_of_flags,
      mem_usings_interop_of_attribute⟩
    rcases htypes.mp hruntime with ⟨hconstructors, -⟩ | ⟨p, hp, hmentions⟩
    · exact .inr (.inr (.inl hconstructors))
    · exact hor.resolve_right fun hno => hno p hp hmentions

/-- A class that looks classes up by name. -/
def kindsClass : Header :=
  readHeader {} "" <| "\n".intercalate ["@interface A",
    "@property NSDictionary<NSString *, Class> *kinds;", "@end", ""]

/-- Its one type of `ObjCRuntime` stands within that of a dictionary. -/
theorem not_usingsSuffice_kinds :
    ¬ UsingsSuffice (assembleHeader kindsClass) := by
  have hmentions : (∃ d ∈ assembleHeader kindsClass,
        d.HasType (Mentions ["Selector", "Class", "NativeHandle"]))
      ∧ "ObjCRuntime" ∉ usings (assembleHeader kindsClass) := by
    rw [kindsClass, readHeader, tokenize_intercalate]
    decide +kernel
  exact fun hs => hmentions.2 (hs.runtime hmentions.1)

end HeaderBinding
