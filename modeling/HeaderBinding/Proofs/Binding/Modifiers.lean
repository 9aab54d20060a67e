/-
Where the modifiers `out` and `unsafe` of a mapped type end up.

* `Declaration.ModifiersInPlace`: no type holds the word `unsafe`, and
  `out` stands before the types of parameters only, at most once;
* `Place.inPlace_iff`: the bound type of a place is in order exactly if no
  pointer to a pointer is met on its way, or the place is a parameter and
  meets just one, to a type that is safe;
* `modifiersInPlace_iff`: so it is for the declarations of a header;
* `not_modifiersInPlace_doublePointer`: a parameter and a value that are
  not.
-/
import HeaderBinding.Header.Read
import HeaderBinding.Proofs.Binding.Places

namespace HeaderBinding

/-! ### Types in order -/

/-- The type of a value: the word `unsafe` does not occur, and `out` does
not stand in front. -/
def IsValueType (type : String) : Prop :=
  "unsafe".toList ∉ wordsIn type.toList ∧ ¬ "out ".toList <+: type.toList

/-- The type of a parameter: the word `unsafe` does not occur, and `out`
stands in front at most once. -/
def IsArgumentType (type : String) : Prop :=
  "unsafe".toList ∉ wordsIn type.toList
    ∧ ¬ "out out ".toList <+: type.toList

instance (type : String) : Decidable (IsValueType type) :=
  inferInstanceAs (Decidable (_ ∧ _))

instance (type : String) : Decidable (IsArgumentType type) :=
  inferInstanceAs (Decidable (_ ∧ _))

/-- The types of the member and of its parameters are in order. -/
def Member.ModifiersInPlace (m : Member) : Prop :=
  IsValueType m.type ∧ ∀ p ∈ m.parameters, IsArgumentType p.type

/-- The types of the members are in order, and those of a delegate. -/
def Declaration.ModifiersInPlace (d : Declaration) : Prop :=
  (∀ m ∈ d.members, m.ModifiersInPlace)
    ∧ (∀ type ∈ d.returnType?, IsValueType type)
    ∧ ∀ p ∈ d.parameters, IsArgumentType p.type

instance (m : Member) : Decidable m.ModifiersInPlace :=
  inferInstanceAs (Decidable (_ ∧ _))

instance (d : Declaration) : Decidable d.ModifiersInPlace :=
  inferInstanceAs (Decidable (_ ∧ _ ∧ _))

lemma IsValueType.isArgumentType {type : String} (h : IsValueType type) :
    IsArgumentType type := by
  refine ⟨h.1, fun hout => h.2 (List.IsPrefix.trans ?_ hout)⟩
  exact ⟨"out ".toList, by decide⟩

lemma isValueType_of_bare {type : String} (h : Bare type.toList) :
    IsValueType type :=
  ⟨h.1, fun hout => h.2 (mem_wordsIn_word_space (by decide) (by decide)
    (by simpa using hout))⟩

/-- Brackets behind a type change nothing. -/
lemma isValueType_array (type : String) :
    IsValueType (type ++ "[]") ↔ IsValueType type := by
  have hlast : ∀ cs c, "out ".toList = cs ++ [c] → c = ' ' := by
    intro cs c h
    have := congrArg List.getLast? h
    rw [List.getLast?_concat] at this
    exact (Option.some.inj this).symm
  have hout : "out ".toList <+: (type ++ "[]").toList
      ↔ "out ".toList <+: type.toList := by
    rw [toList_brackets, List.prefix_concat_iff, List.prefix_concat_iff]
    constructor
    · rintro (h | h | h)
      · exact absurd (hlast _ _ h) (by decide)
      · exact absurd (hlast _ _ h) (by decide)
      · exact h
    · exact fun h => .inr (.inr h)
  rw [IsValueType, IsValueType, hout, String.toList_append,
    wordsIn_append_gap _ (by decide)]

/-! ### Places -/

/-- The type that the place gets is in order. -/
def Place.InPlace (ctx : TypeContext) (p : Place) : Prop :=
  if p.isArgument then IsArgumentType (bindType ctx p.self? p.type).1
  else IsValueType (bindType ctx p.self? p.type).1

/-- No pointer to a pointer is met when the type is mapped, or just one,
for a parameter and to a type that is safe. -/
def Place.Fits (ctx : TypeContext) (p : Place) : Prop :=
  (mapTrace ctx p.self? p.type).outs = 0
    ∨ (p.isArgument = true ∧ (mapTrace ctx p.self? p.type).outs = 1
      ∧ Bare (mapTrace ctx p.self? p.type).core.toList)

instance (ctx : TypeContext) (p : Place) : Decidable (p.Fits ctx) :=
  inferInstanceAs (Decidable (_ ∨ _))

lemma isValueType_iff {t : Trace} (hk : t.Kept) :
    IsValueType (splitUnsafe t.text).1 ↔ t.outs = 0 := by
  constructor
  · intro h
    by_contra houts
    obtain ⟨n, hn⟩ := Nat.exists_eq_succ_of_ne_zero houts
    rw [splitUnsafe_of_outs (Nat.pos_of_ne_zero houts)] at h
    refine h.2 ?_
    rw [Trace.text, hn, withOuts, String.toList_append]
    exact List.prefix_append _ _
  · exact fun h => isValueType_of_bare (bare_splitUnsafe hk h)

/-- Behind one `out` the rest of the type decides. -/
lemma isArgumentType_out {s : String} :
    IsArgumentType ("out " ++ s) ↔ IsValueType s := by
  have hwords : wordsIn ("out " ++ s).toList
      = "out".toList :: wordsIn s.toList := wordsIn_withOuts 1 s
  have hout : "out out ".toList <+: ("out " ++ s).toList
      ↔ "out ".toList <+: s.toList := by
    rw [String.toList_append]
    exact List.prefix_append_right_inj "out ".toList
  have hne : "unsafe".toList ≠ "out".toList := by decide
  rw [IsArgumentType, IsValueType, hout, hwords, List.mem_cons,
    or_iff_right hne]

lemma isArgumentType_iff {t : Trace} (hk : t.Kept) :
    IsArgumentType (splitUnsafe t.text).1
      ↔ t.outs = 0 ∨ (t.outs = 1 ∧ Bare t.core.toList) := by
  by_cases hzero : t.outs = 0
  · exact iff_of_true
      (isValueType_of_bare (bare_splitUnsafe hk hzero)).isArgumentType
      (.inl hzero)
  rw [splitUnsafe_of_outs (Nat.pos_of_ne_zero hzero), or_iff_right hzero]
  obtain ⟨n, hn⟩ := Nat.exists_eq_succ_of_ne_zero hzero
  rw [Trace.text, hn, withOuts, isArgumentType_out]
  cases n with
  | zero =>
      rw [withOuts, and_iff_right rfl]
      have hwords := wordsIn_withArrays t.arrays t.core
      constructor
      · intro h
        refine hk.resolve_right fun hunsafePointer => h.1 ?_
        obtain ⟨target, -, heq⟩ := hunsafePointer
        rw [hwords, heq, unsafePointer, String.append_assoc,
          String.toList_append]
        exact mem_wordsIn_word_space (by decide) (by decide)
          (List.prefix_append _ _)
      · intro h
        refine isValueType_of_bare ?_
        rw [Bare, hwords]
        exact h
  | succ n =>
      refine iff_of_false (fun h => h.2 ?_) (by omega)
      rw [withOuts, String.toList_append]
      exact List.prefix_append _ _

theorem Place.inPlace_iff {ctx : TypeContext} {p : Place}
    (hctx : ctx.Unmarking p.self?) (h : Unmarked p.type.toList) :
    p.InPlace ctx ↔ p.Fits ctx := by
  have hk := mapTrace_kept hctx h
  rw [Place.InPlace, Place.Fits, bindType, mapType_eq_text]
  split
  · rename_i harg
    rw [isArgumentType_iff hk, and_iff_right harg]
  · rename_i harg
    rw [isValueType_iff hk]
    exact (or_iff_left fun h => harg h.1).symm

/-- Where modifiers may stand, as a rule for types. -/
def modifierRule : TypeRule :=
  ⟨IsValueType, IsArgumentType⟩

lemma modifierRule_lawful : modifierRule.Lawful :=
  ⟨IsValueType.isArgumentType, isValueType_array,
    show ∀ type ∈ fixedTypes, IsValueType type by decide⟩

/-- The declarations of a header are in order exactly if its places are. -/
theorem declarations_inPlace (ctx : TypeContext) (h : Header) :
    (∀ d ∈ h.declarations ctx, d.ModifiersInPlace)
      ↔ ∀ p ∈ h.places ctx, p.InPlace ctx := by
  have hhandle : IsValueType "NativeHandle" := by decide
  refine (declarations_obey modifierRule_lawful ctx h).trans ?_
  exact and_iff_right fun _ _ => hhandle

/-! ### Headers without the mark -/

/-- The type of the place has no mark, and its class is named by no
modifier. -/
def Place.IsUnmarked (p : Place) : Prop :=
  Unmarked p.type.toList ∧ ∀ name ∈ p.self?, Bare name.toList

section IsUnmarked

variable {self? : Option String}

lemma Place.isUnmarked_free {type : String} (h : Unmarked type.toList)
    (isArgument : Bool) : Place.IsUnmarked ⟨none, type, isArgument⟩ :=
  ⟨h, fun _ hname => nomatch hname⟩

lemma Method.IsUnmarked.argumentPlaces {m : Method} (h : m.IsUnmarked)
    (hself : ∀ name ∈ self?, Bare name.toList) :
    ∀ p ∈ m.argumentPlaces self?, p.IsUnmarked :=
  List.forall_mem_map.mpr fun p hp => ⟨h.2 p hp, hself⟩

lemma Method.IsUnmarked.places {m : Method} (h : m.IsUnmarked)
    (hself : ∀ name ∈ self?, Bare name.toList) :
    ∀ p ∈ m.places self?, p.IsUnmarked :=
  List.forall_mem_cons.mpr ⟨⟨h.1, hself⟩, h.argumentPlaces hself⟩

lemma Interface.IsUnmarked.places {i : Interface} (h : i.IsUnmarked) :
    ∀ p ∈ i.places, p.IsUnmarked := by
  obtain ⟨hname, hp, hi, hc⟩ := h
  have hself : ∀ name ∈ some i.name, Bare name.toList :=
    fun name hn => Option.some.inj hn ▸ hname
  simp only [Interface.places, List.forall_mem_append,
    List.forall_mem_map, List.forall_mem_flatMap]
  refine ⟨⟨fun p hmem => ⟨hp p hmem, hself⟩, fun m hmem => ?_⟩,
    fun m hmem => (hc m (List.mem_filter.mp hmem).1).places hself⟩
  have hm := hi m (List.mem_filter.mp hmem).1
  unfold Interface.methodPlaces
  split
  · exact hm.argumentPlaces hself
  · exact hm.places hself

lemma Protocol.IsUnmarked.places {p : Protocol} (h : p.IsUnmarked) :
    ∀ q ∈ p.places, q.IsUnmarked := by
  obtain ⟨hp, hri, hrc, hoi, hoc⟩ := h
  have hmethods : ∀ m ∈ p.requiredInstance ++ p.requiredClass
      ++ p.optionalInstance ++ p.optionalClass, m.IsUnmarked := by
    simp only [List.forall_mem_append]
    exact ⟨⟨⟨hri, hrc⟩, hoi⟩, hoc⟩
  rw [Protocol.places, List.forall_mem_append, List.forall_mem_map,
    List.forall_mem_flatMap]
  exact ⟨fun q hq => Place.isUnmarked_free (hp q hq) false,
    fun m hm => (hmethods m hm).places fun _ hname =>
      absurd hname (Option.not_mem_none _)⟩

lemma StructField.unmarked_places {ctx : TypeContext} {f : StructField}
    (h : Unmarked f.elementType.toList) :
    ∀ p ∈ f.places ctx, p.IsUnmarked := by
  have hone := List.forall_mem_singleton.mpr (Place.isUnmarked_free h false)
  unfold StructField.places
  simp only
  split
  · exact hone
  split
  · exact fun _ hp => nomatch hp
  · exact hone

lemma Function.IsUnmarked.places {f : Function} (h : f.IsUnmarked) :
    ∀ p ∈ f.places, p.IsUnmarked :=
  List.forall_mem_cons.mpr ⟨Place.isUnmarked_free h.1 false,
    List.forall_mem_map.mpr fun p hp =>
      Place.isUnmarked_free (h.2 p (List.mem_filter.mp hp).1) true⟩

lemma Function.IsUnmarked.constantPlaces {ctx : TypeContext}
    {f : Function} (h : f.IsUnmarked) :
    ∀ p ∈ f.constantPlaces ctx, p.IsUnmarked := by
  unfold Function.constantPlaces
  split
  · exact fun _ hp => nomatch hp
  · exact List.forall_mem_singleton.mpr (Place.isUnmarked_free h.1 false)

lemma Alias.unmarked_places {a : Alias} (h : Unmarked a.target.toList) :
    ∀ p ∈ a.places, p.IsUnmarked := by
  obtain ⟨hreturn, hparams⟩ := unmarked_splitBlockSignature h
  refine List.forall_mem_cons.mpr
    ⟨Place.isUnmarked_free ?_ false, List.forall_mem_map.mpr fun cs hcs =>
      Place.isUnmarked_free ?_ true⟩
  · split
    · decide
    · rwa [String.toList_ofList]
  · rw [String.toList_ofList]
    cases hsplit : splitBlockParameter? cs with
    | none => exact hparams cs hcs
    | some split =>
        exact unmarked_splitBlockParameter (hparams cs hcs) hsplit

lemma Header.IsUnmarked.places {ctx : TypeContext} {h : Header}
    (hu : h.IsUnmarked) : ∀ p ∈ h.places ctx, p.IsUnmarked := by
  obtain ⟨hi, hp, hs, hf, ha⟩ := hu
  simp only [Header.places, List.forall_mem_append,
    List.forall_mem_flatMap]
  refine ⟨⟨⟨⟨⟨fun s hsm f hfm => StructField.unmarked_places
    (hs s (List.mem_filter.mp hsm).1 f (List.mem_filter.mp hfm).1), ?_⟩,
      ?_⟩, ?_⟩, ?_⟩, ?_⟩
  · exact fun f hmem => (hf f (List.mem_filter.mp hmem).1).places
  · exact fun f hmem => (hf f (List.mem_filter.mp hmem).1).constantPlaces
  · exact fun p hmem => (hp p hmem).places
  · exact fun i hmem => (hi i hmem).places
  · exact fun a hmem =>
      Alias.unmarked_places (ha a (List.mem_filter.mp hmem).1)

end IsUnmarked

/-- The modifiers are in place exactly if each type of the header meets no
pointer to a pointer, or is that of a parameter and meets one, to a type
that is safe. -/
theorem modifiersInPlace_iff {h : Header} (hu : h.IsUnmarked) :
    (∀ d ∈ assembleHeader h, d.ModifiersInPlace)
      ↔ ∀ p ∈ h.merged.places (.ofHeader h), p.Fits (.ofHeader h) := by
  rw [assembleHeader_eq, declarations_inPlace]
  refine forall₂_congr fun p hp => ?_
  obtain ⟨htype, hself⟩ := hu.merged.places p hp
  exact Place.inPlace_iff (hu.unmarking hself) htype

/-- A class with a parameter for an error, which is an alias. -/
def storeClass : Header :=
  readHeader {} "" <| "\n".intercalate ["typedef NSError *Fault;",
    "@interface Store", "- (BOOL)save:(Fault *)fault;", "- (int *)cells;",
    "@end"]

/-- Its one pointer to a pointer is that of the parameter. -/
theorem modifiersInPlace_store :
    storeClass.IsUnmarked
      ∧ (∀ p ∈ storeClass.merged.places (.ofHeader storeClass),
        p.Fits (.ofHeader storeClass))
      ∧ ∀ d ∈ assembleHeader storeClass, d.ModifiersInPlace := by
  -- one computation, in which the header is read only once
  have hstore : storeClass.IsUnmarked
      ∧ ∀ p ∈ storeClass.merged.places (.ofHeader storeClass),
        p.Fits (.ofHeader storeClass) := by
    rw [storeClass, readHeader, tokenize_intercalate]
    decide +kernel
  obtain ⟨hu, hfits⟩ := hstore
  exact ⟨hu, hfits, (modifiersInPlace_iff hu).mpr hfits⟩

/-- A pointer to a pointer is returned, and one to an unsafe pointer
taken. -/
theorem not_modifiersInPlace_doublePointer :
    ¬ ∀ d ∈ assembleHeader (readHeader {} ""
      "@interface A\n- (NSError **)last:(int **)cells;\n@end\n"),
        d.ModifiersInPlace := by
  decide +kernel

end HeaderBinding
