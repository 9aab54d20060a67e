/-
What names, and pointers to what they name, are mapped to.

* `IsPlainName`: a name without qualifiers, that is no tag;
* `IsPlainName.isBase`, `IsPlainName.noTag_pointerTo`: a plain name with
  some stars is taken apart into the name and the stars;
* `mapStep_pointerTo`: the step of the map on such a pointer;
* `mapType_blockName`, `mapType_ordinaryName`: the name of a block type,
  and one that the tables do not know and no alias explains;
* `delegateName_eq_self_iff`: which names stay as they are.
-/
import HeaderBinding.Proofs.Mapping.Declared
import HeaderBinding.Proofs.Mapping.Stripped
import HeaderBinding.Proofs.Mapping.Trace

namespace HeaderBinding

/-! ### Plain names -/

/-- A name of word characters, perhaps with marks of directives, none of
whose words qualifies a type, and that is no tag. -/
structure IsPlainName (name : String) : Prop where
  ne_nil : name.toList ≠ []
  chars : ∀ c ∈ name.toList, isWordChar c = true ∨ c = '@'
  words : ∀ w ∈ wordsIn name.toList, w ∉ strippedWords
  noTag : ∀ tag ∈ tagPrefixes, tag ≠ name.toList ++ [' ']

instance (name : String) : Decidable (IsPlainName name) :=
  haveI : Decidable (∀ c ∈ name.toList, isWordChar c = true ∨ c = '@') :=
    List.decidableBAll _ name.toList
  decidable_of_iff (name.toList ≠ []
    ∧ (∀ c ∈ name.toList, isWordChar c = true ∨ c = '@')
    ∧ (∀ w ∈ wordsIn name.toList, w ∉ strippedWords)
    ∧ ∀ tag ∈ tagPrefixes, tag ≠ name.toList ++ [' '])
    ⟨fun ⟨hn, hc, hw, ht⟩ => ⟨hn, hc, hw, ht⟩,
      fun ⟨hn, hc, hw, ht⟩ => ⟨hn, hc, hw, ht⟩⟩

section Plain

variable {name : String}

lemma IsPlainName.not_blank (h : IsPlainName name) :
    ∀ c ∈ name.toList, isBlank c = false := by
  intro c hc
  rcases h.chars c hc with hword | rfl
  · by_contra hblank
    rw [isWordChar_of_isBlank (by simpa using hblank)] at hword
    cases hword
  · decide

/-- A character of no word, other than the mark of a directive, is not in
the name. -/
lemma IsPlainName.not_mem (h : IsPlainName name) {c : Char}
    (hc : isWordChar c = false) (hat : c ≠ '@') : c ∉ name.toList := by
  intro hin
  rcases h.chars c hin with hword | rfl
  · rw [hc] at hword
    cases hword
  · exact hat rfl

end Plain

/-! ### Names in the text of a type -/

section Plain

variable {name : String}

/-- What a word and a space behind it are not is no start of a pointer. -/
lemma IsPlainName.not_prefix_pointerTo (h : IsPlainName name)
    {word : List Char} (hspace : ' ' ∉ word) (hne : word ≠ name.toList)
    (depth : Nat) : ¬ word ++ [' '] <+: pointerTo name.toList depth := by
  rintro ⟨rest, hrest⟩
  have hname : ' ' ∉ name.toList := h.not_mem (by decide) (by decide)
  rw [List.append_assoc, List.singleton_append, pointerTo] at hrest
  split at hrest
  · rw [List.append_nil] at hrest
    exact absurd (hrest ▸ List.mem_append_right _ List.mem_cons_self) hname
  · have := congrArg (List.takeWhile (· ≠ ' ')) hrest
    rw [takeWhile_ne_append hspace, takeWhile_ne_append hname] at this
    exact hne this

lemma IsPlainName.noTag_pointerTo (h : IsPlainName name) (depth : Nat) :
    NoTag (pointerTo name.toList depth) := by
  intro tag htag
  obtain ⟨word, hspace, rfl⟩ := tagPrefixes_word tag htag
  exact h.not_prefix_pointerTo hspace
    (fun heq => h.noTag _ htag (heq ▸ rfl)) depth

lemma IsPlainName.not_isPointerMark (h : IsPlainName name) :
    ∀ c ∈ name.toList, isPointerMark c = false := by
  intro c hc
  have hstar : c ≠ '*' := by
    rintro rfl
    exact h.not_mem (by decide) (by decide) hc
  rw [isPointerMark, h.not_blank c hc, Bool.or_false]
  exact beq_false_of_ne hstar

lemma IsPlainName.isBase (h : IsPlainName name) : IsBase name.toList where
  tidy :=
    { spaces := fun c hc hblank => absurd hblank (by simp [h.not_blank c hc])
      apart := List.Pairwise.isChain (List.pairwise_of_forall_mem_list
        fun c hc _ _ => .inl (h.not_blank c hc))
      head := fun c hc => h.not_blank c (List.mem_of_mem_head? hc)
      last := fun c hc => h.not_blank c (List.mem_of_mem_getLast? hc) }
  last := fun c hc => h.not_isPointerMark c (List.mem_of_mem_getLast? hc)
  words := h.words

/-! ### One step -/

lemma not_mem_pointerTo (h : IsPlainName name) (depth : Nat) {c : Char}
    (hc : isWordChar c = false) (hat : c ≠ '@') (hstar : c ≠ '*')
    (hspace : c ≠ ' ') : c ∉ pointerTo name.toList depth := by
  rw [pointerTo, List.mem_append]
  refine not_or.mpr ⟨h.not_mem hc hat, ?_⟩
  split
  · exact List.not_mem_nil
  · rw [List.mem_cons]
    exact not_or.mpr ⟨hspace, fun hin => hstar (mem_stars hin)⟩

variable {ctx : TypeContext} {self? : Option String}

/-- A plain name with some stars is a pointer to what it names. -/
lemma mapStep_pointerTo (h : IsPlainName name) (depth : Nat) :
    mapStep ctx self? (pointerTo name.toList depth)
      = mapPointer ctx self? false name.toList depth := by
  have hparen : '(' ∉ pointerTo name.toList depth :=
    not_mem_pointerTo h depth (by decide) (by decide) (by decide) (by decide)
  have hdot : '.' ∉ pointerTo name.toList depth :=
    not_mem_pointerTo h depth (by decide) (by decide) (by decide) (by decide)
  have hblank : allBlank (pointerTo name.toList depth) = false := by
    obtain ⟨c, cs, hname⟩ := List.exists_cons_of_ne_nil h.ne_nil
    have hc := h.not_blank c (hname ▸ List.mem_cons_self)
    rw [pointerTo, hname, allBlank, List.cons_append, List.all_cons, hc,
      Bool.false_and]
  have hrest : pointerTo name.toList depth ≠ "...".toList := by
    intro heq
    rw [heq] at hdot
    exact absurd hdot (by decide)
  have hconst : "const ".toList.isPrefixOf (pointerTo name.toList depth)
      = false := by
    rw [Bool.eq_false_iff, ne_eq, List.isPrefixOf_iff_prefix]
    have hname : "const".toList ≠ name.toList := by
      intro heq
      have hmem : "const".toList ∈ wordsIn name.toList := by
        rw [← heq]
        decide
      exact h.words _ hmem (by decide)
    exact h.not_prefix_pointerTo (by decide) hname depth
  have hblock : isBlockText (pointerTo name.toList depth) = false :=
    opensBefore_eq_false hparen
  have hfunction :
      isFunctionPointerText (pointerTo name.toList depth) = false :=
    opensBefore_eq_false hparen
  simp only [mapStep, trim_of_tidy (h.isBase.tidy_pointerTo h.ne_nil depth),
    stripQualifiers_pointerTo h.isBase h.ne_nil (h.noTag_pointerTo depth),
    splitPointers_pointerTo h.isBase h.ne_nil, hblank, hrest, hconst, hblock,
    hfunction, Bool.false_eq_true, if_false]

lemma mapType_of_done {type text : String}
    (h : mapStep ctx self? type.toList = .done text) :
    mapType ctx self? type = text := by
  have hbound : ∃ n, stepBound ctx type.toList = n + 1 :=
    Nat.exists_eq_add_one_of_ne_zero (by rw [stepBound]; omega)
  obtain ⟨n, hn⟩ := hbound
  rw [mapType, mapType?, hn, mapWithin, h]
  rfl

/-- The name of a block type is mapped to that of its delegate. -/
theorem mapType_blockName (h : IsPlainName name) (hb : name ∈ ctx.blocks) :
    mapType ctx self? name = delegateName name := by
  have hstep := @mapStep_pointerTo name ctx self? h 0
  refine mapType_of_done ?_
  rw [pointerTo, if_pos rfl, List.append_nil] at hstep
  rw [hstep, mapPointer, String.ofList_toList]
  simp [hb]

/-- A name that the tables do not know and no alias explains stays what it
is, as the delegate of its name would be called; a pointer to it too,
unless a structure or an enumeration is named so. -/
theorem mapType_ordinaryName (h : IsPlainName name)
    (hprimitive : primitiveTypes.lookup name = none)
    (hobject : objectTypes.lookup name = none)
    (hself : name ≠ "instancetype") (hb : name ∉ ctx.blocks)
    (hf : name ∉ ctx.functionPointers) (ha : ctx.isAlias name = false) :
    mapType ctx self? name = delegateName name
      ∧ mapType ctx self? (name ++ " *")
        = if name ∈ ctx.structs ∨ name ∈ ctx.enums then unsafePointer name
          else delegateName name := by
  have hchar : name ≠ "char" := by
    rintro rfl
    exact absurd hprimitive (by decide)
  have hvoid : name ≠ "void" := by
    rintro rfl
    exact absurd hprimitive (by decide)
  have hangle : '<' ∉ name.toList := h.not_mem (by decide) (by decide)
  have hnamed : ∀ depth < 2, ∀ type : String,
      type.toList = pointerTo name.toList depth →
      mapType ctx self? type
        = if 0 < depth ∧ (name ∈ ctx.structs ∨ name ∈ ctx.enums) then
            unsafePointer name
          else delegateName name := by
    intro depth hdepth type htype
    have hstep := @mapStep_pointerTo name ctx self? h depth
    refine mapType_of_done ?_
    have hpointer : mapPointer ctx self? false name.toList depth
        = mapNamed ctx self? false name.toList depth := by
      simp [mapPointer, mapAlias?, ha, hb, hf, Nat.not_le.mpr hdepth]
    rw [htype, hstep, hpointer]
    simp [mapNamed, hself, hchar, hvoid, hprimitive, hobject, hangle]
    split <;> rfl
  refine ⟨(hnamed 0 (by decide) name ?_).trans (if_neg fun hd =>
    absurd hd.1 (by decide)), (hnamed 1 (by decide) _ ?_).trans ?_⟩
  · rw [pointerTo, if_pos rfl, List.append_nil]
  · rw [String.toList_append]
    rfl
  · simp only [Nat.lt_one_iff, true_and]

end Plain

/-! ### Names that change -/

/-- The name has `Block` at its end and something before it. -/
def EndsInBlock (name : String) : Prop :=
  ∃ as, as ≠ [] ∧ name.toList = as ++ "Block".toList

lemma delegateName_of_block {name : String} {as : List Char}
    (hne : as ≠ []) (hname : name.toList = as ++ "Block".toList) :
    delegateName name = String.ofList as ++ "Handler" := by
  have hlength : 0 < as.length := List.length_pos_of_ne_nil hne
  unfold delegateName
  simp only [hname]
  generalize "Block".toList = suffix
  rw [List.length_append, Nat.add_sub_cancel, List.take_left, if_pos]
  exact ⟨List.isSuffixOf_iff_suffix.mpr (List.suffix_append _ _), by omega⟩

/-- Just the names that end so do not stay as they are. -/
theorem delegateName_eq_self_iff (name : String) :
    delegateName name = name ↔ ¬ EndsInBlock name := by
  constructor
  · rintro heq ⟨as, hne, hname⟩
    rw [delegateName_of_block hne hname] at heq
    have htext := congrArg String.toList heq
    rw [hname, String.toList_append, String.toList_ofList (l := as)] at htext
    exact absurd (List.append_cancel_left htext) (by decide)
  · intro h
    rcases delegateName_cases name with heq | ⟨as, has, hne, -⟩
    · exact heq
    · exact absurd ⟨as, hne, has⟩ h

instance (name : String) : Decidable (EndsInBlock name) :=
  decidable_of_iff (¬ delegateName name = name)
    (by rw [delegateName_eq_self_iff, not_not])

lemma unsafePointer_ne (name : String) : unsafePointer name ≠ name := by
  intro heq
  have hlength := congrArg String.length heq
  rw [unsafePointer, String.length_append, String.length_append] at hlength
  have hmark : "unsafe ".length = 7 := by decide
  omega

end HeaderBinding
