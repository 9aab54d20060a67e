/-
Arrays of elements, and what they are mapped to.

* `exists_stripQualifiers_array`: an array without qualifiers has the
  element without its own between the angle brackets;
* `mapStep_array`: the step of an array leads to its element, unless the
  text of the element spells a callable;
* `mapsElementwise_iff`: so an array is mapped to an array of what its
  element is mapped to exactly if the element is spelled as no callable.
-/
import HeaderBinding.Proofs.Mapping.Qualifiers
import HeaderBinding.Proofs.Mapping.Skeleton

namespace HeaderBinding

lemma IsWord.not_blank {w : List Char} (h : IsWord w) {c : Char}
    (hc : c ∈ w) : isBlank c = false := by
  rw [Bool.eq_false_iff]
  intro hblank
  have := h c hc
  rw [isWordChar_of_isBlank hblank] at this
  cases this

/-! ### Types without qualifiers -/

/-- The type without qualifiers, `const` and needless blanks; a tag
stays. -/
def unqualified (cs : List Char) : List Char :=
  squeeze (blankOutWords strippedWords cs)

lemma tidy_unqualified (cs : List Char) : Tidy (unqualified cs) :=
  tidy_squeeze _

lemma wordsIn_unqualified (cs : List Char) :
    wordsIn (unqualified cs)
      = (wordsIn cs).filter fun w => !strippedWords.contains w := by
  rw [unqualified, wordsIn_squeeze, wordsIn_blankOutWords strippedWords_isWord]

lemma not_mem_strippedWords_unqualified {cs w : List Char}
    (hw : w ∈ wordsIn (unqualified cs)) : w ∉ strippedWords := by
  rw [wordsIn_unqualified, List.mem_filter] at hw
  simpa using hw.2

lemma skeleton_unqualified (cs : List Char) :
    skeleton (unqualified cs) = skeleton cs := by
  rw [unqualified, skeleton_squeeze,
    skeleton_blankOutWords strippedWords_isWord]

/-- The qualifiers may go before a type is looked at. -/
lemma stripQualifiers_unqualified (cs : List Char) :
    stripQualifiers (unqualified cs) = stripQualifiers cs := by
  rw [stripQualifiers, blankOutWords_eq strippedWords_isWord fun _ =>
    not_mem_strippedWords_unqualified, squeeze_of_tidy (tidy_unqualified cs),
    stripQualifiers, unqualified]

section Words

variable {cs : List Char} (hword : ∃ w ∈ wordsIn cs, w ∉ strippedWords)
include hword

lemma wordsIn_unqualified_ne_nil : wordsIn (unqualified cs) ≠ [] := by
  obtain ⟨w, hw, hleft⟩ := hword
  rw [wordsIn_unqualified]
  exact List.ne_nil_of_mem (List.mem_filter.mpr ⟨hw, by simpa using hleft⟩)

/-- Unless `const` leads a type, its qualifiers may go before it is
mapped. -/
lemma mapStep_unqualified {ctx : TypeContext} {self? : Option String}
    (hleads : leadsConst cs = false) :
    mapStep ctx self? (unqualified cs) = mapStep ctx self? cs := by
  have hconst : leadsConst (unqualified cs) = false :=
    leadsConst_eq_false fun hin =>
      not_mem_strippedWords_unqualified hin (by decide)
  have hwords : wordsIn cs ≠ [] :=
    hword.elim fun w hw => List.ne_nil_of_mem hw.1
  rw [mapStep_eq_strippedStep (wordsIn_unqualified_ne_nil hword),
    mapStep_eq_strippedStep hwords, hconst, hleads,
    stripQualifiers_unqualified]

end Words

/-! ### Callables in a text -/

/-- The type is spelled as a block or as a pointer to a function. -/
def IsCallableText (cs : List Char) : Prop :=
  isBlockText (stripQualifiers cs) = true
    ∨ isFunctionPointerText (stripQualifiers cs) = true

instance (cs : List Char) : Decidable (IsCallableText cs) :=
  inferInstanceAs (Decidable (_ ∨ _))

/-- A type is spelled as a callable whether its tag and its qualifiers
stand there or not. -/
lemma isCallableText_unqualified (cs : List Char) :
    isBlockText (unqualified cs) = isBlockText (stripQualifiers cs)
      ∧ isFunctionPointerText (unqualified cs)
        = isFunctionPointerText (stripQualifiers cs) := by
  have hparen : ∀ tag ∈ tagPrefixes, '(' ∉ tag := by decide
  rw [stripQualifiers, ← unqualified]
  rcases dropTag_cases (unqualified cs) with ⟨-, heq⟩ | ⟨tag, htag, heq⟩
  · rw [heq]
    exact ⟨rfl, rfl⟩
  · have hfront := hparen tag htag
    constructor
    · conv_lhs => rw [heq]
      exact opensBefore_append hfront _
    · conv_lhs => rw [heq]
      exact opensBefore_append hfront _

/-! ### Generic types -/

/-- The name of an array: its text without the star. -/
lemma isBase_array {cs base : List Char}
    (h : stripQualifiers cs = pointerTo (base ++ ['>']) 1) :
    IsBase (base ++ ['>']) where
  tidy := by
    have htidy := tidy_stripQualifiers cs
    rw [h] at htidy
    refine htidy.of_append fun c hc => ?_
    obtain rfl : '>' = c := by simpa using hc
    decide
  last := fun c hc => by
    obtain rfl : '>' = c := by simpa using hc
    decide
  words := fun w hw => by
    rw [← wordsIn_pointerTo _ 1, ← h] at hw
    exact (wordsIn_stripQualifiers hw).2

/-- The arguments of a generic type whose text holds a single one. -/
lemma splitGeneric_single {name inner : List Char} (hname : '<' ∉ name)
    (htrim : trim name = name) (hcommas : CommasInAngles inner)
    (hne : trim inner ≠ []) :
    splitGeneric (name ++ '<' :: (inner ++ ['>'])) = (name, [trim inner]) := by
  rw [splitGeneric_group hname List.not_mem_nil, htrim,
    topLevelParts_of_commasInAngles hcommas hne]

/-- The context gives a meaning to the name. -/
def TypeContext.Knows (ctx : TypeContext) (name : String) : Prop :=
  ctx.isAlias name = true ∨ name ∈ ctx.blocks ∨ name ∈ ctx.functionPointers

instance (ctx : TypeContext) (name : String) : Decidable (ctx.Knows name) :=
  inferInstanceAs (Decidable (_ ∨ _ ∨ _))

section Generic

variable {ctx : TypeContext} {self? : Option String} {base : List Char}
  {depth : Nat}

lemma mapPointer_of_not_knows (hdepth : depth < 2)
    (hname : ¬ ctx.Knows (String.ofList base)) (hadConst : Bool) :
    mapPointer ctx self? hadConst base depth
      = mapNamed ctx self? hadConst base depth := by
  obtain ⟨halias, hother⟩ := not_or.mp hname
  obtain ⟨hblock, hfunction⟩ := not_or.mp hother
  rw [mapPointer_of_not_callable hdepth hblock hfunction,
    mapAlias?_eq_none fun h => absurd h halias]

lemma tableNames_no_angle :
    ∀ entry ∈ primitiveTypes ++ objectTypes, '<' ∉ entry.1.toList := by
  decide +kernel

/-- No table has a generic type as it stands. -/
lemma mapNamed_of_angle (hangle : '<' ∈ base) (hadConst : Bool) :
    mapNamed ctx self? hadConst base depth = mapGeneric ctx base depth := by
  have hne : ∀ name : String, '<' ∉ name.toList →
      String.ofList base ≠ name := by
    rintro name hnone rfl
    exact hnone (String.toList_ofList ▸ hangle)
  have hlookup : ∀ {table : List (String × String)},
      (∀ entry ∈ table, '<' ∉ entry.1.toList) →
      table.lookup (String.ofList base) = none := fun htable =>
    List.lookup_eq_none_iff.mpr fun entry hentry =>
      bne_iff_ne.mpr (hne _ (htable entry hentry))
  obtain ⟨hprimitive, hobject⟩ := List.forall_mem_append.mp tableNames_no_angle
  simp only [mapNamed, hne "instancetype" (by decide), hne "char" (by decide),
    hne "void" (by decide), hlookup hprimitive, hlookup hobject,
    List.contains_iff_mem.mpr hangle, false_and, if_false, if_true]

end Generic

/-! ### Arrays -/

/-- The text of a pointer to a collection of elements. -/
def arrayText (collection element : String) : String :=
  collection ++ "<" ++ element ++ "> *"

/-- The collections that are mapped to arrays are words. -/
lemma arrayCollections_isWord : ∀ collection ∈ arrayCollections,
    collection.toList ≠ [] ∧ IsWord collection.toList
      ∧ collection.toList ∉ strippedWords := by
  decide +kernel

section Arrays

variable {collection : String} (hcollection : collection ∈ arrayCollections)

lemma toList_arrayText (element : String) :
    (arrayText collection element).toList
      = collection.toList ++ '<' :: (element.toList ++ '>' :: [' ', '*']) := by
  simp [arrayText]

include hcollection

lemma wordsIn_array_ne_nil (element : String) :
    wordsIn (arrayText collection element).toList ≠ [] := by
  obtain ⟨hne, hword, -⟩ := arrayCollections_isWord _ hcollection
  rw [toList_arrayText, wordsIn_append_cons _ (by decide),
    wordsIn_of_isWord hword, closedWord, if_neg (by simpa using hne)]
  exact List.cons_ne_nil _ _

/-- No tag is a word with an angle bracket behind it. -/
lemma noTag_array (cs : List Char) :
    NoTag (collection.toList ++ '<' :: cs) := by
  intro tag htag hpre
  obtain ⟨-, hword, -⟩ := arrayCollections_isWord _ hcollection
  have hname : collection.toList ++ ['<'] <+: collection.toList ++ '<' :: cs :=
    ⟨cs, by simp⟩
  have hspace : ∀ tag ∈ tagPrefixes, ' ' ∈ tag ∧ '<' ∉ tag := by decide
  rcases List.prefix_or_prefix_of_prefix hpre hname with hle | hle
  · -- the space of the tag is no part of the name
    rcases List.mem_append.mp (hle.subset (hspace tag htag).1) with hin | hin
    · exact absurd (hword ' ' hin) (by decide)
    · exact absurd hin (by decide)
  · exact (hspace tag htag).2 (hle.subset
      (List.mem_append_right _ List.mem_cons_self))

/-- An array without qualifiers has the element without its own between the
angle brackets, perhaps with blanks around it. -/
theorem exists_stripQualifiers_array (element : String) :
    ∃ front back, (∀ c ∈ front, isBlank c = true)
      ∧ (∀ c ∈ back, isBlank c = true)
      ∧ stripQualifiers (arrayText collection element).toList
        = pointerTo (collection.toList ++ '<'
          :: (front ++ unqualified element.toList ++ back ++ ['>'])) 1 := by
  obtain ⟨hne, hword, hstay⟩ := arrayCollections_isWord _ hcollection
  have hname : blankOutWords strippedWords collection.toList
      = collection.toList :=
    blankOutWords_eq strippedWords_isWord fun w hw =>
      eq_of_mem_wordsIn hword hw ▸ hstay
  have hsolid : ∀ c ∈ collection.toList ++ ['<'], isBlank c = false := by
    intro c hc
    rcases List.mem_append.mp hc with hc | hc
    · exact hword.not_blank hc
    · rw [List.mem_singleton.mp hc]
      decide
  obtain ⟨front, hfront, hsqueeze⟩ := exists_squeeze_solid
    (List.append_ne_nil_of_right_ne_nil _ (List.cons_ne_nil _ _)) hsolid
    (blankOutWords strippedWords element.toList ++ '>' :: [' ', '*'])
  obtain ⟨back, hback, hclosed⟩ := exists_squeeze_append (c := '>')
    (by decide) (blankOutWords strippedWords element.toList) [' ', '*']
  refine ⟨front, back, hfront, hback, ?_⟩
  have hmarks : blankOutWords strippedWords [' ', '*'] = [' ', '*'] := by
    decide +kernel
  have hend : squeeze ['>', ' ', '*'] = ['>', ' ', '*'] := by decide +kernel
  rw [stripQualifiers, toList_arrayText,
    blankOutWords_append_cons strippedWords_isWord _ (by decide), hname,
    blankOutWords_append_cons strippedWords_isWord _ (by decide), hmarks]
  rw [List.append_cons, hsqueeze, hclosed, hend, dropTag_of_noTag]
  · simp [pointerTo, unqualified]
  · rw [List.append_assoc]
    exact noTag_array hcollection _

/-- An array of a single argument leads to that. -/
lemma mapGeneric_array {ctx : TypeContext} {base arg : List Char}
    {depth : Nat} (hparts : splitGeneric base = (collection.toList, [arg])) :
    mapGeneric ctx base depth = .again "" arg "[]" := by
  obtain rfl | rfl :
      collection = "NSArray" ∨ collection = "NSMutableArray" := by
    simpa [arrayCollections] using hcollection
  all_goals
    simp only [mapGeneric, hparts, String.ofList_toList]
    rfl

/-- An array is spelled as a callable exactly if its element is. -/
lemma isCallableText_array (element : String) :
    isBlockText (stripQualifiers (arrayText collection element).toList)
        = isBlockText (stripQualifiers element.toList)
      ∧ isFunctionPointerText
          (stripQualifiers (arrayText collection element).toList)
        = isFunctionPointerText (stripQualifiers element.toList) := by
  obtain ⟨front, back, hfront, hback, hstrip⟩ :=
    exists_stripQualifiers_array hcollection element
  obtain ⟨-, hisWord, -⟩ := arrayCollections_isWord _ hcollection
  have hblanks : ∀ gap : List Char, (∀ c ∈ gap, isBlank c = true) →
      '(' ∉ gap := fun gap hgap hin => absurd (hgap '(' hin) (by decide)
  have hbefore : '(' ∉ collection.toList ++ '<' :: front := by
    intro hin
    rcases List.mem_append.mp hin with hin | hin
    · exact absurd (hisWord '(' hin) (by decide)
    · exact hblanks front hfront (List.mem_of_ne_of_mem (by decide) hin)
  have hparen : '(' ∉ back ++ ['>', ' ', '*'] := by
    rw [List.mem_append]
    exact not_or.mpr ⟨hblanks back hback, by decide⟩
  have hclosed : (back ++ ['>', ' ', '*']).dropWhile isBlank
      = ['>', ' ', '*'] := by
    rw [List.dropWhile_append_of_pos hback]
    exact List.dropWhile_cons_of_neg (by decide)
  have htext : stripQualifiers (arrayText collection element).toList
      = collection.toList ++ '<' :: front
        ++ (unqualified element.toList ++ (back ++ ['>', ' ', '*'])) := by
    rw [hstrip]
    simp [pointerTo]
  obtain ⟨hblock, hfunction⟩ := isCallableText_unqualified element.toList
  constructor
  · rw [htext, isBlockText, opensBefore_append hbefore]
    exact (isBlockText_append hparen (by rw [hclosed]; decide) _).trans
      hblock
  · rw [htext, isFunctionPointerText, opensBefore_append hbefore]
    exact (isFunctionPointerText_append hparen (by rw [hclosed]; decide)
      (by rw [hclosed]; decide) _).trans hfunction

end Arrays

section Elements

variable {ctx : TypeContext} {self? : Option String}
  {collection element : String} (hcollection : collection ∈ arrayCollections)
  (hword : ∃ w ∈ wordsIn element.toList, w ∉ strippedWords)
include hcollection hword

/-- The step of an array leads to its element. -/
theorem mapStep_array (hcallable : ¬ IsCallableText element.toList)
    (hcommas : CommasInAngles element.toList)
    (hname : ¬ ctx.Knows (baseTypeName (arrayText collection element))) :
    mapStep ctx self? (arrayText collection element).toList
      = .again "" (unqualified element.toList) "[]" := by
  obtain ⟨front, back, hfront, hback, hstrip⟩ :=
    exists_stripQualifiers_array hcollection element
  obtain ⟨-, hisWord, -⟩ := arrayCollections_isWord _ hcollection
  set inner := front ++ unqualified element.toList ++ back with hinner
  have hbase := @isBase_array (arrayText collection element).toList
    (collection.toList ++ '<' :: inner) (by simpa using hstrip)
  rw [List.append_assoc, List.cons_append] at hbase
  have hsplit := splitPointers_pointerTo hbase (by simp) 1
  rw [baseTypeName, baseOf, hstrip, hsplit] at hname
  obtain ⟨hnoBlock, hnoFunction⟩ := not_or.mp hcallable
  rw [← (isCallableText_array hcollection element).1] at hnoBlock
  rw [← (isCallableText_array hcollection element).2] at hnoFunction
  have hone : splitGeneric (collection.toList ++ '<' :: (inner ++ ['>']))
      = (collection.toList, [unqualified element.toList]) := by
    have hangle : '<' ∉ collection.toList := fun hin =>
      absurd (hisWord '<' hin) (by decide)
    have hsolid : trim collection.toList = collection.toList :=
      trim_eq (fun c hc => hisWord.not_blank (List.mem_of_mem_head? hc))
        fun c hc => hisWord.not_blank
          (List.mem_reverse.mp (List.mem_of_mem_head? hc))
    have hskeleton : skeleton inner = skeleton element.toList := by
      rw [hinner, skeleton_append, skeleton_append, skeleton_unqualified,
        skeleton_eq_nil fun c hc => isAngleMark_of_isBlank (hfront c hc),
        skeleton_eq_nil fun c hc => isAngleMark_of_isBlank (hback c hc),
        List.nil_append, List.append_nil]
    have htrim : trim inner = unqualified element.toList := by
      rw [hinner, trim_append_blanks _ hback, trim_blanks_append hfront,
        trim_of_tidy (tidy_unqualified _)]
    rw [splitGeneric_single hangle hsolid (hcommas.of_skeleton hskeleton),
      htrim]
    rw [htrim]
    intro hnil
    exact wordsIn_unqualified_ne_nil hword (by rw [hnil]; rfl)
  rw [mapStep_eq_strippedStep (wordsIn_array_ne_nil hcollection element),
    strippedStep, if_neg hnoBlock,
    if_neg hnoFunction, hstrip, hsplit,
    mapPointer_of_not_knows (Nat.lt_succ_self 1) hname,
    mapNamed_of_angle (by simp), mapGeneric_array hcollection hone]

/-- The array is mapped to an array of what its element is mapped to, and
has a result exactly if the element has. -/
def MapsElementwise (ctx : TypeContext) (self? : Option String)
    (collection element : String) : Prop :=
  (Ends ctx self? (arrayText collection element).toList
      ↔ Ends ctx self? element.toList)
    ∧ (Ends ctx self? element.toList →
      mapType ctx self? (arrayText collection element)
        = mapType ctx self? element ++ "[]")

lemma mapsElementwise_of_not_callable
    (hleads : leadsConst element.toList = false)
    (hcallable : ¬ IsCallableText element.toList)
    (hcommas : CommasInAngles element.toList)
    (hname : ¬ ctx.Knows (baseTypeName (arrayText collection element))) :
    MapsElementwise ctx self? collection element := by
  set inner := String.ofList (unqualified element.toList) with hinner
  have hstep : mapStep ctx self? (arrayText collection element).toList
      = .again "" inner.toList "[]" := by
    rw [hinner, String.toList_ofList]
    exact mapStep_array hcollection hword hcallable hcommas hname
  have hsame : mapStep ctx self? inner.toList
      = mapStep ctx self? element.toList := by
    rw [hinner, String.toList_ofList]
    exact mapStep_unqualified hword hleads
  refine ⟨(ends_iff_of_again hstep).trans (ends_congr hsame), fun hends => ?_⟩
  rw [mapType_of_again hstep ((ends_congr hsame).mpr hends),
    mapType_congr hsame, String.empty_append]

/-- An element that is spelled as a callable is mapped like the array. -/
lemma mapStep_callable (hcallable : IsCallableText element.toList) :
    ∃ text, mapStep ctx self? element.toList = .done text
      ∧ mapStep ctx self? (arrayText collection element).toList
        = .done text := by
  have hwords : wordsIn element.toList ≠ [] :=
    hword.elim fun w hw => List.ne_nil_of_mem hw.1
  rw [mapStep_eq_strippedStep (wordsIn_array_ne_nil hcollection element),
    mapStep_eq_strippedStep hwords, strippedStep, strippedStep,
    (isCallableText_array hcollection element).1,
    (isCallableText_array hcollection element).2]
  rcases hcallable with hblock | hfunction
  · rw [if_pos hblock, if_pos hblock]
    exact ⟨_, rfl, rfl⟩
  · rw [if_pos hfunction, if_pos hfunction]
    split
    · exact ⟨_, rfl, rfl⟩
    · exact ⟨_, rfl, rfl⟩

/-- An array of elements with a name, where the context does not know the
text of the array itself, is mapped elementwise exactly if the element is
spelled as no callable. -/
theorem mapsElementwise_iff (hleads : leadsConst element.toList = false)
    (hcommas : IsCallableText element.toList
      ∨ CommasInAngles element.toList)
    (hname : ¬ ctx.Knows (baseTypeName (arrayText collection element))) :
    MapsElementwise ctx self? collection element
      ↔ ¬ IsCallableText element.toList := by
  constructor
  · rintro ⟨-, hmaps⟩ hcallable
    obtain ⟨text, helement, harray⟩ :=
      @mapStep_callable ctx self? _ _ hcollection hword
      hcallable
    have heq := hmaps ⟨1, text, .done helement⟩
    rw [mapType_of_done helement, mapType_of_done harray] at heq
    have hlength := congrArg String.length heq
    rw [String.length_append] at hlength
    exact absurd hlength (Nat.ne_of_lt (Nat.lt_add_of_pos_right (by decide)))
  · intro hcallable
    exact mapsElementwise_of_not_callable hcollection hword hleads hcallable
      (hcommas.resolve_left hcallable) hname

end Elements

/-- An array of tables, with a qualifier on the tables. -/
theorem mapsElementwise_tables :
    MapsElementwise {} none "NSMutableArray"
        "NSDictionary<NSString *, id> * _Nonnull"
      ∧ mapType {} none "NSDictionary<NSString *, id> * _Nonnull"
        = "NSDictionary<NSString, NSObject>" := by
  have hcallable : ¬ IsCallableText
      "NSDictionary<NSString *, id> * _Nonnull".toList := by
    decide +kernel
  refine ⟨(mapsElementwise_iff (by decide) (by decide +kernel)
    (by decide +kernel) (.inr (by decide +kernel)) ?_).mpr hcallable, ?_⟩
  · decide +kernel
  · decide +kernel

/-- An array of blocks is mapped like the block, and a comma between
parentheses cuts the element off. -/
theorem not_mapsElementwise_block :
    (∃ w ∈ wordsIn "void (^)(int)".toList, w ∉ strippedWords)
      ∧ skeleton "void (^)(int)".toList = []
      ∧ leadsConst "void (^)(int)".toList = false
      ∧ mapType {} none (arrayText "NSArray" "void (^)(int)")
        ≠ mapType {} none "void (^)(int)" ++ "[]"
      ∧ (∃ w ∈ wordsIn "Pair(A, B)".toList, w ∉ strippedWords)
      ∧ skeleton "Pair(A, B)".toList = [',']
      ∧ leadsConst "Pair(A, B)".toList = false
      ∧ mapType {} none (arrayText "NSArray" "Pair(A, B)")
        ≠ mapType {} none "Pair(A, B)" ++ "[]" := by
  decide +kernel

end HeaderBinding
