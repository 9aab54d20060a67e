/-
The names of methods are names that can be declared.

* `IsAsciiName`: a letter or an underscore of ASCII, with letters, digits
  and underscores behind it; `isAsciiName_baseSelectorName`: what a
  selector is about is one, if its segments are;
* `IsMemberName`: the same with a capital or an underscore at the start;
  `isMemberName_pascalCase`: the spelling of an identifier is one;
* `IsMemberName.not_mem_csharpKeywords`: no keyword starts like that;
* `methodName_isLegal`: the name of a method is one.
-/
import HeaderBinding.Proofs.Selector.Sender
import HeaderBinding.Selector.MethodName

namespace HeaderBinding

variable {c : Char} {cs ds : List Char}

/-! ### Identifiers -/

/-- Letters, digits and underscores of ASCII, and no digit first. -/
structure IsAsciiName (cs : List Char) : Prop where
  plain : ∀ c ∈ cs, isPlainChar c = true
  start : ∃ c ∈ cs.head?, c.isDigit = false

/-- An identifier is known by the characters that it has. -/
lemma isAsciiName_iff : IsAsciiName cs
    ↔ cs.all isPlainChar = true ∧ cs.head?.any (!·.isDigit) = true := by
  rw [List.all_eq_true, Option.any_eq_true]
  simp only [Bool.not_eq_true', ← Option.mem_def]
  exact ⟨fun h => ⟨h.plain, h.start⟩, fun h => ⟨h.1, h.2⟩⟩

instance (cs : List Char) : Decidable (IsAsciiName cs) :=
  decidable_of_iff _ isAsciiName_iff.symm

lemma IsAsciiName.ne_nil (h : IsAsciiName cs) : cs ≠ [] := by
  rintro rfl
  obtain ⟨c, hc, -⟩ := h.start
  cases hc

/-- What an identifier starts with is one. -/
lemma IsAsciiName.of_prefix (h : IsAsciiName cs) (hp : ds <+: cs)
    (hne : ds ≠ []) : IsAsciiName ds := by
  refine ⟨fun d hd => h.plain d (hp.subset hd), ?_⟩
  obtain ⟨d, ds, rfl⟩ := List.exists_cons_of_ne_nil hne
  obtain ⟨more, rfl⟩ := hp
  exact h.start

/-- A change that keeps the first character, and brings in letters, digits
and underscores only. -/
lemma IsAsciiName.of_head?_eq (h : IsAsciiName cs)
    (hhead : ds.head? = cs.head?)
    (hplain : ∀ d ∈ ds, d ∈ cs ∨ isPlainChar d = true) :
    IsAsciiName ds := by
  refine ⟨fun d hd => (hplain d hd).elim (h.plain d) id, ?_⟩
  rw [hhead]
  exact h.start

/-! ### Segments -/

/-- What a tight cut keeps starts with the letter of a verb or with an
underscore, in lower case as well. -/
lemma SenderCut.isAsciiName_uncapitalize (cut : SenderCut cs)
    (hplain : ∀ c ∈ cs, isPlainChar c = true) (h : cut.IsTight) :
    IsAsciiName (uncapitalize cut.kept) := by
  obtain ⟨c, more, hkept, hupper⟩ := cut.exists_kept_of_isTight hplain h
  have hmem : ∀ d ∈ c :: more, isPlainChar d = true :=
    fun d hd => hplain d (cut.kept_subset (hkept ▸ hd))
  obtain ⟨hc, hmore⟩ := List.forall_mem_cons.mp hmem
  obtain ⟨hlow, hdigit⟩ := toLower_of_isPlainChar hc
  rw [hkept, uncapitalize_cons hc]
  refine ⟨List.forall_mem_cons.mpr ⟨hlow, hmore⟩, c.toLower, rfl, ?_⟩
  rw [hdigit]
  rcases hupper with hupper | rfl
  · exact isDigit_eq_false_of_isUpper hupper
  · rfl

/-- What is kept of an identifier without underscores is one. -/
lemma isAsciiName_stripSenderPrefix? {segment r : String}
    (hsegment : IsAsciiName segment.toList)
    (hscore : '_' ∉ segment.toList)
    (h : stripSenderPrefix? segment = some r) : IsAsciiName r.toList := by
  obtain ⟨cut, hr⟩ := exists_senderCut h
  rw [hr]
  refine cut.isAsciiName_uncapitalize hsegment.plain ?_
  refine List.pairwise_of_forall_mem_list fun c hc d _ _ => ?_
  have hmem : c ∈ segment.toList := by
    rw [cut.segment_eq]
    simp [hc]
  have hplain := hsegment.plain c hmem
  rcases (Bool.or_eq_true _ _).mp hplain with halnum | hunderscore
  · exact halnum
  · exact absurd (beq_iff_eq.mp hunderscore ▸ hmem) hscore

/-- What a selector is made of: every segment is empty or an identifier, one
of them is not empty, and in a protocol there is no underscore. -/
structure IsAsciiSelector (selector : String) (inProtocol : Bool) : Prop where
  segments : ∀ segment ∈ splitAtChar ':' selector.toList,
    segment = [] ∨ IsAsciiName segment
  some_segment : ∃ segment ∈ splitAtChar ':' selector.toList, segment ≠ []
  no_underscore : inProtocol = true →
    ∀ segment ∈ splitAtChar ':' selector.toList, '_' ∉ segment

variable {selector : String} {inProtocol : Bool}

lemma IsAsciiSelector.of_mem_colonSegments
    (h : IsAsciiSelector selector inProtocol) {segment : String}
    (hsegment : segment ∈ colonSegments selector) :
    IsAsciiName segment.toList
      ∧ (inProtocol = true → '_' ∉ segment.toList) := by
  obtain ⟨cs, hcs, rfl⟩ := List.mem_map.mp hsegment
  obtain ⟨hmem, hne⟩ := List.mem_filter.mp hcs
  rw [String.toList_ofList]
  refine ⟨(h.segments cs hmem).resolve_left ?_,
    fun hprotocol => h.no_underscore hprotocol cs hmem⟩
  simpa using hne

lemma IsAsciiSelector.colonSegments_ne_nil
    (h : IsAsciiSelector selector inProtocol) :
    colonSegments selector ≠ [] := by
  obtain ⟨cs, hmem, hne⟩ := h.some_segment
  refine List.ne_nil_of_mem (List.mem_map.mpr
    ⟨cs, List.mem_filter.mpr ⟨hmem, ?_⟩, rfl⟩)
  simpa using hne

/-- The segment that a name is made of is an identifier. -/
lemma IsAsciiSelector.isAsciiName_namingSegment
    (h : IsAsciiSelector selector inProtocol) :
    IsAsciiName (namingSegment selector inProtocol).toList := by
  have hall : ∀ segment ∈ colonSegments selector,
      IsAsciiName segment.toList
        ∧ (inProtocol = true → '_' ∉ segment.toList) :=
    fun _ => h.of_mem_colonSegments
  rw [namingSegment]
  split
  · rename_i hnone
    exact absurd hnone h.colonSegments_ne_nil
  · rename_i segment hone
    obtain ⟨hsegment, hscore⟩ := hall segment (by simp [hone])
    split
    · rename_i hprotocol
      cases hstripped : stripSenderPrefix? segment with
      | none => exact hsegment
      | some r =>
          exact isAsciiName_stripSenderPrefix? hsegment
            (hscore hprotocol) hstripped
    · exact hsegment
  · rename_i first second more hmore
    split
    · exact (hall second (by simp [hmore])).1
    · exact (hall first (by simp [hmore])).1

/-! ### What a selector is about -/

lemma isPrefix_beforePhrase (cs : List Char) : beforePhrase cs <+: cs := by
  induction cs with
  | nil => exact List.prefix_rfl
  | cons c cs ih =>
      rw [beforePhrase]
      split
      · exact List.nil_prefix
      · exact List.cons_prefix_cons.mpr ⟨rfl, ih⟩

lemma isPrefix_dropQualifier (cs : List Char) : dropQualifier cs <+: cs := by
  rw [dropQualifier]
  split
  · exact List.take_prefix _ cs
  · exact List.prefix_rfl

lemma dropQualifier_ne_nil (hne : cs ≠ []) : dropQualifier cs ≠ [] := by
  rw [dropQualifier]
  split
  · rename_i h
    rw [← List.length_pos_iff, List.length_take]
    omega
  · exact hne

/-- A phrase and a qualifier at the end are left out of a segment, but not
all of it. -/
lemma isPrefix_stripTrailingContext {segment : String} (hne : segment ≠ "") :
    (stripTrailingContext segment).toList <+: segment.toList
      ∧ (stripTrailingContext segment).toList ≠ [] := by
  rw [stripTrailingContext]
  cases hsegment : segment.toList with
  | nil => exact absurd (String.toList_eq_nil_iff.mp hsegment) hne
  | cons c cs =>
      dsimp only
      rw [String.toList_ofList]
      refine ⟨(isPrefix_dropQualifier _).trans ?_,
        dropQualifier_ne_nil (List.cons_ne_nil _ _)⟩
      exact List.cons_prefix_cons.mpr ⟨rfl, isPrefix_beforePhrase cs⟩

/-- The word that is renamed gives way to letters. -/
lemma mem_renameBlockFrom {prev : Option Char}
    (h : c ∈ renameBlockFrom prev cs) : c ∈ cs ∨ isPlainChar c = true := by
  have hnew : ∀ d ∈ "Action".toList, isPlainChar d = true :=
    List.all_eq_true.mp (by decide)
  fun_induction renameBlockFrom prev cs with
  | case1 prev cs hword ih =>
      rcases List.mem_append.mp h with h | h
      · exact .inr (hnew c h)
      · exact (ih h).imp_left fun hc => by simp [hc]
  | case2 prev cs hword ih =>
      rcases List.mem_cons.mp h with rfl | h
      · exact .inl List.mem_cons_self
      · exact (ih h).imp_left (List.mem_cons_of_mem _)
  | case3 prev d cs hother ih =>
      rcases List.mem_cons.mp h with rfl | h
      · exact .inl List.mem_cons_self
      · exact (ih h).imp_left (List.mem_cons_of_mem _)
  | case4 prev => exact .inl h

/-- It is never the first of a text. -/
lemma head?_renameBlockFrom (cs : List Char) :
    (renameBlockFrom none cs).head? = cs.head? := by
  rw [renameBlockFrom.eq_def]
  split
  · rw [if_neg (by simp)]
    rfl
  · rfl
  · rfl

/-- What a selector is about is an identifier. -/
theorem IsAsciiSelector.isAsciiName_baseSelectorName
    (h : IsAsciiSelector selector inProtocol) :
    IsAsciiName (baseSelectorName selector inProtocol).toList := by
  have hsegment := h.isAsciiName_namingSegment
  have hne : namingSegment selector inProtocol ≠ "" :=
    mt String.toList_eq_nil_iff.mpr hsegment.ne_nil
  obtain ⟨hshort, hsome⟩ := isPrefix_stripTrailingContext hne
  have hrenamed : IsAsciiName (renameBlockWord (stripTrailingContext
      (namingSegment selector inProtocol))).toList := by
    rw [renameBlockWord, String.toList_ofList]
    exact (hsegment.of_prefix hshort hsome).of_head?_eq
      (head?_renameBlockFrom _) fun _ => mem_renameBlockFrom
  rw [baseSelectorName, if_neg (by rwa [← String.toList_eq_nil_iff]),
    collapseIsEqualTo]
  split
  · split
    · exact isAsciiName_iff.mpr (by decide)
    · exact hrenamed
  · exact hrenamed

/-! ### Spellings -/

/-- Letters, digits and underscores of ASCII, the first a capital or an
underscore. -/
structure IsMemberName (cs : List Char) : Prop where
  plain : ∀ c ∈ cs, isPlainChar c = true
  start : ∃ c ∈ cs.head?, c.isUpper = true ∨ c = '_'

lemma IsAsciiName.isMemberName_capitalize (h : IsAsciiName cs) :
    IsMemberName (capitalize cs) := by
  obtain ⟨c, cs, rfl⟩ := List.exists_cons_of_ne_nil h.ne_nil
  obtain ⟨hc, hcs⟩ := List.forall_mem_cons.mp h.plain
  obtain ⟨d, hd, hdigit⟩ := h.start
  obtain rfl : c = d := Option.some.inj hd
  obtain ⟨hplain, hupper⟩ := toUpper_of_isPlainChar hc hdigit
  rw [capitalize_cons hc]
  exact ⟨List.forall_mem_cons.mpr ⟨hplain, hcs⟩, c.toUpper, rfl, hupper⟩

section Replace

variable {piece new : List Char}

/-- Replacing brings in nothing but the new piece. -/
lemma mem_replaceFrom {skip : Nat} (h : c ∈ replaceFrom piece new skip cs) :
    c ∈ cs ∨ c ∈ new := by
  fun_induction replaceFrom piece new skip cs with
  | case1 => exact .inl h
  | case2 skip d cs ih => exact (ih h).imp_left (List.mem_cons_of_mem d)
  | case3 d cs hpiece ih =>
      rcases List.mem_append.mp h with h | h
      · exact .inr h
      · exact (ih h).imp_left (List.mem_cons_of_mem d)
  | case4 d cs hpiece ih =>
      rcases List.mem_cons.mp h with rfl | h
      · exact .inl List.mem_cons_self
      · exact (ih h).imp_left (List.mem_cons_of_mem d)

/-- A piece that gives way to one with the same first character leaves the
first character of the text. -/
lemma head?_replaceAll (hne : new ≠ []) (hhead : new.head? = piece.head?)
    (cs : List Char) : (replaceAll piece new cs).head? = cs.head? := by
  obtain ⟨d, new, rfl⟩ := List.exists_cons_of_ne_nil hne
  cases cs with
  | nil => rfl
  | cons c cs =>
      rw [replaceAll, replaceFrom]
      split
      · rename_i hpiece
        obtain ⟨more, hmore⟩ := List.isPrefixOf_iff_prefix.mp hpiece
        rw [← hmore, List.head?_append, List.head?_append, ← hhead]
        rfl
      · rfl

lemma IsMemberName.replaceAll (h : IsMemberName cs) (hne : new ≠ [])
    (hhead : new.head? = piece.head?)
    (hnew : ∀ d ∈ new, isPlainChar d = true) :
    IsMemberName (replaceAll piece new cs) := by
  refine ⟨fun d hd => (mem_replaceFrom hd).elim (h.plain d) (hnew d), ?_⟩
  rw [head?_replaceAll hne hhead]
  exact h.start

end Replace

/-- Acronyms that are written as words keep their first letters. -/
lemma IsMemberName.normalizeAcronyms (h : IsMemberName cs) :
    IsMemberName (normalizeAcronyms cs) := by
  have hall : ∀ a ∈ acronyms, a.2.toList ≠ []
      ∧ a.2.toList.head? = a.1.toList.head?
      ∧ a.2.toList.all isPlainChar = true := by
    decide
  refine List.foldlRecOn acronyms _ h fun ds hds a ha => ?_
  obtain ⟨hne, hhead, hnew⟩ := hall a ha
  exact hds.replaceAll hne hhead (List.all_eq_true.mp hnew)

/-- The spelling of an identifier is the name of a member. -/
theorem isMemberName_pascalCase {name : String}
    (h : IsAsciiName name.toList) : IsMemberName (pascalCase name).toList := by
  rw [pascalCase, String.toList_ofList]
  exact h.isMemberName_capitalize.normalizeAcronyms

/-- A name stays one behind another. -/
lemma IsMemberName.append (h : IsMemberName cs) (hd : IsMemberName ds) :
    IsMemberName (cs ++ ds) := by
  refine ⟨List.forall_mem_append.mpr ⟨h.plain, hd.plain⟩, ?_⟩
  obtain ⟨c, hc, hupper⟩ := h.start
  exact ⟨c, by rw [List.head?_append, Option.mem_def.mp hc]; rfl, hupper⟩

/-! ### Names -/

/-- Keywords start with small letters. -/
lemma IsMemberName.not_mem_csharpKeywords {name : String}
    (h : IsMemberName name.toList) : name ∉ csharpKeywords := by
  have hall : ∀ word ∈ csharpKeywords,
      (word.toList.head?.any fun c => c.isUpper || c == '_') = false := by
    decide
  obtain ⟨c, hc, hupper⟩ := h.start
  intro hmem
  have hstart := hall name hmem
  rw [Option.mem_def.mp hc, Option.any_some, Bool.or_eq_false_iff,
    beq_eq_false_iff_ne] at hstart
  rcases hupper with hupper | rfl
  · rw [hupper] at hstart
    cases hstart.1
  · exact hstart.2 rfl

/-- **Names of methods can be declared.**  Where every segment of a selector
is empty or an identifier of ASCII, some segment is not empty, and in a
protocol none has an underscore, the name of the method is not empty, has
only letters, digits and underscores of ASCII, starts with a capital or an
underscore, and is no keyword. -/
theorem methodName_isLegal {selector : String} {role : MethodRole}
    (hsegments : ∀ segment ∈ splitAtChar ':' selector.toList,
      segment = [] ∨ IsAsciiName segment)
    (hsome : ∃ segment ∈ splitAtChar ':' selector.toList, segment ≠ [])
    (hprotocol : role.inProtocol = true →
      ∀ segment ∈ splitAtChar ':' selector.toList, '_' ∉ segment) :
    methodName selector role ≠ ""
      ∧ (∀ c ∈ (methodName selector role).toList, isPlainChar c = true)
      ∧ (∃ c ∈ (methodName selector role).toList.head?,
        c.isUpper = true ∨ c = '_')
      ∧ methodName selector role ∉ csharpKeywords := by
  have hnamed : IsAsciiSelector selector role.inProtocol :=
    ⟨hsegments, hsome, hprotocol⟩
  have hspelled := isMemberName_pascalCase hnamed.isAsciiName_baseSelectorName
  have hname : IsMemberName (methodName selector role).toList := by
    rw [methodName]
    split
    · rw [String.toList_append]
      refine IsMemberName.append ?_ hspelled
      split
      · exact ⟨List.all_eq_true.mp (by decide), 'C', rfl, by decide⟩
      · exact ⟨List.all_eq_true.mp (by decide), 'G', rfl, by decide⟩
    · exact hspelled
  refine ⟨?_, hname.plain, hname.start, hname.not_mem_csharpKeywords⟩
  rintro hempty
  obtain ⟨c, hc, -⟩ := hname.start
  rw [hempty] at hc
  cases hc

/-- The role of a delegate method that gives a value for its parameters. -/
def askingRole : MethodRole where
  inProtocol := true
  returnsValue := true
  parameterCount := 2

/-- The sender, a phrase and the name of the block are left out, and a verb
comes first. -/
theorem methodName_isLegal_row :
    methodName "gridView:hudRowBlockForURL:" askingRole = "GetHudRowAction"
      ∧ (∃ c ∈ (methodName "gridView:hudRowBlockForURL:"
        askingRole).toList.head?, c.isUpper = true ∨ c = '_')
      ∧ methodName "gridView:hudRowBlockForURL:" askingRole
        ∉ csharpKeywords := by
  obtain ⟨-, -, hstart, hkeyword⟩ :=
    @methodName_isLegal "gridView:hudRowBlockForURL:" askingRole
      (by decide) (by decide) (by decide)
  exact ⟨by decide +kernel, hstart, hkeyword⟩

end HeaderBinding
