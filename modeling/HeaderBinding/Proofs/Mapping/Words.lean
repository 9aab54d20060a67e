/-
Which words are left of the text of a type on its way through the map.

* `wordsIn_stripQualifiers`: qualifiers are gone, and nothing is new;
* `wordsIn_splitPointers`: stars do not matter;
* `wordsIn_splitGeneric_fst`, `wordsIn_splitGeneric_snd`: the name and the
  arguments of a generic type have words of the type;
* `chase_cases`: an alias ends where it starts or at some target, so that
  `wordsIn_resolveText` has words of these.
-/
import HeaderBinding.Mapping.Mapped
import HeaderBinding.Proofs.Text.Words

namespace HeaderBinding

/-! ### Parts of a type -/

lemma strippedWords_isWord : ∀ w ∈ strippedWords, w ≠ [] ∧ IsWord w := by
  decide +kernel

/-- A tag is a word and the space behind it. -/
lemma tagPrefixes_word : ∀ tag ∈ tagPrefixes,
    ∃ word, ' ' ∉ word ∧ tag = word ++ [' '] := by
  simp only [tagPrefixes, List.map_cons, List.map_nil, List.forall_mem_cons]
  exact ⟨⟨"struct".toList, by decide, rfl⟩,
    ⟨"enum".toList, by decide, rfl⟩, ⟨"union".toList, by decide, rfl⟩,
    by simp⟩

lemma wordsIn_dropTag (cs : List Char) :
    wordsIn (dropTag cs) ⊆ wordsIn cs := by
  rw [dropTag]
  cases h : tagPrefixes.findSome? fun tag => tag.isPrefixOf? cs with
  | none => exact List.Subset.refl _
  | some rest =>
      obtain ⟨tag, htag, hrest⟩ := List.exists_of_findSome?_eq_some h
      obtain ⟨word, -, rfl⟩ := tagPrefixes_word tag htag
      rw [List.isPrefixOf?_eq_some_iff_append_eq] at hrest
      rw [← hrest, List.append_assoc]
      exact wordsIn_behind_subset word (by decide) rest

/-- Nothing is new in a type without its qualifiers. -/
theorem wordsIn_stripQualifiers {w cs : List Char}
    (h : w ∈ wordsIn (stripQualifiers cs)) :
    w ∈ wordsIn cs ∧ w ∉ strippedWords := by
  have hw := wordsIn_dropTag _ h
  rw [wordsIn_squeeze, wordsIn_blankOutWords strippedWords_isWord,
    List.mem_filter] at hw
  exact ⟨hw.1, by simpa using hw.2⟩

lemma isWordChar_of_isPointerMark {c : Char}
    (h : isPointerMark c = true) : isWordChar c = false := by
  rcases Bool.or_eq_true_iff.mp h with h | h
  · obtain rfl := eq_of_beq h
    decide
  · exact isWordChar_of_isBlank h

@[simp] lemma wordsIn_splitPointers (cs : List Char) :
    wordsIn (splitPointers cs).1 = wordsIn cs := by
  rw [splitPointers]
  exact (wordsIn_dropEnd (fun _ => isWordChar_of_isPointerMark) _).trans
    (wordsIn_trim cs)

lemma wordsIn_baseOf {w cs : List Char} (h : w ∈ wordsIn (baseOf cs)) :
    w ∈ wordsIn cs ∧ w ∉ strippedWords :=
  wordsIn_stripQualifiers (by rwa [baseOf, wordsIn_splitPointers] at h)

lemma wordsIn_splitGeneric_fst (cs : List Char) :
    wordsIn (splitGeneric cs).1 ⊆ wordsIn cs := by
  rw [splitGeneric]
  split
  · rw [wordsIn_trim]
    exact wordsIn_takeWhile_ne (by decide) cs
  · exact List.Subset.refl _

lemma wordsIn_splitGeneric_snd {cs arg : List Char}
    (h : arg ∈ (splitGeneric cs).2) : wordsIn arg ⊆ wordsIn cs := by
  rw [splitGeneric] at h
  split at h
  · refine List.Subset.trans (wordsIn_topLevelParts h) ?_
    exact List.Subset.trans (wordsIn_dropEnd_ne (by decide) _)
      (wordsIn_tail_dropWhile_ne (by decide) cs)
  · cases h

/-- Stars have no words. -/
lemma wordsIn_pointerTo (base : List Char) (depth : Nat) :
    wordsIn (pointerTo base depth) = wordsIn base := by
  refine wordsIn_append_gap base fun c hc => ?_
  split at hc
  · cases hc
  · rcases List.mem_cons.mp hc with rfl | hc
    · decide
    · obtain rfl := (List.mem_replicate.mp hc).2
      decide

/-! ### Aliases -/

lemma mem_of_lookup {β : Type} {table : List (String × β)} {key : String}
    {value : β} (h : table.lookup key = some value) :
    (key, value) ∈ table := by
  obtain ⟨before, behind, rfl, -⟩ := List.lookup_eq_some_iff.mp h
  exact List.mem_append_right _ List.mem_cons_self

/-- An alias ends where it starts or at the target of some alias. -/
theorem chase_cases (table : List (String × String))
    (current text : String) :
    chase table current text = text
      ∨ ∃ entry ∈ table, chase table current text = entry.2 := by
  fun_induction chase table current text with
  | case1 table current text h => exact .inl rfl
  | case2 table current text target h ih =>
      refine .inr ?_
      rcases ih with heq | ⟨entry, hentry, heq⟩
      · exact ⟨_, mem_of_lookup h, heq⟩
      · exact ⟨entry, (List.mem_filter.mp hentry).1, heq⟩

lemma wordsIn_resolveText {ctx : TypeContext} {name : String}
    {w : List Char} (h : w ∈ wordsIn (ctx.resolveText name).toList) :
    w ∈ wordsIn name.toList
      ∨ ∃ entry ∈ ctx.aliases, w ∈ wordsIn entry.2.toList := by
  rcases chase_cases ctx.aliases name name with heq | ⟨entry, hentry, heq⟩
  · exact .inl (heq ▸ h)
  · exact .inr ⟨entry, hentry, heq ▸ h⟩

end HeaderBinding
