/-
The types that the places of declarations get, from the traces of theirs.

* `Trace.splitUnsafe_flag`: where the source has no word `unsafe`, a place
  is told to be unsafe exactly if its type has a star;
* `Trace.bare_splitUnsafe`: if no pointer to a pointer was met, its type has
  no modifier; `Trace.splitUnsafe_of_outs`: otherwise it has all of them;
* `Header.IsUnmarked`: no type of a header has the word `unsafe`, and no
  class is named by a modifier; `Header.IsUnmarked.merged`,
  `Header.IsUnmarked.unmarking`: so it stays when categories are folded,
  and for what aliases stand for;
* `unmarked_splitBlockSignature`, `unmarked_splitBlockParameter`: so it
  does for the parts of a block type.
-/
import HeaderBinding.Proofs.Binding.Members
import HeaderBinding.Proofs.Mapping.Trace

namespace HeaderBinding

/-! ### Words of traces -/

lemma wordsIn_withOuts (n : Nat) (s : String) :
    wordsIn (withOuts n s).toList
      = List.replicate n "out".toList ++ wordsIn s.toList := by
  induction n with
  | zero => rfl
  | succ n ih =>
      have hout : "out ".toList = "out".toList ++ [' '] := by decide
      rw [withOuts, String.toList_append, hout, List.append_assoc,
        List.singleton_append, wordsIn_append_cons _ (by decide), ih]
      rfl

lemma wordsIn_withArrays (n : Nat) (s : String) :
    wordsIn (withArrays n s).toList = wordsIn s.toList := by
  induction n with
  | zero => rfl
  | succ n ih =>
      rw [withArrays, String.toList_append,
        wordsIn_append_gap _ (by decide), ih]

lemma wordsIn_text (t : Trace) :
    wordsIn t.text.toList
      = List.replicate t.outs "out".toList ++ wordsIn t.core.toList := by
  rw [Trace.text, wordsIn_withOuts, wordsIn_withArrays]

/-- A word in front of a space is a word of the text. -/
lemma mem_wordsIn_word_space {w cs : List Char} (hne : w ≠ [])
    (hw : IsWord w) (h : w ++ [' '] <+: cs) : w ∈ wordsIn cs := by
  obtain ⟨rest, rfl⟩ := h
  rw [List.append_assoc, List.singleton_append,
    wordsIn_append_cons w (by decide), wordsIn_of_isWord hw, closedWord,
    if_neg (by simpa using hne)]
  exact List.mem_append_left _ List.mem_cons_self

/-- What contains a star still does behind more words `out`. -/
lemma star_mem_withOuts {n : Nat} {s : String} (h : '*' ∈ s.toList) :
    '*' ∈ (withOuts n s).toList := by
  induction n with
  | zero => exact h
  | succ n ih =>
      rw [withOuts, String.toList_append]
      exact List.mem_append_right _ ih

/-- What contains a star still does in front of more brackets. -/
lemma star_mem_withArrays {n : Nat} {s : String} (h : '*' ∈ s.toList) :
    '*' ∈ (withArrays n s).toList := by
  induction n with
  | zero => exact h
  | succ n ih =>
      rw [withArrays, String.toList_append]
      exact List.mem_append_left _ ih

/-! ### The mark -/

/-- The mark is the word `unsafe` in front of a space. -/
lemma unsafeMark_toList :
    unsafeMark.toList = "unsafe".toList ++ [' '] := by
  decide

/-- The two outcomes of taking the mark away. -/
lemma splitUnsafe_cases (s : String) :
    (∃ rest, s.toList = unsafeMark.toList ++ rest
        ∧ splitUnsafe s = (String.ofList rest, true))
      ∨ (¬ unsafeMark.toList <+: s.toList
        ∧ splitUnsafe s = (s, s.toList.contains '*')) := by
  unfold splitUnsafe
  split
  · rename_i rest h
    rw [List.isPrefixOf?_eq_some_iff_append_eq] at h
    exact .inl ⟨rest, h.symm, rfl⟩
  · rename_i h
    refine .inr ⟨fun ⟨rest, hrest⟩ => ?_, rfl⟩
    rw [List.isPrefixOf?_eq_some_iff_append_eq.mpr hrest] at h
    cases h

lemma splitUnsafe_of_unmarked {s : String} (h : Unmarked s.toList) :
    splitUnsafe s = (s, s.toList.contains '*') := by
  rcases splitUnsafe_cases s with ⟨rest, hrest, -⟩ | ⟨-, heq⟩
  · refine absurd (mem_wordsIn_word_space ?_ ?_ ⟨rest, hrest.symm⟩) h <;>
      decide
  · exact heq

lemma splitUnsafe_unsafe (s : String) :
    splitUnsafe ("unsafe " ++ s) = (s, true) := by
  have htext : ("unsafe " ++ s).toList = unsafeMark.toList ++ s.toList :=
    String.toList_append
  rcases splitUnsafe_cases ("unsafe " ++ s) with
    ⟨rest, hrest, heq⟩ | ⟨hno, -⟩
  · rw [heq, List.append_cancel_left (hrest.symm.trans htext),
      String.ofList_toList]
  · exact absurd ⟨s.toList, htext.symm⟩ hno

lemma withArrays_unsafe (n : Nat) (s : String) :
    withArrays n ("unsafe " ++ s) = "unsafe " ++ withArrays n s := by
  induction n with
  | zero => rfl
  | succ n ih => rw [withArrays, ih, String.append_assoc]; rfl

section Trace

variable {t : Trace}

/-- Behind the word `out` the mark is not seen. -/
lemma splitUnsafe_of_outs (h : 0 < t.outs) :
    splitUnsafe t.text = (t.text, t.text.toList.contains '*') := by
  obtain ⟨n, hn⟩ := Nat.exists_eq_add_of_lt h
  have htext : ∃ rest, t.text.toList = 'o' :: rest := by
    rw [Trace.text, hn, Nat.zero_add, withOuts, String.toList_append]
    exact ⟨_, rfl⟩
  obtain ⟨rest, hrest⟩ := htext
  rcases splitUnsafe_cases t.text with ⟨rest', hmark, -⟩ | ⟨-, heq⟩
  · rw [hrest, unsafeMark_toList] at hmark
    cases hmark
  · exact heq

/-- Where no pointer to a pointer was met, no modifier is left once the
mark is taken away. -/
lemma bare_splitUnsafe (hk : t.Kept) (h : t.outs = 0) :
    Bare (splitUnsafe t.text).1.toList := by
  have hwords := wordsIn_text t
  rw [h, List.replicate_zero, List.nil_append] at hwords
  rcases hk with hbare | ⟨target, hbare, heq⟩
  · have htext : Bare t.text.toList := by
      rw [Bare, hwords]
      exact hbare
    rw [splitUnsafe_of_unmarked htext.unmarked]
    exact htext
  · have htext :
        t.text = "unsafe " ++ withArrays t.arrays (target ++ "*") := by
      rw [Trace.text, h, withOuts, heq, unsafePointer, String.append_assoc,
        withArrays_unsafe]
    rw [htext, splitUnsafe_unsafe, Bare, wordsIn_withArrays]
    exact hbare.append_gap (by decide)

/-- A place is told to be unsafe exactly if its type has a star. -/
lemma splitUnsafe_flag (hk : t.Kept) :
    (splitUnsafe t.text).2 = true
      ↔ '*' ∈ (splitUnsafe t.text).1.toList := by
  rcases splitUnsafe_cases t.text with ⟨rest, hrest, heq⟩ | ⟨-, heq⟩
  · rw [heq]
    refine iff_of_true rfl ?_
    have hin : "unsafe".toList ∈ wordsIn t.text.toList :=
      mem_wordsIn_word_space (by decide) (by decide) ⟨rest, hrest.symm⟩
    rw [wordsIn_text, List.mem_append, List.mem_replicate] at hin
    have hcore : "unsafe".toList ∈ wordsIn t.core.toList :=
      hin.resolve_left fun h => absurd h.2 (by decide)
    rcases hk with hbare | ⟨target, -, hpointer⟩
    · exact absurd hcore hbare.1
    · have hstar : '*' ∈ t.core.toList := by
        rw [hpointer, unsafePointer, String.toList_append]
        exact List.mem_append_right _ (by decide)
      have := star_mem_withOuts (n := t.outs)
        (star_mem_withArrays (n := t.arrays) hstar)
      rw [← Trace.text, hrest, List.mem_append] at this
      rw [String.toList_ofList]
      exact this.resolve_left (by decide)
  · rw [heq]
    exact List.contains_iff_mem

end Trace

/-! ### The types of a header -/

/-- No type of the method has the mark. -/
def Method.IsUnmarked (m : Method) : Prop :=
  Unmarked m.returnType.toList
    ∧ ∀ p ∈ m.parameters, Unmarked p.type.toList

/-- No type of the interface has the mark, and its name is no
modifier. -/
def Interface.IsUnmarked (i : Interface) : Prop :=
  Bare i.name.toList ∧ (∀ p ∈ i.properties, Unmarked p.type.toList)
    ∧ (∀ m ∈ i.instanceMethods, m.IsUnmarked)
    ∧ ∀ m ∈ i.classMethods, m.IsUnmarked

/-- No type of the protocol has the mark. -/
def Protocol.IsUnmarked (p : Protocol) : Prop :=
  (∀ q ∈ p.properties, Unmarked q.type.toList)
    ∧ (∀ m ∈ p.requiredInstance, m.IsUnmarked)
    ∧ (∀ m ∈ p.requiredClass, m.IsUnmarked)
    ∧ (∀ m ∈ p.optionalInstance, m.IsUnmarked)
    ∧ ∀ m ∈ p.optionalClass, m.IsUnmarked

/-- No type of the function has the mark. -/
def Function.IsUnmarked (f : Function) : Prop :=
  Unmarked f.returnType.toList
    ∧ ∀ p ∈ f.parameters, Unmarked p.type.toList

/-- No type of the header has the mark, and no class is named by a
modifier. -/
def Header.IsUnmarked (h : Header) : Prop :=
  (∀ i ∈ h.interfaces, i.IsUnmarked) ∧ (∀ p ∈ h.protocols, p.IsUnmarked)
    ∧ (∀ s ∈ h.structs, ∀ f ∈ s.fields, Unmarked f.elementType.toList)
    ∧ (∀ f ∈ h.functions, f.IsUnmarked)
    ∧ ∀ a ∈ h.aliases, Unmarked a.target.toList

instance (m : Method) : Decidable m.IsUnmarked :=
  inferInstanceAs (Decidable (_ ∧ _))

instance (i : Interface) : Decidable i.IsUnmarked :=
  inferInstanceAs (Decidable (_ ∧ _))

instance (p : Protocol) : Decidable p.IsUnmarked :=
  inferInstanceAs (Decidable (_ ∧ _))

instance (f : Function) : Decidable f.IsUnmarked :=
  inferInstanceAs (Decidable (_ ∧ _))

instance (h : Header) : Decidable h.IsUnmarked :=
  inferInstanceAs (Decidable (_ ∧ _))

lemma Interface.IsUnmarked.adopt {i c : Interface} (hi : i.IsUnmarked)
    (hc : c.IsUnmarked) : (i.adopt c).IsUnmarked := by
  obtain ⟨hname, hip, hii, hic⟩ := hi
  obtain ⟨-, hcp, hci, hcc⟩ := hc
  exact ⟨hname, List.forall_mem_append.mpr ⟨hip, hcp⟩,
    List.forall_mem_append.mpr ⟨hii, hci⟩,
    List.forall_mem_append.mpr ⟨hic, hcc⟩⟩

lemma Header.IsUnmarked.merged {h : Header} (hu : h.IsUnmarked) :
    h.merged.IsUnmarked := by
  obtain ⟨hi, hrest⟩ := hu
  refine ⟨forall_mem_mergeInterfaces (fun _ _ hi hc _ => hi.adopt hc)
    (fun c hc => hi c (List.mem_filter.mp hc).1) hi, hrest⟩

lemma Header.IsUnmarked.unmarking {h : Header} (hu : h.IsUnmarked)
    {self? : Option String} (hself : ∀ name ∈ self?, Bare name.toList) :
    (TypeContext.ofHeader h).Unmarking self? := by
  refine ⟨fun entry hentry => ?_, hself⟩
  obtain ⟨a, ha, rfl⟩ := TypeContext.mem_aliases_ofHeader hentry
  exact hu.2.2.2.2 a ha

/-! ### Block types -/

lemma wordsIn_dropParens (cs : List Char) :
    wordsIn (dropParens cs) ⊆ wordsIn cs := by
  unfold dropParens
  split
  · rename_i rest
    split
    · rename_i hlast
      have hrest : rest.dropLast ++ [')'] = rest :=
        List.dropLast_append_getLast? _ hlast
      rw [wordsIn_cons (by decide)]
      conv_rhs => rw [← hrest]
      exact wordsIn_before_subset _ (by decide) []
    · exact List.Subset.refl _
  · exact List.Subset.refl _

/-- The words of both sides of the mark of a block are words of the
type. -/
lemma wordsIn_cut {cs : List Char} {sides : List Char × List Char}
    (h : (cutAt? blockMark cs).getD (cs, []) = sides) :
    wordsIn sides.1 ⊆ wordsIn cs ∧ wordsIn sides.2 ⊆ wordsIn cs := by
  cases hcut : cutAt? blockMark cs with
  | none =>
      rw [hcut] at h
      subst h
      exact ⟨List.Subset.refl _, List.nil_subset _⟩
  | some cut =>
      rw [hcut] at h
      obtain rfl : cut = sides := h
      have heq : cs = cut.1 ++ '(' :: (['^', ')'] ++ cut.2) := by
        rw [cutAt?_eq_some hcut, List.append_assoc]
        rfl
      have hgap : wordsIn (['^', ')'] ++ cut.2) = wordsIn cut.2 :=
        wordsIn_gap_append (by decide) _
      rw [heq]
      exact ⟨wordsIn_before_subset _ (by decide) _,
        hgap ▸ wordsIn_behind_subset _ (by decide) _⟩

lemma unmarked_splitBlockSignature {cs : List Char} (h : Unmarked cs) :
    Unmarked (splitBlockSignature cs).1
      ∧ ∀ p ∈ (splitBlockSignature cs).2, Unmarked p := by
  obtain ⟨hbefore, hbehind⟩ :=
    wordsIn_cut (Eq.refl ((cutAt? blockMark cs).getD (cs, [])))
  unfold splitBlockSignature
  simp only
  generalize (cutAt? blockMark cs).getD (cs, []) = sides at hbefore hbehind
  refine ⟨h.mono (wordsIn_trim sides.1 ▸ hbefore), fun p hp => ?_⟩
  split at hp
  · cases hp
  · refine h.mono (List.Subset.trans (wordsIn_topLevelParts hp) ?_)
    refine List.Subset.trans (wordsIn_dropParens _) ?_
    rw [wordsIn_trim]
    exact hbehind

lemma unmarked_splitBlockParameter {cs : List Char} (h : Unmarked cs)
    {type name : List Char}
    (hsplit : splitBlockParameter? cs = some (type, name)) :
    Unmarked type := by
  unfold splitBlockParameter? at hsplit
  simp only at hsplit
  have hparts := List.takeWhile_append_dropWhile
    (p := isWordChar) (l := cs.reverse)
  have hhead := List.head?_dropWhile_not isWordChar cs.reverse
  generalize cs.reverse.takeWhile isWordChar = last at hsplit hparts
  cases hdrop : cs.reverse.dropWhile isWordChar with
  | nil =>
      rw [hdrop] at hsplit
      cases hsplit
  | cons mark before =>
      rw [hdrop] at hsplit hparts hhead
      simp only at hsplit
      split at hsplit
      · obtain ⟨rfl, -⟩ := Prod.mk.inj (Option.some.inj hsplit)
        have hcs : cs = before.reverse ++ mark :: last.reverse := by
          rw [← List.reverse_reverse cs, ← hparts]
          simp
        rw [Unmarked, wordsIn_trim, List.reverse_cons,
          wordsIn_append_cons _ hhead, wordsIn_nil, List.append_nil]
        rw [hcs, Unmarked, wordsIn_append_cons _ hhead] at h
        exact fun hin => h (List.mem_append_left _ hin)
      · cases hsplit

end HeaderBinding
