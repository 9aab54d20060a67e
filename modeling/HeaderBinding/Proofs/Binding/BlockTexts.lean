/-
The texts of block types and of their parameters.

* `StaysWhole`: a text closes the brackets that it opens, and has no comma
  outside of them; `topLevelParts_join`: joined with commas, such texts are
  parted where they were joined;
* `splitBlockSignature_append`, `splitBlockSignature_join`: so are the
  parameters of a block type;
* `splitBlockParameter?_append`: the last word of a parameter is its name,
  if it may be one.
-/
import HeaderBinding.Binding.Delegate
import HeaderBinding.Proofs.Mapping.Qualifiers
import HeaderBinding.Proofs.Token.Reread

namespace HeaderBinding

/-! ### Spaces -/

lemma trim_space_cons (cs : List Char) : trim (' ' :: cs) = trim cs :=
  @trim_blanks_append [' '] (List.forall_mem_singleton.mpr (by decide)) cs

lemma trim_append_space (cs : List Char) : trim (cs ++ [' ']) = trim cs :=
  trim_append_blanks cs (List.forall_mem_singleton.mpr (by decide))

/-! ### Texts that stay whole -/

section Parts

variable {openers closers : List Char}

/-- How deep in brackets a text is behind one more character. -/
def depthAfter (openers closers : List Char) (depth : Int) (c : Char) :
    Int :=
  if openers.contains c then depth + 1
  else if closers.contains c then depth - 1 else depth

/-- The text closes the brackets that it opens and those that were open in
front of it, and no comma in it stands outside of all of them. -/
def StaysWhole (openers closers : List Char) : Int → List Char → Prop
  | depth, [] => depth = 0
  | depth, c :: cs =>
    ¬ (c = ',' ∧ depthAfter openers closers depth c = 0)
      ∧ StaysWhole openers closers (depthAfter openers closers depth c) cs

lemma splitAtDepth_cons {depth : Int} {c : Char} {cs q : List Char}
    {qs : List (List Char)}
    (hc : ¬ (c = ',' ∧ depthAfter openers closers depth c = 0))
    (h : splitAtDepth openers closers
      (depthAfter openers closers depth c) cs = q :: qs) :
    splitAtDepth openers closers depth (c :: cs) = (c :: q) :: qs := by
  rw [depthAfter] at hc h
  rw [splitAtDepth, if_neg hc, h]

/-- Such a text is not parted from what follows. -/
lemma StaysWhole.splitAtDepth_append {depth : Int} {p : List Char}
    (h : StaysWhole openers closers depth p) {rest q : List Char}
    {qs : List (List Char)}
    (hrest : splitAtDepth openers closers 0 rest = q :: qs) :
    splitAtDepth openers closers depth (p ++ rest) = (p ++ q) :: qs := by
  induction p generalizing depth with
  | nil =>
      obtain rfl : depth = 0 := h
      exact hrest
  | cons c p ih => exact splitAtDepth_cons h.1 (ih h.2)

/-- Texts that stay whole, with a comma and a space between them, are
parted at these commas. -/
lemma splitAtDepth_join
    (hsep : ∀ c ∈ [',', ' '], c ∉ openers ∧ c ∉ closers)
    {p : List Char} {ps : List (List Char)}
    (h : ∀ q ∈ p :: ps, StaysWhole openers closers 0 q) :
    splitAtDepth openers closers 0 ([',', ' '].intercalate (p :: ps))
      = p :: ps.map (' ' :: ·) := by
  have hdepth : ∀ c ∈ [',', ' '], depthAfter openers closers 0 c = 0 := by
    intro c hc
    simp [depthAfter, hsep c hc]
  induction ps generalizing p with
  | nil =>
      have hp := h p List.mem_cons_self
      simpa using hp.splitAtDepth_append
        (show splitAtDepth openers closers 0 [] = [[]] from rfl)
  | cons q qs ih =>
      obtain ⟨hp, hqs⟩ := List.forall_mem_cons.mp h
      have hspace : splitAtDepth openers closers 0
          (' ' :: [',', ' '].intercalate (q :: qs))
          = (' ' :: q) :: qs.map (' ' :: ·) := by
        refine splitAtDepth_cons (fun hc => absurd hc.1 (by decide)) ?_
        rw [hdepth ' ' (by simp), ih hqs]
      have hcomma : splitAtDepth openers closers 0
          (',' :: ' ' :: [',', ' '].intercalate (q :: qs))
          = [] :: (q :: qs).map (' ' :: ·) := by
        have hzero := hdepth ',' (by simp)
        rw [depthAfter] at hzero
        rw [splitAtDepth, if_pos ⟨rfl, hzero⟩, hzero, hspace]
        rfl
      rw [List.intercalate_cons_cons, List.append_assoc]
      simpa using hp.splitAtDepth_append hcomma

/-- A last piece that is not blank counts like the others. -/
lemma topLevelParts_eq_map {cs last : List Char} {ps : List (List Char)}
    (h : splitAtDepth openers closers 0 cs = ps ++ [last])
    (hlast : trim last ≠ []) :
    topLevelParts openers closers cs = (ps ++ [last]).map trim := by
  rw [topLevelParts, h]
  simp [hlast]

/-- **Joined texts are parted where they were joined**: if they stay whole
and are not blank, the pieces between the commas are the texts. -/
theorem topLevelParts_join
    (hsep : ∀ c ∈ [',', ' '], c ∉ openers ∧ c ∉ closers)
    {ps : List (List Char)}
    (h : ∀ p ∈ ps, StaysWhole openers closers 0 p ∧ trim p ≠ []) :
    topLevelParts openers closers ([',', ' '].intercalate ps)
      = ps.map trim := by
  cases ps with
  | nil => rfl
  | cons p ps =>
      have hparts := splitAtDepth_join hsep fun q hq => (h q hq).1
      rcases List.eq_nil_or_concat ps with rfl | ⟨front, last, rfl⟩
      · have hpieces : splitAtDepth openers closers 0
            ([',', ' '].intercalate [p]) = [] ++ [p] := hparts
        exact topLevelParts_eq_map hpieces (h p List.mem_cons_self).2
      · have hlast : trim (' ' :: last) ≠ [] := by
          rw [trim_space_cons]
          exact (h last (by simp)).2
        have hpieces : splitAtDepth openers closers 0
            ([',', ' '].intercalate (p :: front.concat last))
            = (p :: front.map (' ' :: ·)) ++ [' ' :: last] := by
          simpa using hparts
        rw [topLevelParts_eq_map hpieces hlast]
        simp [trim_space_cons]

end Parts

/-! ### Signatures -/

/-- The first mark of a block behind a text that has none, and a space. -/
lemma cutAt?_blockMark {returned : List Char}
    (h : ¬ blockMark <:+: returned) (rest : List Char) :
    cutAt? blockMark (returned ++ ' ' :: (blockMark ++ rest))
      = some (returned ++ [' '], rest) := by
  induction returned with
  | nil => rfl
  | cons c cs ih =>
      rw [List.infix_cons_iff, not_or] at h
      -- the mark has no space in it
      have hno : ¬ blockMark <+: (c :: cs) ++ ' ' :: (blockMark ++ rest) := by
        intro hprefix
        have hspace : (c :: cs) ++ [' ']
            <+: (c :: cs) ++ ' ' :: (blockMark ++ rest) :=
          ⟨blockMark ++ rest, by simp⟩
        have hnone : ' ' ∉ blockMark := by decide
        rcases List.prefix_or_prefix_of_prefix hprefix hspace with hin | hin
        · rcases List.prefix_concat_iff.mp hin with heq | hin
          · exact hnone (heq ▸ by simp)
          · exact h.1 hin
        · exact hnone (hin.subset (by simp))
      rw [List.cons_append, cutAt?, if_neg, ih h.2]
      · rfl
      · rwa [List.isPrefixOf_iff_prefix]

/-- A signature is split where it was joined, and `void` alone is no
parameter. -/
lemma splitBlockSignature_append {returned : List Char}
    (hreturned : ¬ blockMark <:+: returned) {ps : List (List Char)}
    (h : ∀ p ∈ ps, StaysWhole ['(', '<'] [')', '>'] 0 p ∧ trim p ≠ []) :
    splitBlockSignature (returned ++ " (^)(".toList
        ++ [',', ' '].intercalate ps ++ [')'])
      = (trim returned,
        if ps.map trim = ["void".toList] then [] else ps.map trim) := by
  set inner := [',', ' '].intercalate ps
  have htext : returned ++ " (^)(".toList ++ inner ++ [')']
      = returned ++ ' ' :: (blockMark ++ '(' :: (inner ++ [')'])) := by
    simp [blockMark]
  have hparens : dropParens (trim ('(' :: (inner ++ [')']))) = inner := by
    have hopen : isBlank '(' = false := by decide
    have hclose : isBlank ')' = false := by decide
    have htrim : trim ('(' :: (inner ++ [')'])) = '(' :: (inner ++ [')']) :=
      trim_eq (by simpa using hopen) (by simpa using hclose)
    rw [htrim, dropParens]
    simp
  have hparts : topLevelParts ['(', '<'] [')', '>'] inner = ps.map trim :=
    topLevelParts_join (by simp) h
  rw [splitBlockSignature, htext, cutAt?_blockMark hreturned]
  simp only [Option.getD_some]
  rw [hparens, hparts, trim_append_space]

/-- A signature with other parameters than `void` alone has them all. -/
theorem splitBlockSignature_join {returned : List Char}
    (hreturned : ¬ blockMark <:+: returned) {ps : List (List Char)}
    (h : ∀ p ∈ ps, StaysWhole ['(', '<'] [')', '>'] 0 p ∧ trim p ≠ [])
    (hvoid : ps.map trim ≠ ["void".toList]) :
    splitBlockSignature (returned ++ " (^)(".toList
        ++ [',', ' '].intercalate ps ++ [')'])
      = (trim returned, ps.map trim) := by
  rw [splitBlockSignature_append hreturned h, if_neg hvoid]

/-! ### Parameters -/

/-- The last word behind a character that belongs to none. -/
lemma splitBlockParameter?_append {front name : List Char} {mark : Char}
    (hmark : isWordChar mark = false)
    (hname : ∀ c ∈ name, isWordChar c = true) :
    splitBlockParameter? (front ++ mark :: name)
      = if name.head?.any startsPlainName && isPointerMark mark
            && !front.contains '\n' && !(trim (front ++ [mark])).isEmpty
            && !typeWordsOfC.contains (String.ofList name) then
          some (trim (front ++ [mark]), name)
        else none := by
  have hsplit : (front ++ mark :: name).reverse
      = name.reverse ++ mark :: front.reverse := by simp
  have hword : ∀ c ∈ name.reverse, isWordChar c = true := fun c hc =>
    hname c (List.mem_reverse.mp hc)
  have hstop : ∀ c ∈ (mark :: front.reverse).head?, isWordChar c = false :=
    fun c hc => Option.some.inj hc ▸ hmark
  rw [splitBlockParameter?, hsplit, takeWhile_append_of_stop hword hstop,
    dropWhile_append_of_stop hword hstop]
  simp

/-- A word alone names nothing. -/
lemma splitBlockParameter?_of_word {cs : List Char}
    (h : ∀ c ∈ cs, isWordChar c = true) :
    splitBlockParameter? cs = none := by
  have hdrop : cs.reverse.dropWhile isWordChar = [] :=
    List.dropWhile_eq_nil_iff.mpr fun c hc => h c (List.mem_reverse.mp hc)
  rw [splitBlockParameter?, hdrop]

end HeaderBinding
