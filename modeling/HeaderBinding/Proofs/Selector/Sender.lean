/-
What is kept of a delegate method whose name starts with its sender.

* `SenderCut`: a sender behind the start of a segment, and the first verb
  behind it; `exists_senderCut`: a segment that is cut has both;
* `SenderCut.kept`: what is kept, found by counting the letters and digits
  before the verb; `SenderCut.IsTight`: they stand before all underscores;
* `CutsAtVerb`: the text that is kept starts with a verb, and a sender
  stands before it;
* `stripped_cutsAtVerb_iff`: this is so exactly if no letter or digit
  between sender and verb stands behind an underscore.
-/
import Mathlib.Data.List.Infix
import HeaderBinding.Proofs.Selector.Words
import HeaderBinding.Selector.Phrase

namespace HeaderBinding

variable {cs w rest tail : List Char} {ws : List (List Char)}

/-! ### Occurrences and verbs -/

/-- Before each text that follows a piece stand the piece and a front. -/
lemma exists_of_mem_afterOccurrences {piece : List Char}
    (h : rest ∈ afterOccurrences piece cs) :
    ∃ front, cs = front ++ (piece ++ rest) := by
  induction cs with
  | nil => exact absurd h List.not_mem_nil
  | cons c cs ih =>
      rcases List.mem_append.mp h with hhere | hlater
      · rw [Option.mem_toList, List.isPrefixOf?_eq_some_iff_append_eq] at hhere
        exact ⟨[], hhere.symm⟩
      · obtain ⟨front, rfl⟩ := ih hlater
        exact ⟨c :: front, rfl⟩

/-- A verb is a capital with small letters behind it. -/
lemma exists_of_isVerb (h : String.ofList w ∈ senderVerbs) :
    ∃ cap low more, w = cap :: low :: more ∧ cap.isUpper = true
      ∧ low.isLower = true ∧ ∀ d ∈ more, d.isLower = true := by
  have hall : ∀ v ∈ senderVerbs, v.toList.head?.any Char.isUpper = true
      ∧ v.toList.tail ≠ [] ∧ v.toList.tail.all Char.isLower = true := by
    decide
  obtain ⟨hcap, htail, hlow⟩ := hall _ h
  rw [String.toList_ofList] at hcap htail hlow
  rw [List.all_eq_true] at hlow
  match w with
  | [] => cases hcap
  | [_] => exact absurd rfl htail
  | cap :: low :: more =>
      rw [List.tail_cons, List.forall_mem_cons] at hlow
      exact ⟨cap, low, more, rfl, hcap, hlow⟩

/-- The text from the first verb on, where the words before it are taken to
stand side by side. -/
lemma exists_of_fromSenderVerb? (h : fromSenderVerb? ws cs = some tail) :
    ∃ before verb after, ws = before ++ verb :: after
      ∧ (∀ w ∈ before, String.ofList w ∉ senderVerbs)
      ∧ String.ofList verb ∈ senderVerbs
      ∧ tail = cs.drop before.flatten.length := by
  induction ws generalizing cs with
  | nil => cases h
  | cons word ws ih =>
      rw [fromSenderVerb?] at h
      split at h
      · rename_i hverb
        exact ⟨[], word, ws, rfl, List.forall_mem_nil _,
          List.contains_iff_mem.mp hverb, (Option.some.inj h).symm⟩
      · rename_i hverb
        obtain ⟨before, verb, after, rfl, hnone, hisVerb, rfl⟩ := ih h
        refine ⟨word :: before, verb, after, rfl,
          List.forall_mem_cons.mpr ⟨?_, hnone⟩, hisVerb, ?_⟩
        · exact fun hmem => hverb (List.contains_iff_mem.mpr hmem)
        · rw [List.drop_drop, List.flatten_cons, List.length_append]

/-- A verb that starts before another one ends before it. -/
lemma exists_append_of_isVerb {verb verb' front behind behind' : List Char}
    (hverb : String.ofList verb ∈ senderVerbs)
    (hverb' : String.ofList verb' ∈ senderVerbs) (hne : front ≠ [])
    (h : verb ++ behind = front ++ (verb' ++ behind')) :
    ∃ more, front = verb ++ more ∧ behind = more ++ (verb' ++ behind') := by
  rcases List.append_eq_append_iff.mp h with h | ⟨more, hmore, hrest⟩
  · exact h
  cases more with
  | nil => exact ⟨[], by simpa using hmore.symm, by simpa using hrest.symm⟩
  | cons d more =>
      -- the second verb would start with a small letter of the first
      obtain ⟨cap, low, tail, rfl, -, hlow, htail⟩ := exists_of_isVerb hverb
      obtain ⟨cap', low', tail', rfl, hcap', -, -⟩ := exists_of_isVerb hverb'
      obtain ⟨c, front, rfl⟩ := List.exists_cons_of_ne_nil hne
      have hd : d ∈ low :: tail := by
        rw [(List.cons.inj hmore).2]
        exact List.mem_append_right front List.mem_cons_self
      have hdlow : d.isLower = true := by
        rcases List.mem_cons.mp hd with rfl | hd
        · exact hlow
        · exact htail d hd
      obtain rfl : cap' = d := (List.cons.inj hrest).1
      rw [isLower_eq_false_of_isUpper hcap'] at hdlow
      cases hdlow

/-- A verb that is read where another one follows is read without it. -/
lemma mem_camelWords_of_isVerb {verb verb' more behind : List Char}
    (hverb : String.ofList verb ∈ senderVerbs)
    (hverb' : String.ofList verb' ∈ senderVerbs)
    (h : (camelWords (verb ++ (more ++ (verb' ++ behind)))).head? = some verb)
    (front : List Char) : verb ∈ camelWords (front ++ (verb ++ more)) := by
  obtain ⟨cap, low, tail, rfl, hcap, hlow, -⟩ := exists_of_isVerb hverb
  obtain ⟨cap', low', tail', rfl, hcap', hlow', -⟩ := exists_of_isVerb hverb'
  have hfront := camelWords_append hcap hlow front (tail ++ more)
  have hbehind := camelWords_append hcap' hlow'
    (cap :: low :: (tail ++ more)) (tail' ++ behind)
  have hsome : camelWords (cap :: low :: (tail ++ more)) ≠ [] := by
    intro hnil
    have hletter := camelWords_eq_nil_iff.mp hnil cap List.mem_cons_self
    rw [isAlphanum_eq, hcap, Bool.true_or] at hletter
    cases hletter
  obtain ⟨word, words, hwords⟩ := List.exists_cons_of_ne_nil hsome
  simp only [List.cons_append, List.append_assoc] at h hfront hbehind ⊢
  rw [hbehind, hwords, List.cons_append, List.head?_cons,
    Option.some.injEq] at h
  rw [hfront, hwords, h]
  exact List.mem_append_right _ List.mem_cons_self

/-! ### The parts of a segment -/

/-- The parts of a segment with a sender behind its start, a capital behind
the sender, and the first verb of the words that follow. -/
structure SenderCut (segment : List Char) where
  front : List Char
  sender : List Char
  between : List Char
  verb : List Char
  behind : List Char
  segment_eq : segment = front ++ (sender ++ (between ++ (verb ++ behind)))
  front_ne : front ≠ []
  isSender : String.ofList sender ∈ senderSuffixes
  capital : (between ++ (verb ++ behind)).head?.any isCapital = true
  noVerb : ∀ w ∈ camelWords between, String.ofList w ∉ senderVerbs
  isVerb : String.ofList verb ∈ senderVerbs
  isWord : (camelWords (verb ++ behind)).head? = some verb

namespace SenderCut

variable {segment : List Char}

/-- What is kept of the segment.  Behind the sender as many characters are
left out as there are letters and digits before the verb. -/
def kept (cut : SenderCut segment) : List Char :=
  (cut.between ++ (cut.verb ++ cut.behind)).drop
    (cut.between.countP Char.isAlphanum)

/-- No letter and no digit before the verb stands behind another
character. -/
def IsTight (cut : SenderCut segment) : Prop :=
  cut.between.Pairwise fun c d => d.isAlphanum = true → c.isAlphanum = true

instance (cut : SenderCut segment) : Decidable cut.IsTight :=
  inferInstanceAs (Decidable (cut.between.Pairwise
    fun c d => d.isAlphanum = true → c.isAlphanum = true))

end SenderCut

/-- A segment that is cut has a sender and a verb. -/
lemma exists_senderCut {segment r : String}
    (h : stripSenderPrefix? segment = some r) :
    ∃ cut : SenderCut segment.toList, r.toList = uncapitalize cut.kept := by
  obtain ⟨tail, htail, rfl⟩ := Option.map_eq_some_iff.mp h
  obtain ⟨rest, hrest, hverb⟩ := List.exists_of_findSome?_eq_some htail
  obtain ⟨sender, hsender, hrest⟩ := List.mem_flatMap.mp hrest
  obtain ⟨hrest, hcapital⟩ := List.mem_filter.mp hrest
  obtain ⟨before, verb, after, hwords, hnone, hisVerb, rfl⟩ :=
    exists_of_fromSenderVerb? hverb
  obtain ⟨between, behind, rfl, hword⟩ := exists_of_camelWords_eq hwords
  have hbetween : camelWords between = before := by
    obtain ⟨cap, low, more, rfl, hcap, hlow, -⟩ := exists_of_isVerb hisVerb
    have happend := camelWords_append hcap hlow between (more ++ behind)
    rw [← List.cons_append, ← List.cons_append, hword, hwords] at happend
    exact (List.append_cancel_right happend).symm
  have hcount : before.flatten.length = between.countP Char.isAlphanum := by
    rw [← hbetween, flatten_camelWords, List.countP_eq_length_filter]
  cases hcs : segment.toList with
  | nil =>
      rw [hcs] at hrest
      exact absurd hrest List.not_mem_nil
  | cons c cs =>
      rw [hcs] at hrest
      obtain ⟨front, hfront⟩ := exists_of_mem_afterOccurrences hrest
      rw [List.tail_cons] at hfront
      refine ⟨⟨c :: front, sender.toList, between, verb, behind, ?_,
        List.cons_ne_nil c front, ?_, hcapital, ?_, hisVerb, ?_⟩, ?_⟩
      · rw [hfront, List.cons_append]
      · rw [String.ofList_toList]
        exact hsender
      · rw [hbetween]
        exact hnone
      · rw [hword, List.head?_cons]
      · rw [String.toList_ofList, SenderCut.kept, hcount]

/-! ### What the cut keeps -/

section Count

variable {p : Char → Bool}

/-- If nothing with a property stands behind something without it, then as
many characters as have it stand in front of all others. -/
lemma forall_drop_countP
    (h : cs.Pairwise fun c d => p d = true → p c = true) :
    ∀ c ∈ cs.drop (cs.countP p), p c = false := by
  induction h with
  | nil => exact List.forall_mem_nil _
  | @cons c cs hc hcs ih =>
      by_cases hp : p c = true
      · rw [List.countP_cons_of_pos hp, List.drop_succ_cons]
        exact ih
      · have hnone : ∀ d ∈ c :: cs, ¬ p d = true :=
          List.forall_mem_cons.mpr ⟨hp, fun d hd hpd => hp (hc d hd hpd)⟩
        rw [List.countP_eq_zero.mpr hnone, List.drop_zero]
        exact fun d hd => Bool.eq_false_iff.mpr (hnone d hd)

/-- Conversely, if the others come last, the first are all that have the
property. -/
lemma forall_take_countP (h : ∀ c ∈ cs.drop (cs.countP p), p c = false) :
    ∀ c ∈ cs.take (cs.countP p), p c = true := by
  have hlast : (cs.drop (cs.countP p)).countP p = 0 :=
    List.countP_eq_zero.mpr fun c hc => by simp [h c hc]
  have hsplit : (cs.take (cs.countP p)).countP p = cs.countP p := by
    conv_rhs => rw [← List.take_append_drop (cs.countP p) cs,
      List.countP_append, hlast, Nat.add_zero]
  refine List.countP_eq_length.mp ?_
  rw [hsplit, List.length_take_of_le List.countP_le_length]

end Count

namespace SenderCut

variable {segment : List Char} (cut : SenderCut segment)

/-- A cut is tight if no letter or digit is kept of what stands before the
verb. -/
lemma isTight_iff :
    cut.IsTight ↔ ∀ c ∈ cut.between.drop (cut.between.countP Char.isAlphanum),
      c.isAlphanum = false := by
  refine ⟨forall_drop_countP, fun h => ?_⟩
  have htake := forall_take_countP h
  rw [IsTight, ← List.take_append_drop
    (cut.between.countP Char.isAlphanum) cut.between, List.pairwise_append]
  refine ⟨List.pairwise_of_forall_mem_list fun c hc d _ _ => htake c hc,
    List.pairwise_of_forall_mem_list fun c _ d hd hpd => ?_,
    fun c hc d _ _ => htake c hc⟩
  rw [h d hd] at hpd
  cases hpd

/-- What is kept is the end of what stands before the verb, the verb and
what follows. -/
lemma kept_eq :
    cut.kept = cut.between.drop (cut.between.countP Char.isAlphanum)
      ++ (cut.verb ++ cut.behind) :=
  List.drop_append_of_le_length List.countP_le_length

/-- The segment is what is left out and what is kept. -/
lemma segment_eq_append_kept :
    segment = (cut.front ++ (cut.sender
        ++ cut.between.take (cut.between.countP Char.isAlphanum)))
      ++ cut.kept := by
  conv_lhs => rw [cut.segment_eq, ← List.take_append_drop
    (cut.between.countP Char.isAlphanum) cut.between]
  rw [kept_eq]
  simp only [List.append_assoc]

/-- The first word of what a tight cut keeps is the verb. -/
lemma camelWords_kept (h : cut.IsTight) :
    (camelWords cut.kept).head? = some cut.verb := by
  rw [kept_eq, camelWords_append_of_gap (cut.isTight_iff.mp h)]
  exact cut.isWord

/-- A cut that keeps a verb first is tight: if letters or digits were kept
before the verb, the verb that is kept first would stand before it. -/
lemma isTight_of_head {first : List Char}
    (hfirst : String.ofList first ∈ senderVerbs)
    (h : (camelWords cut.kept).head? = some first) : cut.IsTight := by
  obtain ⟨words, hwords⟩ := List.head?_eq_some_iff.mp h
  have hplace : camelWords cut.kept = [] ++ first :: words := hwords
  obtain ⟨gap, behind, hkept, hword⟩ := exists_of_camelWords_eq hplace
  have hgap : ∀ c ∈ gap, c.isAlphanum = false := by
    obtain ⟨cap, low, more, rfl, hcap, hlow, -⟩ := exists_of_isVerb hfirst
    have happend := camelWords_append hcap hlow gap (more ++ behind)
    rw [← List.cons_append, ← List.cons_append, ← hkept, hwords, hword,
      List.self_eq_append_left] at happend
    exact camelWords_eq_nil_iff.mp happend
  rw [isTight_iff]
  rw [kept_eq] at hkept
  rcases List.append_eq_append_iff.mp hkept with
    ⟨more, rfl, -⟩ | ⟨more, hend, hrest⟩
  · exact fun c hc => hgap c (List.mem_append_left more hc)
  by_cases hmore : more = []
  · rw [hend, hmore, List.append_nil]
    exact hgap
  · obtain ⟨last, rfl, rfl⟩ :=
      exists_append_of_isVerb hfirst cut.isVerb hmore hrest
    have hmem := mem_camelWords_of_isVerb hfirst cut.isVerb
      (by rw [hword, List.head?_cons])
      (cut.between.take (cut.between.countP Char.isAlphanum) ++ gap)
    rw [List.append_assoc, ← hend, List.take_append_drop] at hmem
    exact absurd hfirst (cut.noVerb first hmem)

/-- What is kept belongs to the segment. -/
lemma kept_subset : cut.kept ⊆ segment := by
  intro c hc
  rw [cut.segment_eq_append_kept]
  exact List.mem_append_right _ hc

lemma kept_ne_nil : cut.kept ≠ [] := by
  obtain ⟨cap, low, tail, hverb, -⟩ := exists_of_isVerb cut.isVerb
  rw [kept_eq, hverb]
  simp

/-- A tight cut of a plain segment keeps a capital or an underscore
first. -/
lemma exists_kept_of_isTight (hsegment : ∀ c ∈ segment, isPlainChar c = true)
    (h : cut.IsTight) :
    ∃ c more, cut.kept = c :: more ∧ (c.isUpper = true ∨ c = '_') := by
  obtain ⟨c, more, hkept⟩ := List.exists_cons_of_ne_nil cut.kept_ne_nil
  have hplain := hsegment c (cut.kept_subset (hkept ▸ List.mem_cons_self))
  refine ⟨c, more, hkept, ?_⟩
  have hgap := cut.isTight_iff.mp h
  rw [kept_eq] at hkept
  cases hend : cut.between.drop (cut.between.countP Char.isAlphanum) with
  | nil =>
      obtain ⟨cap, low, tail, hverb, hcap, -⟩ := exists_of_isVerb cut.isVerb
      rw [hend, hverb] at hkept
      exact .inl ((List.cons.inj hkept).1 ▸ hcap)
  | cons d gap =>
      rw [hend] at hkept hgap
      have hnone := hgap d List.mem_cons_self
      rw [(List.cons.inj hkept).1] at hnone
      rw [isPlainChar, hnone, Bool.false_or, beq_iff_eq] at hplain
      exact .inr hplain

end SenderCut

/-! ### Cutting at a verb -/

/-- With a capital again, the result is what the segment ends with from a
verb on, and before that a sender stands, behind the start and with a
capital behind it. -/
def CutsAtVerb (segment result : List Char) : Prop :=
  ∃ before, segment = before ++ capitalize result ∧ before ≠ []
    ∧ (∃ verb ∈ senderVerbs,
      (camelWords (capitalize result)).head? = some verb.toList)
    ∧ ∃ front sender more, before = front ++ (sender ++ more) ∧ front ≠ []
      ∧ String.ofList sender ∈ senderSuffixes
      ∧ (more ++ capitalize result).head?.any isCapital = true

/-- What a cut keeps starts with a verb exactly if the cut is tight. -/
lemma SenderCut.cutsAtVerb_kept_iff {segment : List Char}
    (cut : SenderCut segment)
    (hsegment : ∀ c ∈ segment, isPlainChar c = true) :
    CutsAtVerb segment (uncapitalize cut.kept) ↔ cut.IsTight := by
  constructor
  · rintro ⟨before, hbefore, -, ⟨verb, hverb, hhead⟩, -⟩
    obtain ⟨c, more, hkept⟩ := List.exists_cons_of_ne_nil cut.kept_ne_nil
    have hc := hsegment c (cut.kept_subset (hkept ▸ List.mem_cons_self))
    have hlength : (capitalize (uncapitalize cut.kept)).length
        = cut.kept.length := by
      rw [hkept, uncapitalize_cons hc,
        capitalize_cons (toLower_of_isPlainChar hc).1]
      rfl
    have hends := hbefore.symm.trans cut.segment_eq_append_kept
    rw [(List.append_inj' hends hlength).2] at hhead
    rw [← String.ofList_toList (s := verb)] at hverb
    exact cut.isTight_of_head hverb hhead
  · intro htight
    have hback : capitalize (uncapitalize cut.kept) = cut.kept := by
      obtain ⟨c, more, hkept, hupper⟩ :=
        cut.exists_kept_of_isTight hsegment htight
      rw [hkept]
      refine capitalize_uncapitalize (hsegment c ?_) hupper more
      exact cut.kept_subset (hkept ▸ List.mem_cons_self)
    rw [CutsAtVerb, hback]
    refine ⟨_, cut.segment_eq_append_kept, ?_, ⟨String.ofList cut.verb,
      cut.isVerb, ?_⟩, _, _, _, rfl, cut.front_ne, cut.isSender, ?_⟩
    · exact List.append_ne_nil_of_left_ne_nil cut.front_ne _
    · rw [String.toList_ofList]
      exact cut.camelWords_kept htight
    · rw [cut.kept_eq, ← List.append_assoc, List.take_append_drop]
      exact cut.capital

/-- **What is kept of a segment with a sender.**  A segment of letters,
digits and underscores of ASCII that is cut has a sender behind its start
and a verb behind that; for these, the text that is kept starts with a verb
exactly if no letter or digit between them stands behind an underscore. -/
theorem stripped_cutsAtVerb_iff {segment r : String}
    (hsegment : ∀ c ∈ segment.toList, isPlainChar c = true)
    (h : stripSenderPrefix? segment = some r) :
    (∃ cut : SenderCut segment.toList, r.toList = uncapitalize cut.kept)
      ∧ ∀ cut : SenderCut segment.toList, r.toList = uncapitalize cut.kept →
        (CutsAtVerb segment.toList r.toList ↔ cut.IsTight) := by
  refine ⟨exists_senderCut h, fun cut hr => ?_⟩
  rw [hr]
  exact cut.cutsAtVerb_kept_iff hsegment

/-- A segment with underscores right before its verb, and a sender before
the letter and the digit that stand before them. -/
def scrollCut : SenderCut "gridViewA1__DidScroll".toList where
  front := "grid".toList
  sender := "View".toList
  between := "A1__".toList
  verb := "Did".toList
  behind := "Scroll".toList
  segment_eq := by decide
  front_ne := by decide
  isSender := by decide
  capital := by decide
  noVerb := by decide +kernel
  isVerb := by decide
  isWord := by decide +kernel

/-- The underscores are kept with the verb. -/
theorem stripped_cutsAtVerb_iff_scroll :
    stripSenderPrefix? "gridViewA1__DidScroll" = some "__DidScroll"
      ∧ scrollCut.IsTight
      ∧ CutsAtVerb "gridViewA1__DidScroll".toList "__DidScroll".toList := by
  have hstripped : stripSenderPrefix? "gridViewA1__DidScroll"
      = some "__DidScroll" := by
    decide +kernel
  have hplain : ∀ c ∈ "gridViewA1__DidScroll".toList, isPlainChar c = true :=
    List.all_eq_true.mp (by decide)
  have hcut := (stripped_cutsAtVerb_iff hplain hstripped).2 scrollCut
    (by decide +kernel)
  exact ⟨hstripped, by decide, hcut.mpr (by decide)⟩

/-- A letter behind an underscore is kept in front of the verb, and the text
then starts with another word. -/
theorem not_cutsAtVerb_underscore :
    stripSenderPrefix? "myViewA_BDidEnd" = some "bDidEnd"
      ∧ (∀ c ∈ "myViewA_BDidEnd".toList, isPlainChar c = true)
      ∧ ¬ CutsAtVerb "myViewA_BDidEnd".toList "bDidEnd".toList := by
  refine ⟨by decide +kernel, List.all_eq_true.mp (by decide), ?_⟩
  rintro ⟨before, -, -, ⟨verb, hverb, hhead⟩, -⟩
  have hword : (camelWords (capitalize "bDidEnd".toList)).head?
      = some ['B'] := by
    decide +kernel
  rw [hword, Option.some.injEq] at hhead
  have hnone : ∀ verb ∈ senderVerbs, ['B'] ≠ verb.toList := by
    decide
  exact hnone verb hverb hhead

end HeaderBinding
