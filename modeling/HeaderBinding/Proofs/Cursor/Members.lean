/-
Members of a class are read within the tokens of their statement.

* `Grounds`: rows in which groups in brackets are read within the row;
* `grounds_past`: among all statements, a group that is not closed takes
  the end of the container with it;
* `grounds_nested`: where brackets are nested, every group is closed;
* `Grounds.stays_methodBody`, `Grounds.stays_propertyNameAndType`, ...: the
  productions of the members stay in such rows;
* `stays_propertyAttributes`: attributes do so, unless the semicolon is
  taken for the value of one.
-/
import HeaderBinding.Proofs.Cursor.Brackets
import HeaderBinding.Proofs.Cursor.Confined

namespace HeaderBinding

open Production

/-- Rows that end in a semicolon, and so do their end parts; what a bracket
opens in them is read within the row. -/
structure Grounds (X : Overrun) (P : List Token → Prop) : Prop where
  ends : ∀ {as}, P as → Terminated as
  suffix : ∀ {as bs}, P as → bs <:+ as → bs ≠ [] → P bs
  angles : ∀ {t as}, P (t :: as) → t.kind = .openAngle →
    Within X (angleTail 1) as
  parens : ∀ {t as}, P (t :: as) → t.kind = .openParen →
    Within X (piecesInParens 0) as

section Grounds

variable {X : Overrun} {P : List Token → Prop} (hP : Grounds X P)
include hP

lemma Grounds.of_cons {t : Token} {as : List Token} (h : P (t :: as))
    (hk : t.kind ≠ .semicolon) : P as :=
  hP.suffix h (List.suffix_cons t as) ((hP.ends h).of_cons hk).ne_nil

/-! ### Types -/

lemma Grounds.within_anglesHere {as : List Token} (has : P as) :
    Within X anglesHere as := by
  cases as with
  | nil => exact absurd rfl (hP.ends has).ne_nil
  | cons t as =>
      by_cases ht : t.kind = .openAngle
      · rcases hP.angles has ht with ⟨b, rest, hne, hs, hf⟩ | hall
        · refine .inl ⟨[joinTypeText (t.value :: b)], rest, hne,
            hs.trans (List.suffix_cons t as), fun behind => ?_⟩
          simp only [List.cons_append, anglesHere, ht, if_true, readAngles, hf]
        · refine .inr fun behind => ?_
          simp only [List.cons_append, anglesHere, ht, if_true, readAngles]
          exact hall behind
      · refine .inl (stopsIn_here [] (List.cons_ne_nil t as) fun behind => ?_)
        simp only [List.cons_append, anglesHere, ht, if_false]

omit hP in
/-- A word of a type and its group in angle brackets. -/
lemma typeWords_word {t : Token} (ht : t.kind = .identifier ∨ t.kind = .kwVoid)
    (ts : List Token) :
    typeWords (t :: ts)
      = if headIs .identifier (anglesHere ts).2
            ∧ kindAt 1 (anglesHere ts).2 ∈ nameFollowers then
          (t.value :: (anglesHere ts).1, (anglesHere ts).2)
        else
          (t.value :: ((anglesHere ts).1 ++ (typeWords (anglesHere ts).2).1),
            (typeWords (anglesHere ts).2).2) := by
  rw [typeWords, if_pos ht]

lemma Grounds.within_typeWords {as : List Token} (has : P as) :
    Within X typeWords as := by
  induction hlength : as.length using Nat.strongRecOn generalizing as with
  | _ n ih =>
      obtain ⟨t, as, rfl⟩ := List.exists_cons_of_ne_nil (hP.ends has).ne_nil
      by_cases ht : t.kind = .identifier ∨ t.kind = .kwVoid
      swap
      · refine .inl (stopsIn_here [] (List.cons_ne_nil t as) fun behind => ?_)
        rw [List.cons_append, typeWords, if_neg ht]
      have hrest := hP.of_cons has (by rcases ht with h | h <;> simp [h])
      rcases hP.within_anglesHere hrest with ⟨g, rest, hne, hs, hf⟩ | hall
      · have hmid := hP.suffix hrest hs hne
        have hlook := @headIs_kindAt_append _ (hP.ends hmid) .identifier
          (by decide) (· ∈ nameFollowers)
        by_cases hname : headIs .identifier rest = true
          ∧ kindAt 1 rest ∈ nameFollowers
        · refine .inl ⟨t.value :: g, rest, hne,
            hs.trans (List.suffix_cons t as), fun behind => ?_⟩
          rw [List.cons_append, typeWords_word ht, hf,
            if_pos ((hlook behind).mpr hname)]
        · have hlt : rest.length < n := by
            rw [← hlength]
            exact Nat.lt_succ_of_le hs.length_le
          refine (ih _ hlt hmid rfl).of_step (m := fun w => t.value :: (g ++ w))
            (hs.trans (List.suffix_cons t as)) fun behind => ?_
          rw [List.cons_append, typeWords_word ht, hf,
            if_neg (mt (hlook behind).mp hname)]
      · refine .inr fun behind => ?_
        rw [List.cons_append, typeWords_word ht]
        refine X.onward (hall behind) ?_
        split
        · exact .refl _
        · exact reaches_typeWords _

/-- The annotation behind the stars of a type. -/
def nullabilityMark (ts : List Token) : List String × List Token :=
  if headIsWord nullabilityWords ts then ([(nextToken ts).value], ts.tail)
  else ([], ts)

omit hP in
lemma stopsIn_nullabilityMark {as : List Token} (has : Terminated as) :
    StopsIn nullabilityMark as := by
  cases hword : headIsWord nullabilityWords as with
  | false =>
      refine stopsIn_here [] has.ne_nil fun behind => ?_
      rw [nullabilityMark, headIsWord_append has.ne_nil, hword,
        if_neg Bool.false_ne_true]
  | true =>
      obtain ⟨t, as, rfl, hk, -⟩ := exists_cons_of_headIsWord hword
      refine ⟨[t.value], as, (has.of_cons (by simp [hk])).ne_nil,
        List.suffix_cons t as, fun behind => ?_⟩
      rw [nullabilityMark, headIsWord_append has.ne_nil, if_pos hword]
      rfl

/-- One production behind another, in rows of the kind. -/
lemma Grounds.bind {α β : Type} {mayEnd : Bool} {p : Production α}
    {k : α → Production β} {as : List Token} (has : P as)
    (hp : p.Stays X false as) (hon : ∀ a, (k a).Onward)
    (hk : ∀ a rest, P rest → (k a).Stays X mayEnd rest) :
    (p >>= k).Stays X mayEnd as :=
  hp.bind hon fun a rest hne hs => hk a rest (hP.suffix has hs hne)

/-- One production behind another that stops, in rows of the kind. -/
lemma Grounds.bind_of_stopsIn {α β : Type} {mayEnd : Bool}
    {p : Production α} {k : α → Production β} {as : List Token} (has : P as)
    (hp : StopsIn p.result as)
    (hk : ∀ a rest, P rest → (k a).Stays X mayEnd rest) :
    (p >>= k).Stays X mayEnd as :=
  stays_bind_of_stopsIn hp fun a rest hne hs =>
    hk a rest (hP.suffix has hs hne)

lemma Grounds.stays_pure {α : Type} {mayEnd : Bool} {as : List Token}
    (has : P as) (a : α) : (pure a : Production α).Stays X mayEnd as :=
  stays_of_stopsIn (stopsIn_pure (hP.ends has).ne_nil a)

omit hP in
lemma reaches_nullabilityMark (ts : List Token) :
    Reaches ts (nullabilityMark ts).2 := by
  unfold nullabilityMark
  split
  · rename_i h
    exact reaches_tail_of_headIsWord h
  · exact .refl ts

/-- A type that a name follows, one part after the other. -/
def typeParts : Production String := do
  let keywords ← scan (takeKinds typeKeywords)
  let words ← scan typeWords
  let stars ← scan (pointerMarks (keywords ++ words).getLast?)
  let mark ← scan nullabilityMark
  return joinTypeText (keywords ++ words ++ stars ++ mark)

omit hP in
lemma scan_typeText : scan typeText = typeParts := rfl

lemma Grounds.stays_typeText {as : List Token} (has : P as) :
    (scan typeText).Stays X false as := by
  rw [scan_typeText]
  refine hP.bind_of_stopsIn has
    (stopsIn_scan (stopsIn_takeKinds (hP.ends has) (by decide)))
    fun keywords as has => ?_
  refine hP.bind has (stays_scan (hP.within_typeWords has)) (fun words => ?_)
    fun words as has => ?_
  · exact (onward_scan (reaches_pointerMarks _)).bind fun _ =>
      (onward_scan reaches_nullabilityMark).bind fun _ => onward_pure _
  refine hP.bind_of_stopsIn has
    (stopsIn_scan (stopsIn_pointerMarks (hP.ends has) _))
    fun stars as has => ?_
  exact hP.bind_of_stopsIn has
    (stopsIn_scan (stopsIn_nullabilityMark (hP.ends has)))
    fun mark as has => hP.stays_pure has _

lemma Grounds.within_typeInParens {t : Token} {as : List Token}
    (has : P (t :: as)) (ht : t.kind = .openParen) :
    Within X typeInParens as :=
  (hP.parens has ht).of_step (List.suffix_refl as) fun _ => rfl

/-- One of two productions, behind a mark that may come next. -/
lemma Grounds.stays_accept {α : Type} {mayEnd : Bool} {as : List Token}
    (has : P as) {kind : TokenKind} (hk : kind ≠ .semicolon)
    {p q : Production α}
    (hp : ∀ t rest, as = t :: rest → t.kind = kind → P rest →
      p.Stays X mayEnd rest)
    (hq : q.Stays X mayEnd as) :
    (accept kind >>= fun b => if b = true then p else q).Stays X mayEnd
      as :=
  stays_accept_ite (hP.ends has) hk (fun t rest heq ht _ =>
    hp t rest heq ht (hP.of_cons (heq ▸ has) (ht ▸ hk))) hq

lemma Grounds.stays_parenthesizedType {as : List Token} (has : P as)
    (due : Expectation) : (parenthesizedType due).Stays X false as := by
  refine hP.stays_accept has (by decide) (fun t rest heq ht hrest => ?_)
    (hP.stays_pure has _)
  refine hP.bind hrest (stays_scan (hP.within_typeInParens (heq ▸ has) ht))
    (fun _ => (onward_expect _ _).bind fun _ => onward_pure _)
    fun text as has => ?_
  exact hP.bind_of_stopsIn has
    (stopsIn_expect (hP.ends has) (by decide) (by decide) due)
    fun _ _ has => hP.stays_pure has _

/-! ### Methods -/

lemma Grounds.stays_methodParameter {as : List Token} (has : P as) :
    methodParameter.Stays X false as := by
  refine hP.bind has (hP.stays_parenthesizedType has _)
    (fun _ => onward_identifierOrEmpty.bind fun _ => onward_pure _)
    fun type as has => ?_
  exact hP.bind_of_stopsIn has (stopsIn_identifierOrEmpty (hP.ends has))
    fun _ _ has => hP.stays_pure has _

/-- The kinds that may label a segment of a selector. -/
def labelKinds : List TokenKind :=
  .identifier :: labelKeywords

omit hP in
lemma labelKinds_ne : ∀ kind ∈ labelKinds,
    kind ≠ .semicolon ∧ kind ≠ .endOfInput := by
  decide

omit hP in
lemma headIn_labelKinds {ts : List Token} (h : startsLabel ts = true) :
    headIn labelKinds ts = true := by
  rw [startsLabel, Bool.or_eq_true, Bool.and_eq_true] at h
  rcases h with ⟨h, -⟩ | h
  · exact headIn_imp (headIn_of_headIs h) (by decide)
  · exact headIn_imp h (by decide)

omit hP in
/-- A label with a colon behind it is seen within the tokens. -/
lemma startsLabel_colon_append {as : List Token} (has : Terminated as)
    (behind : List Token) :
    (startsLabel (as ++ behind) && kindAt 1 (as ++ behind) = .colon)
      = (startsLabel as && kindAt 1 as = .colon) := by
  rw [startsLabel_append has.ne_nil]
  cases hlabel : startsLabel as with
  | false => rfl
  | true =>
      rw [kindAt_one_append has (by decide) (headIn_labelKinds hlabel)]

lemma Grounds.stays_furtherSegment {as : List Token} (has : P as) :
    furtherSegment.Stays X false as := by
  refine stays_look_bind (startsLabel_colon_append (hP.ends has)) ?_
  cases hlabel : (startsLabel as && kindAt 1 as = .colon) with
  | false =>
      rw [if_neg Bool.false_ne_true]
      refine hP.stays_accept has (by decide) (fun _ _ _ _ hrest => ?_)
        (hP.stays_pure has _)
      exact hP.bind hrest (hP.stays_methodParameter hrest)
        (fun _ => onward_pure _) fun _ _ has => hP.stays_pure has _
  | true =>
      rw [if_pos rfl]
      rw [Bool.and_eq_true, decide_eq_true_eq] at hlabel
      obtain ⟨t, as, rfl, ht⟩ :=
        exists_cons_of_headIn (headIn_labelKinds hlabel.1)
      obtain ⟨hsemi, hend⟩ := labelKinds_ne t.kind ht
      replace has := hP.of_cons has hsemi
      obtain ⟨u, as, rfl⟩ := List.exists_cons_of_ne_nil (hP.ends has).ne_nil
      have hu : u.kind = .colon := hlabel.2
      refine stays_advance_bind hend (stays_skip_bind (List.suffix_cons u as)
        (fun behind => step_cons (by simp [hu])) ?_)
      replace has := hP.of_cons has (by simp [hu])
      exact hP.bind has (hP.stays_methodParameter has) (fun _ => onward_pure _)
        fun _ _ has => hP.stays_pure has _

/-- Two marks come next. -/
def twoMarks (first second : TokenKind) (ts : List Token) : Bool :=
  headIs first ts && kindAt 1 ts = second

/-- Two marks that may come next are passed over. -/
lemma Grounds.stays_marks {α : Type} {mayEnd : Bool} {as : List Token}
    (has : P as) {first second : TokenKind} (hk : first ≠ .semicolon)
    (hk' : second ≠ .semicolon) {p : Unit → Production α} {q : Production α}
    (hp : ∀ rest, P rest → (p ()).Stays X mayEnd rest)
    (hq : q.Stays X mayEnd as) :
    (look (twoMarks first second) >>= fun b =>
      if b = true then skip (List.drop 2) >>= p else q).Stays X mayEnd
        as := by
  have hends := hP.ends has
  refine stays_look_bind (fun behind => ?_) ?_
  · have hlook := headIs_kindAt_append hends hk (· = second) behind
    rw [Bool.eq_iff_iff, twoMarks, twoMarks]
    simpa only [Bool.and_eq_true, decide_eq_true_eq] using hlook
  cases hmarks : twoMarks first second as with
  | false =>
      rw [if_neg Bool.false_ne_true]
      exact hq
  | true =>
      rw [if_pos rfl]
      rw [twoMarks, Bool.and_eq_true, decide_eq_true_eq] at hmarks
      obtain ⟨t, as, rfl, rfl⟩ := exists_cons_of_headIs hmarks.1
      replace has := hP.of_cons has hk
      obtain ⟨u, as, rfl⟩ := List.exists_cons_of_ne_nil (hP.ends has).ne_nil
      obtain rfl : u.kind = second := hmarks.2
      exact stays_skip_bind
        ((List.suffix_cons u as).trans (List.suffix_cons t _))
        (fun _ => rfl) (hp as (hP.of_cons has hk'))

/-- Segments of a selector behind its first label. -/
lemma Grounds.stays_selectorSegments {as : List Token} (has : P as)
    (label : String) : (selectorSegments label).Stays X false as := by
  refine hP.bind has (hP.stays_methodParameter has) (fun _ => ?_)
    fun first as has => ?_
  · exact onward_furtherSegment.repeated.bind fun _ =>
      onward_look_ite (fun _ h => Onward.skip_bind (by exact onward_pure _)
        (reaches_drop_two (by decide) (by decide) h)) (onward_pure _)
  refine hP.bind has ?_ (fun _ => ?_) fun others as has => ?_
  · exact .repeated onward_furtherSegment (hP.ends has).ne_nil
      fun bs hne hs => hP.stays_furtherSegment (hP.suffix has hs hne)
  · exact onward_look_ite (fun _ h => Onward.skip_bind
      (by exact onward_pure _) (reaches_drop_two (by decide) (by decide) h))
      (onward_pure _)
  · exact hP.stays_marks has (by decide) (by decide)
      (fun _ has => hP.stays_pure has _) (hP.stays_pure has _)

/-- The macros behind a method, and the semicolon that may end it. -/
lemma Grounds.stays_methodRest {as : List Token} (has : P as)
    (inScope : Bool) (type label : String)
    (segments : List (String × Parameter)) :
    (methodRest inScope type label segments).Stays X true as :=
  hP.bind_of_stopsIn has
    (stopsIn_scan (stopsIn_trailingMacros (hP.ends has)))
    fun _ _ has => stays_semicolon (hP.ends has) _

/-- A method behind its sign, with the semicolon that may end it. -/
theorem Grounds.stays_methodBody {as : List Token} (has : P as)
    (inScope : Bool) : (methodBody inScope).Stays X true as := by
  refine hP.bind has (hP.stays_parenthesizedType has _) (fun type => ?_)
    fun type as has => ?_
  · refine (onward_look _).bind fun _ => Onward.ite
      (onward_throw_next .noSelector (fun _ => rfl) fun _ _ => rfl) ?_
    exact onward_advance.bind fun _ => (onward_accept (by decide)).bind
      fun _ => (onward_selectorSegments _).ite_bind (onward_pure _) fun _ =>
        onward_methodRest inScope type _ _
  have hne := (hP.ends has).ne_nil
  refine stays_look_bind (fun behind => by rw [startsLabel_append hne]) ?_
  cases hlabel : startsLabel as with
  | false =>
      refine stays_of_stopsIn ⟨.error (.noSelector (nextToken as)), as, hne,
        List.suffix_refl as, fun behind => ?_⟩
      rw [Bool.not_false, if_pos rfl, result_bind_of_ok (result_look _ _),
        nextToken_append hne]
      rfl
  | true =>
      rw [Bool.not_true, if_neg Bool.false_ne_true]
      obtain ⟨t, as, rfl, ht⟩ :=
        exists_cons_of_headIn (headIn_labelKinds hlabel)
      obtain ⟨hsemi, hend⟩ := labelKinds_ne t.kind ht
      replace has := hP.of_cons has hsemi
      refine stays_advance_bind hend ?_
      refine hP.stays_accept has (by decide) (fun _ _ _ _ has => ?_)
        (hP.bind_of_stopsIn has (stopsIn_pure (hP.ends has).ne_nil [])
          fun segments _ has => hP.stays_methodRest has inScope type t.value
            segments)
      exact hP.bind has (hP.stays_selectorSegments has t.value)
        (fun segments => onward_methodRest inScope type t.value segments)
        fun segments _ has => hP.stays_methodRest has inScope type t.value
          segments

/-! ### Properties -/

omit hP in
/-- Pieces are read up to a parenthesis or to the end. -/
lemma headIn_piecesInParens (depth : Nat) (ts : List Token) :
    (piecesInParens depth ts).2 = []
      ∨ headIn [.closeParen, .endOfInput] (piecesInParens depth ts).2
        = true := by
  fun_induction piecesInParens depth ts with
  | case1 => exact .inl rfl
  | case2 depth t rest h =>
      refine .inr (headIn_of_mem ?_ rest)
      rcases h with h | h
      · simp [h]
      · simp [h.1]
  | case3 depth t rest h piece r ih => exact ih

/-- The parameters of a block, with the parenthesis that closes them. -/
lemma Grounds.within_parameterText {t : Token} {as : List Token}
    (has : P (t :: as)) (ht : t.kind = .openParen) :
    Within X parameterText as := by
  rcases hP.parens has ht with ⟨b, rest, hne, hs, hf⟩ | hall
  · have hrest := hP.ends (hP.suffix has (hs.trans (List.suffix_cons t as)) hne)
    have hstop := headIn_piecesInParens 0 (as ++ [])
    rw [hf, List.append_nil] at hstop
    obtain ⟨u, rest, rfl, hu⟩ := exists_cons_of_headIn (hstop.resolve_left hne)
    have hstep : ∀ behind, parameterText (as ++ behind)
        = (joinTypeText b, step (u :: (rest ++ behind))) := fun behind => by
      rw [parameterText, hf]
      rfl
    by_cases hend : u.kind = .endOfInput
    · refine .inl ⟨joinTypeText b, u :: rest, hne, hs, fun behind => ?_⟩
      rw [hstep, step, atEnd]
      simp [hend]
    · have hsemi : u.kind ≠ .semicolon := fun h => by simp [h] at hu
      refine .inl ⟨joinTypeText b, rest, (hrest.of_cons hsemi).ne_nil,
        (List.suffix_cons u rest).trans hs, fun behind => ?_⟩
      rw [hstep, step_cons hend]
  · exact .inr fun behind => X.onward (hall behind) (reaches_step _)

/-- A block type behind the two tokens that open it. -/
lemma Grounds.stays_blockProperty {as : List Token} (has : P as)
    (result : String) :
    (do
      let marked ← look (headIsWord nullableMarkers)
      if ← look (headIsWord nullabilityWords) then skip step
      let name ← expectIdentifier .blockPropertyName
      let _ ← expect .closeParen .blockNameClose
      let parameters ←
        if ← accept .openParen then scan parameterText else pure ""
      return (name, result ++ " (^)(" ++ parameters ++ ")", marked)
        : Production (String × String × Bool)).Stays X false as := by
  have hname : ∀ (marked : Bool) {as : List Token}, P as →
      (do
        let name ← expectIdentifier .blockPropertyName
        let _ ← expect .closeParen .blockNameClose
        let parameters ←
          if ← accept .openParen then scan parameterText else pure ""
        return (name, result ++ " (^)(" ++ parameters ++ ")", marked)
          : Production (String × String × Bool)).Stays X false as := by
    intro marked as has
    refine hP.bind_of_stopsIn has (stopsIn_expectIdentifier (hP.ends has) _)
      fun name as has => ?_
    refine hP.bind_of_stopsIn has
      (stopsIn_expect (hP.ends has) (by decide) (by decide) _)
      fun _ as has => ?_
    refine hP.stays_accept has (by decide) (fun t rest heq ht hrest => ?_)
      (hP.bind_of_stopsIn has (stopsIn_pure (hP.ends has).ne_nil "")
        fun _ _ has => hP.stays_pure has _)
    exact hP.bind hrest (stays_scan (hP.within_parameterText (heq ▸ has) ht))
      (fun _ => onward_pure _) fun _ _ has => hP.stays_pure has _
  have hne := (hP.ends has).ne_nil
  refine stays_look_bind (headIsWord_append hne · _) ?_
  refine stays_look_bind (headIsWord_append hne · _) ?_
  cases hword : headIsWord nullabilityWords as with
  | false => exact hname _ has
  | true =>
      obtain ⟨t, as, rfl, hk, -⟩ := exists_cons_of_headIsWord hword
      exact stays_skip_bind (List.suffix_cons t as)
        (fun behind => step_cons (by simp [hk]))
        (hname _ (hP.of_cons has (by simp [hk])))

lemma Grounds.stays_propertyNameAndType {as : List Token} (has : P as) :
    propertyNameAndType.Stays X false as := by
  refine hP.bind has (hP.stays_typeText has) (fun type => ?_)
    fun type as has => ?_
  · exact onward_look_ite (fun _ h => onward_blockProperty _ h)
      ((onward_expectIdentifier _).bind fun _ => onward_pure _)
  refine hP.stays_marks has (by decide) (by decide)
    (fun rest has => hP.stays_blockProperty has type) ?_
  exact hP.bind_of_stopsIn has (stopsIn_expectIdentifier (hP.ends has) _)
    fun _ _ has => hP.stays_pure has _

/-- A property behind its keyword, with the semicolon that may end it, if
its attributes stay within the tokens. -/
theorem Grounds.stays_propertyBody {as : List Token} (has : P as)
    (hattributes : propertyAttributes.Stays X false as) (inScope : Bool) :
    (propertyBody inScope).Stays X true as := by
  refine hP.bind has hattributes (fun _ => ?_) fun attributes as has => ?_
  · exact onward_propertyNameAndType.bind fun _ =>
      (onward_accept (by decide)).bind fun _ => onward_pure _
  exact hP.bind has (hP.stays_propertyNameAndType has)
    (fun _ => (onward_accept (by decide)).bind fun _ => onward_pure _)
    fun _ _ has => stays_semicolon (hP.ends has) _

end Grounds

/-! ### Statements of all kinds -/

lemma piecesInParens_cons {depth : Nat} {t : Token}
    (h : ¬(t.kind = .endOfInput ∨ (t.kind = .closeParen ∧ depth = 0)))
    (ts : List Token) :
    piecesInParens depth (t :: ts)
      = ((readPiece t ts).1 :: (piecesInParens
            (if t.kind = .openParen then depth + 1
             else if t.kind = .closeParen then depth - 1 else depth)
            (readPiece t ts).2.1).1,
          (piecesInParens
            (if t.kind = .openParen then depth + 1
             else if t.kind = .closeParen then depth - 1 else depth)
            (readPiece t ts).2.1).2) := by
  rw [piecesInParens, if_neg h]

/-- A type in parentheses that is not closed in the tokens takes the end of
the container with it. -/
lemma within_piecesInParens {as : List Token}
    (has : as = [] ∨ Terminated as) (depth : Nat) :
    Within .past (piecesInParens depth) as := by
  induction hlength : as.length using Nat.strongRecOn
    generalizing as depth with
  | _ n ih =>
      rcases as with _ | ⟨t, as⟩
      · refine .inr fun behind hend => .inr ?_
        obtain ⟨e, behind, rfl, he⟩ := exists_cons_of_headIs hend
        rw [List.nil_append, piecesInParens_cons (by simp [he])]
        exact ((reaches_readPiece e behind).trans
          (reaches_piecesInParens _ _)).length_lt_cons
      by_cases hstop :
        t.kind = .endOfInput ∨ (t.kind = .closeParen ∧ depth = 0)
      · refine .inl (stopsIn_here [] (List.cons_ne_nil t as) fun behind => ?_)
        rw [List.cons_append, piecesInParens, if_pos hstop]
      have hstep := fun behind =>
        piecesInParens_cons hstop (as ++ behind)
      have hends := has.resolve_left (List.cons_ne_nil t as)
      have hlt : ∀ rest : List Token, rest <:+ as → rest.length < n :=
        fun rest hs => hlength ▸ Nat.lt_succ_of_le hs.length_le
      by_cases ht : t.kind = .openAngle
      · replace hends := hends.of_cons (by simp [ht])
        simp only [readPiece, ht, if_true, readAngles] at hstep
        rcases readsGroup_angleTail.within (by decide) (.inr hends) 0 with
          ⟨v, rest, hne, hs, hv⟩ | hall
        · exact (ih _ (hlt rest hs) (.inr (hends.of_suffix hs hne)) _
            rfl).of_step (m := (joinTypeText (t.value :: v) :: ·))
            (hs.trans (List.suffix_cons t as)) fun behind => by
              rw [List.cons_append, hstep, hv]
        · refine .inr fun behind => ?_
          rw [List.cons_append, hstep]
          exact Overrun.past.onward (hall behind) (reaches_piecesInParens _ _)
      · simp only [readPiece, ht, if_false] at hstep
        exact (ih _ (hlt as (List.suffix_refl as))
          (hends.rest (List.suffix_cons t as)) _ rfl).of_step
          (m := (t.value :: ·)) (List.suffix_cons t as) hstep

theorem grounds_past : Grounds .past Terminated where
  ends := id
  suffix := Terminated.of_suffix
  angles := fun h hk => readsGroup_angleTail.within (by decide)
    (.inr (h.of_cons (by simp [hk]))) 0
  parens := fun h hk => within_piecesInParens
    (.inr (h.of_cons (by simp [hk]))) 0

/-! ### Nested statements -/

/-- Parentheses and angle brackets. -/
def memberBrackets : Brackets :=
  [(.openParen, .closeParen), (.openAngle, .closeAngle)]

lemma pair_member_angle : memberBrackets.Pair .openAngle .closeAngle :=
  ⟨by decide, by decide, by decide⟩

/-- What stands behind a closing bracket goes on to the semicolon. -/
lemma Terminated.of_closer {inner rest : List Token} {c : Token}
    (h : Terminated (inner ++ c :: rest)) (hc : c.kind ≠ .semicolon) :
    Terminated rest :=
  (h.of_suffix (List.suffix_append inner _) (List.cons_ne_nil c rest)).of_cons
    hc

/-- Behind a token in parentheses that opens no angle bracket, only
parentheses are due. -/
lemma dueBehind_replicate {depth : Nat} {t : Token}
    (h : fits memberBrackets (List.replicate depth .closeParen) t = true)
    (ht : t.kind ≠ .openAngle) :
    dueBehind memberBrackets (List.replicate depth .closeParen) t
      = List.replicate (if t.kind = .openParen then depth + 1
          else if t.kind = .closeParen then depth - 1 else depth)
          .closeParen := by
  by_cases hopen : t.kind = .openParen
  · rw [dueBehind, hopen]
    rfl
  by_cases hclose : t.kind = .closeParen
  · rw [dueBehind, hclose]
    exact List.tail_replicate
  · have hangle : t.kind ≠ .closeAngle := fun hk => by
      obtain ⟨rest, hdue⟩ := exists_due_of_fits h (by rw [hk]; decide)
      have hmem : t.kind ∈ List.replicate depth TokenKind.closeParen :=
        hdue ▸ List.mem_cons_self
      exact hclose (List.eq_of_mem_replicate hmem)
    rw [if_neg hopen, if_neg hclose, dueBehind]
    simp [memberBrackets, Brackets.closers, List.lookup_cons,
      beq_eq_false_iff_ne.mpr, ht, hopen, hclose, hangle]

/-- The type in parentheses is read up to the one that closes it. -/
lemma exists_piecesInParens {depth : Nat} {inner : List Token}
    (h : isNested memberBrackets (List.replicate depth .closeParen) inner
      = true) {c : Token} (hc : c.kind = .closeParen) :
    ∃ pieces, ∀ rest,
      piecesInParens depth (inner ++ c :: rest) = (pieces, c :: rest) := by
  induction hlength : inner.length using Nat.strongRecOn
    generalizing inner depth with
  | _ n ih =>
      rcases inner with _ | ⟨t, inner⟩
      · cases depth with
        | zero =>
            refine ⟨[], fun rest => ?_⟩
            rw [List.nil_append, piecesInParens, if_pos (.inr ⟨hc, rfl⟩)]
        | succ depth => cases h
      obtain ⟨hfits, hinner⟩ := Bool.and_eq_true_iff.mp h
      have hgo : ¬(t.kind = .endOfInput
          ∨ (t.kind = .closeParen ∧ depth = 0)) := by
        rintro (hk | ⟨hk, rfl⟩)
        · exact ne_end_of_fits hfits hk
        · obtain ⟨rest, hdue⟩ := exists_due_of_fits hfits (by rw [hk]; decide)
          cases hdue
      by_cases ht : t.kind = .openAngle
      · obtain ⟨group, g, rest, rfl, hg, hgroup, hrest⟩ :=
          exists_group_of_isNested .closeAngle (by rw [ht]; rfl)
            (by decide) (by decide) h
        obtain ⟨pieces, hpieces⟩ := ih _ (by simp [← hlength]; omega) hrest rfl
        have hangle := fun behind => angleTail_append pair_member_angle hgroup
          hg (rest ++ c :: behind)
        refine ⟨joinTypeText (t.value :: (group.map (·.value) ++ [g.value]))
          :: pieces, fun behind => ?_⟩
        rw [List.cons_append, piecesInParens_cons hgo, List.append_assoc,
          List.cons_append]
        simp only [List.count_nil, Nat.zero_add] at hangle
        simp only [readPiece, ht, if_true, readAngles, hangle]
        simp [hpieces]
      · rw [dueBehind_replicate hfits ht] at hinner
        obtain ⟨pieces, hpieces⟩ := ih _ (by simp [← hlength]) hinner rfl
        refine ⟨t.value :: pieces, fun behind => ?_⟩
        rw [List.cons_append, piecesInParens_cons hgo]
        simp only [readPiece, if_neg ht, hpieces]

theorem grounds_nested : Grounds .never fun as => Terminated as
    ∧ ∃ due, isNested memberBrackets due as = true where
  ends := And.left
  suffix := fun h hs hne =>
    ⟨h.1.of_suffix hs hne, exists_isNested_of_suffix h.2.choose_spec hs⟩
  angles := fun ⟨hends, due, h⟩ ht => by
    obtain ⟨inner, c, rest, rfl, hc, hinner, -⟩ :=
      exists_group_of_isNested .closeAngle (by rw [ht]; rfl)
        (by decide) (by decide) h
    replace hends := hends.of_cons (by simp [ht])
    refine .inl ⟨inner.map (·.value) ++ [c.value], rest,
      (hends.of_closer (by simp [hc])).ne_nil,
      (List.suffix_cons c rest).trans (List.suffix_append inner _),
      fun behind => ?_⟩
    rw [List.append_assoc]
    exact angleTail_append pair_member_angle hinner hc (rest ++ behind)
  parens := fun ⟨hends, due, h⟩ ht => by
    obtain ⟨inner, c, rest, rfl, hc, hinner, -⟩ :=
      exists_group_of_isNested .closeParen (by rw [ht]; rfl)
        (by decide) (by decide) h
    obtain ⟨pieces, hpieces⟩ := @exists_piecesInParens 0 inner hinner c hc
    refine .inl ⟨pieces, c :: rest, List.cons_ne_nil c rest,
      List.suffix_append inner _, fun behind => ?_⟩
    rw [List.append_assoc]
    exact hpieces (rest ++ behind)

/-! ### Attributes -/

/-- The next token, whatever it is. -/
lemma stays_advance {as : List Token} (has : Terminated as) :
    advance.Stays .loose false as := by
  obtain ⟨t, as, rfl⟩ := List.exists_cons_of_ne_nil has.ne_nil
  by_cases ht : t.kind = .endOfInput
  · refine stays_of_stopsIn ⟨.ok t, t :: as, has.ne_nil, List.suffix_refl _,
      fun behind => ?_⟩
    rw [result_advance, step, atEnd]
    simp [ht, nextToken_cons]
  have hadvance : ∀ behind, advance.result (t :: as ++ behind)
      = (.ok t, as ++ behind) := fun behind => by
    rw [result_advance, List.cons_append, nextToken_cons, step_cons ht]
  rcases has.rest (List.suffix_cons t as) with rfl | has
  · exact .inr fun behind => by rw [hadvance]; exact Nat.le_refl _
  · exact stays_of_stopsIn ⟨.ok t, as, has.ne_nil, List.suffix_cons t as,
      hadvance⟩

/-- An attribute may take the semicolon for its value. -/
lemma stays_propertyAttribute {as : List Token} (has : Terminated as) :
    propertyAttribute.Stays .loose false as := by
  have hpure : ∀ {as : List Token} (a? : Option String), as ≠ [] →
      (pure a? : Production (Option String)).Stays .loose false as :=
    fun a? hne => stays_of_stopsIn (stopsIn_pure hne a?)
  refine stays_look_bind (headIn_append has.ne_nil · _) ?_
  cases hhead : headIn [.identifier, .kwConst] as with
  | false => exact hpure none has.ne_nil
  | true =>
      rw [if_pos rfl]
      obtain ⟨t, as, rfl, ht⟩ := exists_cons_of_headIn hhead
      have hne : t.kind ≠ .semicolon ∧ t.kind ≠ .endOfInput := by
        constructor <;> rintro h <;> simp [h] at ht
      replace has := has.of_cons hne.1
      refine stays_advance_bind hne.2 ?_
      refine stays_bind_of_stopsIn (stopsIn_accept has (by decide))
        fun hasValue as hne hs => Stays.ite ?_ (hpure _ hne)
      refine (stays_advance (has.of_suffix hs hne)).bind (fun _ => ?_)
        fun value as hne hs' => ?_
      · exact (onward_accept (by decide)).bind fun _ =>
          (onward_pure _).ite (onward_pure _)
      · exact stays_bind_of_stopsIn (stopsIn_accept
          (has.of_suffix (hs'.trans hs) hne) (by decide))
          fun _ _ hne _ => (hpure _ hne).ite (hpure _ hne)

/-- So may the attributes; then they fail in front of the end of a
container. -/
theorem stays_propertyAttributes {as : List Token}
    (has : Terminated as) :
    propertyAttributes.Stays .loose false as
      ∧ propertyAttributes.Stays .past false as := by
  have hlist : ∀ {as}, Terminated as →
      (commaSeparated propertyAttribute).Stays .loose false as := fun has =>
    .commaSeparated onward_propertyAttribute has fun _ hbs _ =>
      stays_propertyAttribute hbs
  have hpure : ∀ X, (pure [] : Production (List String)).Stays X false as :=
    fun X => stays_of_stopsIn (stopsIn_pure has.ne_nil [])
  constructor
  · refine stays_accept_ite has (by decide) (fun _ as _ _ has => ?_) (hpure _)
    refine (hlist has).bind (fun _ => (onward_expect _ _).bind fun _ =>
      onward_pure _) fun attributes bs hne hs => ?_
    exact stays_bind_of_stopsIn (stopsIn_expect (has.of_suffix hs hne)
      (by decide) (by decide) _) fun _ _ hne _ =>
        stays_of_stopsIn (stopsIn_pure hne _)
  · exact stays_accept_ite has (by decide) (fun _ _ _ _ has =>
      (hlist has).expect_past onward_propertyAttribute.commaSeparated has
        (by decide) _ _) (hpure _)

end HeaderBinding
