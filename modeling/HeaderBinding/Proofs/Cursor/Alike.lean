/-
What is read of tokens depends on their kinds and texts alone: where a type
was read, the same type is read of any tokens with the same faces.

* `Reads`: from some faces a reader takes a value and leaves what follows;
* `SameHead`, `LooksAlike`: what a reader sees of the tokens behind it;
* `Takes`: a reader of types gives the pieces of some tokens, and gives
  them again; `exists_takes_piecesInParens` and `exists_takes_typePieces`
  have it for a type in parentheses and for one that a name follows.
-/
import HeaderBinding.Proofs.Cursor.Onward
import HeaderBinding.Proofs.Token.Joined

namespace HeaderBinding

open Production

/-! ### Readers of faces -/

section Reads

variable {α β : Type} {faces : List Face} {follow : List Token → Prop}

/-- From tokens with the faces the reader takes the value, and leaves what
stands behind them, wherever that may follow. -/
def Reads (f : List Token → α × List Token) (faces : List Face) (a : α)
    (follow : List Token → Prop) : Prop :=
  ∀ us rest, us.map Token.face = faces → follow rest →
    f (us ++ rest) = (a, rest)

lemma Reads.nil {f : List Token → α × List Token} {a : α}
    (h : ∀ rest, follow rest → f rest = (a, rest)) :
    Reads f [] a follow := by
  intro us rest hus hrest
  rw [List.map_eq_nil_iff.mp hus]
  exact h rest hrest

/-- A reader that takes the first token and goes on as another one. -/
lemma Reads.cons {f : List Token → α × List Token}
    {g : List Token → β × List Token} {b : β} {c : β → α} {face : Face}
    (hg : Reads g faces b follow)
    (hf : ∀ v ts, v.face = face → f (v :: ts) = (c (g ts).1, (g ts).2)) :
    Reads f (face :: faces) (c b) follow := by
  intro us rest hus hrest
  obtain ⟨v, vs, rfl, hv, hvs⟩ := List.map_eq_cons_iff.mp hus
  rw [List.cons_append, hf v _ hv, hg vs rest hvs hrest]

end Reads

lemma Token.kind_eq_of_face {t u : Token} (h : t.face = u.face) :
    t.kind = u.kind :=
  congrArg Prod.fst h

lemma Token.value_eq_of_face {t u : Token} (h : t.face = u.face) :
    t.value = u.value :=
  congrArg Prod.snd h

/-! ### What stands behind -/

/-- The first tokens are of one kind. -/
def SameHead (as bs : List Token) : Prop :=
  as.head?.map (·.kind) = bs.head?.map (·.kind)

lemma SameHead.append {us vs as bs : List Token}
    (h : us.map Token.face = vs.map Token.face) (hs : SameHead as bs) :
    SameHead (us ++ as) (vs ++ bs) := by
  cases us with
  | nil =>
      rw [List.map_eq_nil_iff.mp h.symm]
      exact hs
  | cons u us =>
      obtain ⟨v, vs', rfl, hv, -⟩ := List.map_eq_cons_iff.mp h.symm
      exact congrArg some (Token.kind_eq_of_face hv).symm

lemma SameHead.headIs_eq {as bs : List Token} (h : SameHead as bs)
    (kind : TokenKind) : headIs kind as = headIs kind bs := by
  cases as with
  | nil =>
      cases bs with
      | nil => rfl
      | cons b bs => exact nomatch h
  | cons a as =>
      cases bs with
      | nil => exact nomatch h
      | cons b bs =>
          have hk : a.kind = b.kind := Option.some.inj h
          simp [hk]

lemma atEnd_cons_of_reaches {as bs : List Token} (h : Reaches as bs)
    (hb : atEnd bs = false) : atEnd as = false := by
  cases h with
  | refl => exact hb
  | pass hk _ => exact atEnd_cons_eq_false.mpr hk

lemma atEnd_eq_false_of_headIs {kind : TokenKind} {ts : List Token}
    (hk : kind ≠ .endOfInput) (h : headIs kind ts = true) :
    atEnd ts = false := by
  obtain ⟨t, rest, rfl, rfl⟩ := exists_cons_of_headIs h
  exact atEnd_cons_eq_false.mpr hk

/-- The rows look alike to a reader of words, who looks for a name and the
mark behind it. -/
def LooksAlike (as bs : List Token) : Prop :=
  SameHead as bs
    ∧ (headIs .identifier as = true →
      (kindAt 1 as ∈ nameFollowers ↔ kindAt 1 bs ∈ nameFollowers))

lemma LooksAlike.append {us vs as bs : List Token}
    (h : us.map Token.face = vs.map Token.face) (hs : LooksAlike as bs) :
    LooksAlike (us ++ as) (vs ++ bs) := by
  refine ⟨hs.1.append h, fun hhead => ?_⟩
  match us, vs, h with
  | [], vs, h =>
      rw [List.map_eq_nil_iff.mp h.symm]
      exact hs.2 hhead
  | [u], vs, h =>
      obtain ⟨v, vs', rfl, hv, hvs⟩ := List.map_eq_cons_iff.mp h.symm
      rw [List.map_eq_nil_iff.mp hvs]
      cases as with
      | nil =>
          cases bs with
          | nil =>
              have hk : v.kind = u.kind := Token.kind_eq_of_face hv
              simp [kindAt, tokenAt, hk]
          | cons b bs => exact nomatch hs.1
      | cons a as =>
          cases bs with
          | nil => exact nomatch hs.1
          | cons b bs =>
              have hk : a.kind = b.kind := Option.some.inj hs.1
              simp [kindAt, tokenAt, hk]
  | u :: u' :: us, vs, h =>
      obtain ⟨v, vs', rfl, -, hvs⟩ := List.map_eq_cons_iff.mp h.symm
      obtain ⟨v', vs'', rfl, hv', -⟩ := List.map_eq_cons_iff.mp hvs
      have hk : v'.kind = u'.kind := Token.kind_eq_of_face hv'
      simp [kindAt, tokenAt, hk]

/-! ### Groups in angle brackets -/

/-- The opening angle brackets among the tokens are spelled as such. -/
def AnglesSpelled (us : List Token) : Prop :=
  ∀ u ∈ us, u.kind = .openAngle → u.value = "<"

lemma AnglesSpelled.of_append {us vs : List Token}
    (h : AnglesSpelled (us ++ vs)) : AnglesSpelled us ∧ AnglesSpelled vs :=
  ⟨fun u hu => h u (List.mem_append_left vs hu),
    fun u hu => h u (List.mem_append_right us hu)⟩

/-- The reader makes the pieces of the tokens, and makes them again of
every row that begins with such tokens. -/
structure Takes (f : List Token → List String × List Token)
    (us : List Token) (pieces : List String)
    (follow : List Token → Prop) : Prop where
  alike : AnglesSpelled us →
    JoinsAlike (pieces.map String.toList) (us.map (·.value.toList))
  again : Reads f (us.map Token.face) pieces follow

lemma Takes.imp {f : List Token → List String × List Token}
    {us : List Token} {pieces : List String}
    {follow follow' : List Token → Prop} (h : Takes f us pieces follow)
    (hf : ∀ rest, follow' rest → follow rest) : Takes f us pieces follow' :=
  ⟨h.alike, fun vs rest hvs hrest => h.again vs rest hvs (hf rest hrest)⟩

lemma exists_reads_angleTail {depth : Nat} {ts : List Token}
    (h : atEnd (angleTail depth ts).2 = false) :
    ∃ us, ts = us ++ (angleTail depth ts).2
      ∧ (angleTail depth ts).1 = us.map (·.value)
      ∧ Reads (angleTail depth) (us.map Token.face) (angleTail depth ts).1
        fun _ => True := by
  fun_induction angleTail depth ts with
  | case1 ts => exact ⟨[], rfl, rfl, .nil fun rest _ => by rw [angleTail]⟩
  | case2 => exact absurd h (by decide)
  | case3 depth t ts hk => exact absurd hk (atEnd_cons_eq_false.mp h)
  | case4 depth t ts hk r ih =>
      obtain ⟨us, hts, hvalues, hreads⟩ := ih h
      refine ⟨t :: us, congrArg (t :: ·) hts, congrArg (t.value :: ·) hvalues,
        hreads.cons (c := (t.value :: ·)) fun v vs hv => ?_⟩
      rw [angleTail, Token.kind_eq_of_face hv, if_neg hk,
        Token.value_eq_of_face hv]

/-- A group is joined like the tokens in it. -/
lemma joinsAlike_readAngles {t : Token} {ts us : List Token}
    (ht : t.value = "<") (h : (angleTail 1 ts).1 = us.map (·.value)) :
    JoinsAlike [(readAngles t ts).1.toList]
      (t.value.toList :: us.map (·.value.toList)) := by
  have hvalues : (us.map (·.value)).map String.toList
      = us.map (·.value.toList) := by
    rw [List.map_map]
    rfl
  rw [readAngles, h, joinTypeText, String.toList_ofList, List.map_cons,
    hvalues, ht]
  exact joinsAlike_group _

lemma exists_takes_readPiece {t : Token} {ts : List Token}
    (h : atEnd (readPiece t ts).2.1 = false) :
    ∃ us, ts = us ++ (readPiece t ts).2.1
      ∧ (AnglesSpelled (t :: us) → JoinsAlike [(readPiece t ts).1.toList]
        (t.value.toList :: us.map (·.value.toList)))
      ∧ ∀ v vs rest, v.face = t.face → vs.map Token.face = us.map Token.face →
        readPiece v (vs ++ rest)
          = ((readPiece t ts).1, rest, (readPiece t ts).2.2) := by
  unfold readPiece at h ⊢
  split at h
  · rename_i hk
    obtain ⟨us, hts, hvalues, hreads⟩ := exists_reads_angleTail h
    simp only [if_pos hk]
    refine ⟨us, hts, fun hs => ?_, fun v vs rest hv hvs => ?_⟩
    · exact joinsAlike_readAngles (hs t List.mem_cons_self hk) hvalues
    · rw [if_pos ((Token.kind_eq_of_face hv).trans hk), readAngles,
        hreads vs rest hvs trivial, Token.value_eq_of_face hv]
      rfl
  · rename_i hk
    simp only [if_neg hk]
    refine ⟨[], rfl, fun _ => .refl _, fun v vs rest hv hvs => ?_⟩
    rw [List.map_eq_nil_iff.mp hvs, Token.kind_eq_of_face hv, if_neg hk,
      Token.value_eq_of_face hv]
    rfl

lemma exists_takes_anglesHere {ts : List Token}
    (h : atEnd (anglesHere ts).2 = false) :
    ∃ us, ts = us ++ (anglesHere ts).2
      ∧ Takes anglesHere us (anglesHere ts).1
        (SameHead (anglesHere ts).2) := by
  cases ts with
  | nil => exact absurd h (by decide)
  | cons t ts =>
      by_cases hk : t.kind = .openAngle
      · have hgroup : anglesHere (t :: ts)
            = ([(readAngles t ts).1], (readAngles t ts).2) := by
          rw [anglesHere, if_pos hk]
        rw [hgroup] at h ⊢
        obtain ⟨us, hts, hvalues, hreads⟩ := exists_reads_angleTail h
        refine ⟨t :: us, congrArg (t :: ·) hts, fun hs => ?_, ?_⟩
        · exact joinsAlike_readAngles (hs t List.mem_cons_self hk) hvalues
        · intro vs rest hvs _
          obtain ⟨v, ws, rfl, hv, hws⟩ := List.map_eq_cons_iff.mp hvs
          rw [List.cons_append, anglesHere,
            if_pos ((Token.kind_eq_of_face hv).trans hk), readAngles,
            hreads ws rest hws trivial, Token.value_eq_of_face hv]
          rfl
      · have hnone : anglesHere (t :: ts) = ([], t :: ts) := by
          rw [anglesHere, if_neg hk]
        rw [hnone]
        refine ⟨[], rfl, fun _ => .refl _, .nil fun rest hrest => ?_⟩
        have hhead := hrest.headIs_eq .openAngle
        cases rest with
        | nil => rfl
        | cons r rest =>
            rw [anglesHere, if_neg]
            intro hr
            simp [hk, hr] at hhead

/-! ### Types in parentheses -/

lemma exists_takes_piecesInParens {depth : Nat} {ts : List Token}
    (h : headIs .closeParen (piecesInParens depth ts).2 = true) :
    ∃ us, ts = us ++ (piecesInParens depth ts).2
      ∧ Takes (piecesInParens depth) us (piecesInParens depth ts).1
        (headIs .closeParen · = true) := by
  fun_induction piecesInParens depth ts with
  | case1 => exact absurd h (by decide)
  | case2 depth t ts ht =>
      have hk : t.kind = .closeParen := by simpa using h
      have hdepth : depth = 0 :=
        ht.elim (fun he => absurd (hk.symm.trans he) (by decide)) (·.2)
      refine ⟨[], rfl, fun _ => .refl _, .nil fun rest hrest => ?_⟩
      obtain ⟨c, cs, rfl, hc⟩ := exists_cons_of_headIs hrest
      rw [piecesInParens, if_pos (.inr ⟨hc, hdepth⟩)]
  | case3 depth t ts ht piece r ih =>
      have hend : atEnd piece.2.1 = false :=
        atEnd_cons_of_reaches (reaches_piecesInParens _ _)
          (atEnd_eq_false_of_headIs (by decide) h)
      obtain ⟨us, hpiece, hus⟩ := ih h
      obtain ⟨gs, hts, hgroup, hagain⟩ := exists_takes_readPiece hend
      refine ⟨t :: (gs ++ us), ?_, fun hs => ?_, fun vs rest hvs hrest => ?_⟩
      · rw [List.cons_append, List.append_assoc, ← hpiece, ← hts]
      · have hparts : AnglesSpelled (t :: gs) ∧ AnglesSpelled us :=
          AnglesSpelled.of_append hs
        rw [List.map_cons, List.map_cons, List.map_append]
        exact (hgroup hparts.1).append (hus.alike hparts.2)
      · obtain ⟨v, ws, rfl, hv, hws⟩ := List.map_eq_cons_iff.mp hvs
        rw [List.map_append] at hws
        obtain ⟨gs', us', rfl, hgs, hus'⟩ := List.map_eq_append_iff.mp hws
        rw [List.cons_append, List.append_assoc, piecesInParens,
          Token.kind_eq_of_face hv, if_neg ht, hagain v gs' _ hv hgs]
        have hrow := hus.again us' rest hus' hrest
        simp only [dite_eq_ite] at hrow ⊢
        rw [hrow]
        rfl

/-! ### Types before a name -/

lemma exists_takes_takeKinds (kinds : List TokenKind) (ts : List Token) :
    ∃ us, ts = us ++ (takeKinds kinds ts).2
      ∧ Takes (takeKinds kinds) us (takeKinds kinds ts).1
        (SameHead (takeKinds kinds ts).2) := by
  fun_induction takeKinds kinds ts with
  | case1 =>
      refine ⟨[], rfl, fun _ => .refl _, .nil fun rest hrest => ?_⟩
      cases rest with
      | nil => rfl
      | cons r rest => exact absurd hrest (by simp [SameHead])
  | case2 t ts ht r ih =>
      obtain ⟨us, hts, hus⟩ := ih
      refine ⟨t :: us, congrArg (t :: ·) hts, fun hs => ?_,
        hus.again.cons (c := (t.value :: ·)) fun v vs hv => ?_⟩
      · exact (hus.alike fun u hu => hs u (List.mem_cons_of_mem t hu)).cons _
      · rw [takeKinds, Token.kind_eq_of_face hv, if_pos ht,
          Token.value_eq_of_face hv]
  | case3 t ts ht =>
      refine ⟨[], rfl, fun _ => .refl _, .nil fun rest hrest => ?_⟩
      cases rest with
      | nil => rfl
      | cons r rest =>
          have hk : t.kind = r.kind := Option.some.inj hrest
          rw [takeKinds, ← hk, if_neg ht]

lemma exists_takes_typeWords {ts : List Token}
    (h : atEnd (typeWords ts).2 = false) :
    ∃ us, ts = us ++ (typeWords ts).2
      ∧ Takes typeWords us (typeWords ts).1
        (LooksAlike (typeWords ts).2) := by
  fun_induction typeWords ts with
  | case1 => exact absurd h (by decide)
  | case2 t ts ht g hn =>
      obtain ⟨gs, hts, hgs⟩ := exists_takes_anglesHere h
      refine ⟨t :: gs, congrArg (t :: ·) hts, fun hs => ?_,
        fun vs rest hvs hrest => ?_⟩
      · exact (hgs.alike fun u hu => hs u (List.mem_cons_of_mem t hu)).cons _
      · obtain ⟨v, gs', rfl, hv, hgs'⟩ := List.map_eq_cons_iff.mp hvs
        have hn' : headIs .identifier rest = true
            ∧ kindAt 1 rest ∈ nameFollowers :=
          ⟨hrest.1.headIs_eq .identifier ▸ hn.1, (hrest.2 hn.1).mp hn.2⟩
        rw [List.cons_append, typeWords, Token.kind_eq_of_face hv, if_pos ht,
          hgs.again gs' rest hgs' hrest.1, if_pos hn',
          Token.value_eq_of_face hv]
  | case3 t ts ht g hn r ih =>
      obtain ⟨us, hg, hus⟩ := ih h
      have hend : atEnd g.2 = false :=
        atEnd_cons_of_reaches (reaches_typeWords _) h
      obtain ⟨gs, hts, hgs⟩ := exists_takes_anglesHere hend
      refine ⟨t :: (gs ++ us), ?_, fun hs => ?_, fun vs rest hvs hrest => ?_⟩
      · rw [List.cons_append, List.append_assoc, ← hg, ← hts]
      · have hparts := AnglesSpelled.of_append
          fun u hu => hs u (List.mem_cons_of_mem t hu)
        rw [List.map_cons, List.map_cons, List.map_append, List.map_append]
        exact ((hgs.alike hparts.1).append (hus.alike hparts.2)).cons _
      · obtain ⟨v, ws, rfl, hv, hws⟩ := List.map_eq_cons_iff.mp hvs
        rw [List.map_append] at hws
        obtain ⟨gs', us', rfl, hgs', hus'⟩ := List.map_eq_append_iff.mp hws
        -- behind the word the rows look alike
        have hlook : LooksAlike g.2 (us' ++ rest) :=
          hg ▸ hrest.append hus'.symm
        have hn' : ¬(headIs .identifier (us' ++ rest) = true
            ∧ kindAt 1 (us' ++ rest) ∈ nameFollowers) := by
          rw [← hlook.1.headIs_eq]
          exact fun h => hn ⟨h.1, (hlook.2 h.1).mpr h.2⟩
        rw [List.cons_append, List.append_assoc, typeWords,
          Token.kind_eq_of_face hv, if_pos ht,
          hgs.again gs' _ hgs' hlook.1, if_neg hn',
          hus.again us' rest hus' hrest, Token.value_eq_of_face hv]
  | case4 t ts ht =>
      refine ⟨[], rfl, fun _ => .refl _, .nil fun rest hrest => ?_⟩
      cases rest with
      | nil => exact nomatch hrest.1
      | cons r rest =>
          have hk : t.kind = r.kind := Option.some.inj hrest.1
          rw [typeWords, ← hk, if_neg ht]

/-- The words of a type end before a name only if a mark stands behind
it. -/
lemma kindAt_typeWords {ts : List Token}
    (h : headIs .identifier (typeWords ts).2 = true) :
    kindAt 1 (typeWords ts).2 ∈ nameFollowers := by
  fun_induction typeWords ts with
  | case1 => exact absurd h (by decide)
  | case2 t ts ht g hn => exact hn.2
  | case3 t ts ht g hn r ih => exact ih h
  | case4 t ts ht => exact absurd (.inl (by simpa using h)) ht

lemma exists_takes_pointerMarks (prev : Option String) (ts : List Token) :
    ∃ us, ts = us ++ (pointerMarks prev ts).2
      ∧ Takes (pointerMarks prev) us (pointerMarks prev ts).1
        (SameHead (pointerMarks prev ts).2)
      ∧ ∀ u ∈ us, u.kind ≠ .identifier := by
  fun_induction pointerMarks prev ts with
  | case1 =>
      refine ⟨[], rfl, ⟨fun _ => .refl _, .nil fun rest hrest => ?_⟩,
        List.forall_mem_nil _⟩
      cases rest with
      | nil => rfl
      | cons r rest => exact absurd hrest (by simp [SameHead])
  | case2 prev t ts ht r ih =>
      obtain ⟨us, hts, hus, hkinds⟩ := ih
      refine ⟨t :: us, congrArg (t :: ·) hts, ⟨fun hs => ?_,
        hus.again.cons (c := (t.value :: ·)) fun v vs hv => ?_⟩, ?_⟩
      · exact (hus.alike fun u hu => hs u (List.mem_cons_of_mem t hu)).cons _
      · rw [pointerMarks, Token.kind_eq_of_face hv, if_pos ht,
          Token.value_eq_of_face hv]
      · refine List.forall_mem_cons.mpr ⟨?_, hkinds⟩
        rcases ht with ht | ⟨ht, -⟩ <;> simp [ht]
  | case3 prev t ts ht =>
      refine ⟨[], rfl, ⟨fun _ => .refl _, .nil fun rest hrest => ?_⟩,
        List.forall_mem_nil _⟩
      cases rest with
      | nil => rfl
      | cons r rest =>
          have hk : t.kind = r.kind := Option.some.inj hrest
          rw [pointerMarks, ← hk, if_neg ht]

/-- A nullability annotation, if one comes next. -/
def nullabilityWord (ts : List Token) : List String × List Token :=
  if headIsWord nullabilityWords ts then ([(nextToken ts).value], ts.tail)
  else ([], ts)

lemma headIsWord_cons_of_face {words : List String} {t u : Token}
    (h : t.face = u.face) (ts us : List Token) :
    headIsWord words (t :: ts) = headIsWord words (u :: us) := by
  simp [Token.kind_eq_of_face h, Token.value_eq_of_face h]

lemma exists_takes_nullabilityWord (ts : List Token) :
    ∃ us, ts = us ++ (nullabilityWord ts).2
      ∧ Takes nullabilityWord us (nullabilityWord ts).1 (fun rest =>
        headIsWord nullabilityWords (nullabilityWord ts).2
          = headIsWord nullabilityWords rest)
      ∧ (us = [] ∨ ∃ u, us = [u] ∧ u.kind = .identifier) := by
  by_cases hword : headIsWord nullabilityWords ts = true
  · obtain ⟨t, ts, rfl, hk, -⟩ := exists_cons_of_headIsWord hword
    have heq : nullabilityWord (t :: ts) = ([t.value], ts) := by
      rw [nullabilityWord, if_pos hword]
      rfl
    rw [heq]
    refine ⟨[t], rfl, ⟨fun _ => .refl _, fun vs rest hvs _ => ?_⟩,
      .inr ⟨t, rfl, hk⟩⟩
    obtain ⟨v, ws, rfl, hv, hws⟩ := List.map_eq_cons_iff.mp hvs
    rw [List.map_eq_nil_iff.mp hws, List.singleton_append, nullabilityWord,
      headIsWord_cons_of_face hv rest ts, if_pos hword, nextToken_cons,
      Token.value_eq_of_face hv]
    rfl
  · have heq : nullabilityWord ts = ([], ts) := by
      rw [nullabilityWord, if_neg hword]
    rw [heq]
    refine ⟨[], rfl, ⟨fun _ => .refl _, .nil fun rest hrest => ?_⟩, .inl rfl⟩
    rw [nullabilityWord, ← hrest, if_neg hword]

/-- The row begins with a token of the face and a semicolon. -/
def BeginsAs (face : Face) (ts : List Token) : Prop :=
  ∃ v s rest, ts = v :: s :: rest ∧ v.face = face ∧ s.kind = .semicolon

lemma BeginsAs.sameHead {t : Token} {ts rest : List Token}
    (h : BeginsAs t.face rest) : SameHead (t :: ts) rest := by
  obtain ⟨v, s, rest, rfl, hv, -⟩ := h
  exact congrArg some (Token.kind_eq_of_face hv).symm

/-- What a name and a mark look like behind the words of a type, a
semicolon looks like too. -/
lemma looksAlike_of_beginsAs {t : Token} {ts rest : List Token}
    (hk : kindAt 1 (t :: ts) ∈ nameFollowers)
    (hrest : BeginsAs t.face rest) : LooksAlike (t :: ts) rest := by
  refine ⟨hrest.sameHead, fun _ => ?_⟩
  obtain ⟨v, s, rest, rfl, hv, hs⟩ := hrest
  have hsemi : kindAt 1 (v :: s :: rest) = .semicolon := hs
  rw [hsemi]
  exact ⟨fun _ => by decide, fun _ => hk⟩

/-- One reader behind another, which may depend on the pieces of the
first. -/
def andThen (f : List Token → List String × List Token)
    (g : List String → List Token → List String × List Token)
    (ts : List Token) : List String × List Token :=
  let r := f ts
  let q := g r.1 r.2
  (r.1 ++ q.1, q.2)

lemma Takes.andThen {f : List Token → List String × List Token}
    {g : List String → List Token → List String × List Token}
    {us vs : List Token} {ps qs : List String}
    {follow follow' : List Token → Prop} (hf : Takes f us ps follow)
    (hg : Takes (g ps) vs qs follow')
    (h : ∀ ws rest, ws.map Token.face = vs.map Token.face → follow' rest →
      follow (ws ++ rest)) :
    Takes (andThen f g) (us ++ vs) (ps ++ qs) follow' := by
  refine ⟨fun hs => ?_, fun ws rest hws hrest => ?_⟩
  · rw [List.map_append, List.map_append]
    exact (hf.alike hs.of_append.1).append (hg.alike hs.of_append.2)
  · rw [List.map_append] at hws
    obtain ⟨us', vs', rfl, hus, hvs⟩ := List.map_eq_append_iff.mp hws
    rw [List.append_assoc, HeaderBinding.andThen,
      hf.again us' _ hus (h vs' rest hvs hrest)]
    simp only
    rw [hg.again vs' rest hvs hrest]

lemma typePieces_eq (ts : List Token) :
    typePieces ts = andThen (takeKinds typeKeywords) (fun ks =>
      andThen typeWords fun ws =>
        andThen (pointerMarks (ks ++ ws).getLast?) fun _ =>
          nullabilityWord) ts := by
  simp only [andThen, ← List.append_assoc]
  rfl

/-- Behind the words of a type a name, or what stands before it, looks
like it did. -/
lemma looksAlike_behindWords {ts ms ns vs rest rest' : List Token}
    {name : Token} (hts : (typeWords ts).2 = ms ++ (ns ++ name :: rest))
    (hname : name.kind = .identifier) (hms : ∀ m ∈ ms, m.kind ≠ .identifier)
    (hns : ns = [] ∨ ∃ n, ns = [n] ∧ n.kind = .identifier)
    (hvs : vs.map Token.face = (ms ++ ns).map Token.face)
    (hrest : BeginsAs name.face rest') :
    LooksAlike (typeWords ts).2 (vs ++ rest') := by
  have hfollows : headIs .identifier (typeWords ts).2 = true →
      kindAt 1 (typeWords ts).2 ∈ nameFollowers := kindAt_typeWords
  rw [hts] at hfollows ⊢
  cases ms with
  | cons m ms =>
      obtain ⟨v, vs, rfl, hv, -⟩ := List.map_eq_cons_iff.mp hvs
      refine ⟨congrArg some (Token.kind_eq_of_face hv).symm, fun hhead => ?_⟩
      exact absurd (by simpa using hhead) (hms m List.mem_cons_self)
  | nil =>
      rcases hns with rfl | ⟨n, rfl, hn⟩
      · rw [List.map_eq_nil_iff.mp hvs]
        exact looksAlike_of_beginsAs
          (hfollows (by simp [hname])) hrest
      · -- the words would not have ended before the annotation
        have hkind : kindAt 1 (n :: name :: rest) = .identifier := hname
        have hmark := hfollows (by simp [hn])
        rw [List.nil_append, List.singleton_append, hkind] at hmark
        exact absurd hmark (by decide)

lemma exists_takes_typePieces {ts rest : List Token} {name : Token}
    (h : (typePieces ts).2 = name :: rest) (hname : name.kind = .identifier) :
    ∃ us, ts = us ++ name :: rest
      ∧ Takes typePieces us (typePieces ts).1 (BeginsAs name.face) := by
  have hfun : typePieces = _ := funext typePieces_eq
  rw [hfun] at h ⊢
  simp only [andThen] at h ⊢
  obtain ⟨ks, hks, htakek⟩ := exists_takes_takeKinds typeKeywords ts
  generalize takeKinds typeKeywords ts = k at h hks htakek ⊢
  obtain ⟨ms, hms, htakem, hmarks⟩ :=
    exists_takes_pointerMarks (k.1 ++ (typeWords k.2).1).getLast?
      (typeWords k.2).2
  obtain ⟨ns, hns, htaken, hword⟩ := exists_takes_nullabilityWord
    (pointerMarks (k.1 ++ (typeWords k.2).1).getLast? (typeWords k.2).2).2
  rw [h] at hns htaken
  have hname' : atEnd (ns ++ name :: rest) = false := by
    rcases hword with rfl | ⟨n, rfl, hn⟩
    · exact atEnd_cons_eq_false.mpr (by simp [hname])
    · exact atEnd_cons_eq_false.mpr (by simp [hn])
  have hend : atEnd (typeWords k.2).2 = false :=
    atEnd_cons_of_reaches (reaches_pointerMarks _ _) (hns ▸ hname')
  obtain ⟨ws, hws, htakew⟩ := exists_takes_typeWords hend
  rw [hns] at hms
  refine ⟨ks ++ (ws ++ (ms ++ ns)), ?_, htakek.andThen (htakew.andThen
    (htakem.andThen (htaken.imp ?_) ?_) ?_) ?_⟩
  · simp only [List.append_assoc]
    rw [← hms, ← hws, ← hks]
  · rintro _ ⟨v, s, rest', rfl, hv, -⟩
    exact headIsWord_cons_of_face hv.symm _ _
  · intro vs rest' hvs hrest
    rw [hns]
    exact hrest.sameHead.append hvs.symm
  · intro vs rest' hvs hrest
    exact looksAlike_behindWords hms hname hmarks hword hvs hrest
  · intro vs rest' hvs hrest
    rw [hws, hms, ← List.append_assoc, ← List.append_assoc,
      List.append_assoc ws]
    exact hrest.sameHead.append hvs.symm

/-- A type that a name follows opens with no parenthesis. -/
lemma not_headIs_openParen_of_typePieces {ts rest : List Token}
    {name : Token} (h : (typePieces ts).2 = name :: rest)
    (hname : name.kind = .identifier) : headIs .openParen ts = false := by
  rw [Bool.eq_false_iff]
  intro hopen
  obtain ⟨t, ts, rfl, hk⟩ := exists_cons_of_headIs hopen
  have hrow : (typePieces (t :: ts)).2 = t :: ts := by
    simp [typePieces, takeKinds, typeWords, pointerMarks, typeKeywords, hk]
  rw [hrow] at h
  obtain ⟨rfl, -⟩ := List.cons.inj h
  exact absurd (hk.symm.trans hname) (by decide)

end HeaderBinding
