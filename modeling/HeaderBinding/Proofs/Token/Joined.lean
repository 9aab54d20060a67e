/-
The pieces of a type, put together in the customary spelling, are cut into
the same pieces again.

* `Readable.facesOf_append`: a token is read again in front of a break, or
  if it is a mark;
* `joinPiecesAfter_append`, `getLast?_joinPiecesAfter`: joining goes from
  left to right;
* `JoinsAlike`: two rows of pieces that are joined to the same text;
  `joinsAlike_group` has it for a group that was joined before;
* `facesOf_joinPiecesAfter`: the tokens of a joined text are its pieces;
* `tokenize_joinTypeText`: so joining the tokens of a text and reading them
  again changes nothing.
-/
import HeaderBinding.Header.Spelling
import HeaderBinding.Proofs.Token.Reread

namespace HeaderBinding

variable {rules : MacroRules}

/-! ### Marks among the tokens -/

/-- The character belongs to no word and to no number. -/
structure StandsAlone (c : Char) : Prop where
  not_word : isWordChar c = false
  not_part : isNumberPart c = false
  not_suffix : isNumberSuffix c = false
  not_hex : isHexDigit c = false
  not_mem : c ∉ ['0', 'x', 'X', '@', '.']

lemma standsAlone_of_mem_marks {c : Char} (h : c ∈ marks) :
    StandsAlone c := by
  have hall : ∀ d ∈ marks, isWordChar d = false ∧ isNumberPart d = false
      ∧ isNumberSuffix d = false ∧ isHexDigit d = false
      ∧ d ∉ ['0', 'x', 'X', '@', '.'] := by
    rw [← List.forall_iff_forall_mem]
    decide
  obtain ⟨hword, hpart, hsuffix, hhex, hmem⟩ := hall c h
  exact ⟨hword, hpart, hsuffix, hhex, hmem⟩

lemma Shape.ne_nil {kind : TokenKind} {cs : List Char}
    (h : Shape rules kind cs) : cs ≠ [] := by
  cases h <;> exact List.cons_ne_nil _ _

/-- The text of a token with such a character in it is that character, and
no blank. -/
lemma Shape.eq_singleton {kind : TokenKind} {cs : List Char} {c : Char}
    (h : Shape rules kind cs) (hc : StandsAlone c) (hmem : c ∈ cs) :
    cs = [c] ∧ kind = punctuationKind c ∧ isBlank c = false := by
  obtain ⟨hword, hpart, hsuffix, hhex, hother⟩ := hc
  simp only [List.mem_cons, List.not_mem_nil, or_false, not_or] at hother
  obtain ⟨hzero, hx, hX, hat, hdot⟩ := hother
  cases h with
  | @hexadecimal x digits letters hxx hd hl hh =>
      simp only [List.mem_cons, List.mem_append] at hmem
      rcases hmem with rfl | rfl | hm | hm
      · exact absurd rfl hzero
      · exact hxx.elim (fun h => absurd h hx) (fun h => absurd h hX)
      · exact absurd (hd c hm) (by simp [hhex])
      · exact absurd (hl c hm) (by simp [hsuffix])
  | @number e parts letters hb he hp hl =>
      simp only [List.mem_cons, List.mem_append] at hmem
      rcases hmem with rfl | hm | hm
      · rcases he with he | he
        · exact absurd (isNumberPart_of_isDigit he) (by simp [hpart])
        · exact absurd he.1 hdot
      · exact absurd (hp c hm) (by simp [hpart])
      · exact absurd (hl c hm) (by simp [hsuffix])
  | @word _ e es hb hd he hw hr =>
      rcases List.mem_cons.mp hmem with rfl | hm
      · exact absurd (isWordChar_of_isNameStart he) (by simp [hword])
      · exact absurd (hw c hm) (by simp [hword])
  | @marked e es he hw =>
      simp only [List.mem_cons] at hmem
      rcases hmem with rfl | rfl | hm
      · exact absurd rfl hat
      · exact absurd (isWordChar_of_isNameStart he) (by simp [hword])
      · exact absurd (hw c hm) (by simp [hword])
  | ellipsis =>
      simp only [List.mem_cons, List.not_mem_nil, or_false, or_self] at hmem
      exact absurd hmem hdot
  | @mark e hb hq hd hn =>
      obtain rfl := List.mem_singleton.mp hmem
      exact ⟨rfl, rfl, hb⟩

/-- The text of a token with a mark in it is that mark. -/
lemma Shape.eq_mark {kind : TokenKind} {cs : List Char} {c : Char}
    (h : Shape rules kind cs) (hc : c ∈ marks) (hmem : c ∈ cs) :
    cs = [c] ∧ kind = punctuationKind c :=
  have heq := h.eq_singleton (standsAlone_of_mem_marks hc) hmem
  ⟨heq.1, heq.2.1⟩

/-- The kinds of the marks. -/
def markKinds : List TokenKind :=
  marks.map punctuationKind

lemma wordKind_not_mark (word : String) : wordKind word ∉ markKinds := by
  unfold wordKind
  split <;> decide

lemma wordRole_not_mark {word : String} {kind : TokenKind}
    (h : wordRole rules word = .keep kind) : kind ∉ markKinds := by
  unfold wordRole at h
  split at h
  · exact nomatch h
  split at h
  · exact nomatch h
  split at h
  · exact WordRole.keep.inj h ▸ by decide
  split at h
  · exact WordRole.keep.inj h ▸ by decide
  split at h
  · exact nomatch h
  · exact WordRole.keep.inj h ▸ wordKind_not_mark word

lemma label_punctuationKind {c : Char} (h : punctuationKind c ∈ markKinds) :
    (punctuationKind c).label.toList = [c] := by
  revert h
  unfold punctuationKind
  split <;> first | decide | exact fun h => absurd h (by decide)

/-- The kind of a mark has the text of that mark only. -/
lemma Shape.eq_label {kind : TokenKind} {cs : List Char}
    (h : Shape rules kind cs) (hk : kind ∈ markKinds) :
    cs = kind.label.toList := by
  cases h with
  | hexadecimal => exact absurd hk (by decide)
  | number => exact absurd hk (by decide)
  | word hb hd hc hw hr => exact absurd hk (wordRole_not_mark hr)
  | @marked c cs hc hw =>
      unfold atKeyword? at hk
      split at hk <;> exact absurd hk (by decide)
  | ellipsis => exact absurd hk (by decide)
  | mark => exact (label_punctuationKind hk).symm

lemma Readable.eq_label {face : Face} (h : Readable rules face)
    (hk : face.1 ∈ markKinds) : face.2 = face.1.label :=
  String.toList_inj.mp (Shape.eq_label h hk)

/-- Only the opening angle bracket is read as one. -/
lemma Readable.eq_openAngle {word : String}
    (h : Readable rules (.openAngle, word)) : word = "<" :=
  h.eq_label (show TokenKind.openAngle ∈ markKinds by decide)

lemma Readable.toList_ne_nil {face : Face} (h : Readable rules face) :
    face.2.toList ≠ [] :=
  Shape.ne_nil h

lemma Readable.exists_getLast? {face : Face} (h : Readable rules face) :
    ∃ c, face.2.toList.getLast? = some c :=
  Option.ne_none_iff_exists'.mp
    fun hn => h.toList_ne_nil (List.getLast?_eq_none_iff.mp hn)

/-- What may stand behind a token without being read with it: the token is
a mark, or it ends in front of anything. -/
def Parted (cs ds : List Char) : Prop :=
  (∃ c ∈ cs.getLast?, c ∈ marks) ∨ EndsToken ds

/-- A token is read again if it is parted from what follows. -/
lemma Readable.facesOf_append {face : Face} (h : Readable rules face)
    {ds : List Char} (hp : Parted face.2.toList ds) :
    facesOf rules (face.2.toList ++ ds) = face :: facesOf rules ds := by
  rcases hp with ⟨c, hl, hc⟩ | hends
  · obtain ⟨htext, hkind⟩ := Shape.eq_mark h hc (List.mem_of_getLast? hl)
    have hface : face = (punctuationKind c, String.singleton c) :=
      Prod.ext hkind
        (String.toList_inj.mp (htext.trans (String.toList_singleton ..).symm))
    rw [htext, List.singleton_append, facesOf_mark hc, ← hface]
  · obtain ⟨c, cs, hcs⟩ := List.exists_cons_of_ne_nil h.toList_ne_nil
    have hshape : Shape rules face.1 (c :: cs) := hcs ▸ h
    rw [hcs, List.cons_append,
      facesOf_of_token (hshape.readLexeme_append hends), ← hcs,
      String.ofList_toList]

/-- The text alone is read as one token, which has it. -/
def ReadAlone (rules : MacroRules) (face : Face) : Prop :=
  facesOf rules face.2.toList = [face]

lemma Readable.readAlone {face : Face} (h : Readable rules face) :
    ReadAlone rules face := by
  have hface := h.facesOf_append (.inr endsToken_nil)
  rwa [List.append_nil, facesOf_nil] at hface

lemma ReadAlone.readable {face : Face} (h : ReadAlone rules face)
    (hp : face.Plain) : Readable rules face := by
  have hmem : face ∈ facesOf rules face.2.toList := by
    rw [h]
    exact List.mem_singleton_self _
  exact readable_of_mem_facesOf hp hmem

/-! ### Joining from left to right -/

lemma joinPiecesAfter_cons {prev : Option Char} {p : List Char} {c : Char}
    (h : p.getLast? = some c) (ps : List (List Char)) :
    joinPiecesAfter prev (p :: ps)
      = (if prev.any (spacedAfter · p) then ' ' :: p else p)
        ++ joinPiecesAfter (some c) ps := by
  rw [joinPiecesAfter, h]

/-- The last character of a text of pieces. -/
def lastAfter (prev : Option Char) (ps : List (List Char)) :
    Option Char :=
  ps.flatten.getLast?.or prev

lemma lastAfter_cons {prev : Option Char} {p : List Char} {c : Char}
    (h : p.getLast? = some c) (ps : List (List Char)) :
    lastAfter prev (p :: ps) = lastAfter (some c) ps := by
  rw [lastAfter, lastAfter, List.flatten_cons, List.getLast?_append, h]
  cases ps.flatten.getLast? <;> rfl

lemma joinPiecesAfter_append (prev : Option Char)
    (ps qs : List (List Char)) :
    joinPiecesAfter prev (ps ++ qs)
      = joinPiecesAfter prev ps
        ++ joinPiecesAfter (lastAfter prev ps) qs := by
  induction ps generalizing prev with
  | nil => rfl
  | cons p ps ih =>
      cases hp : p.getLast? with
      | none =>
          obtain rfl := List.getLast?_eq_none_iff.mp hp
          exact ih prev
      | some c =>
          rw [List.cons_append, joinPiecesAfter_cons hp, ih,
            joinPiecesAfter_cons hp, lastAfter_cons hp, List.append_assoc]

lemma getLast?_joinPiecesAfter (prev : Option Char)
    (ps : List (List Char)) :
    (joinPiecesAfter prev ps).getLast? = ps.flatten.getLast? := by
  induction ps generalizing prev with
  | nil => rfl
  | cons p ps ih =>
      cases hp : p.getLast? with
      | none =>
          obtain rfl := List.getLast?_eq_none_iff.mp hp
          exact ih prev
      | some c =>
          rw [joinPiecesAfter_cons hp, List.getLast?_append, ih,
            List.flatten_cons, List.getLast?_append]
          split
          · rw [List.getLast?_cons, hp]
            rfl
          · rfl

/-! ### Rows of pieces with the same text -/

/-- The rows of pieces are joined to the same text, wherever they stand. -/
def JoinsAlike (ps qs : List (List Char)) : Prop :=
  ∀ prev rs, joinPiecesAfter prev (ps ++ rs) = joinPiecesAfter prev (qs ++ rs)

namespace JoinsAlike

lemma refl (ps : List (List Char)) : JoinsAlike ps ps :=
  fun _ _ => rfl

lemma cons {ps qs : List (List Char)} (p : List Char)
    (h : JoinsAlike ps qs) : JoinsAlike (p :: ps) (p :: qs) := by
  intro prev rs
  cases hp : p.getLast? with
  | none =>
      obtain rfl := List.getLast?_eq_none_iff.mp hp
      exact h prev rs
  | some c =>
      rw [List.cons_append, List.cons_append, joinPiecesAfter_cons hp,
        joinPiecesAfter_cons hp, h]

lemma append {ps qs ps' qs' : List (List Char)} (h : JoinsAlike ps qs)
    (h' : JoinsAlike ps' qs') : JoinsAlike (ps ++ ps') (qs ++ qs') := by
  have hleft : JoinsAlike (qs ++ ps') (qs ++ qs') := by
    induction qs generalizing ps with
    | nil => exact h'
    | cons q qs ih => exact (ih (.refl qs)).cons q
  intro prev rs
  rw [List.append_assoc, h, ← List.append_assoc, hleft]

lemma eq {ps qs : List (List Char)} (h : JoinsAlike ps qs)
    (prev : Option Char) :
    joinPiecesAfter prev ps = joinPiecesAfter prev qs := by
  have := h prev []
  rwa [List.append_nil, List.append_nil] at this

end JoinsAlike

/-- Rows of texts that are joined alike make the same type. -/
lemma JoinsAlike.joinTypeText_eq {ps qs : List String}
    (h : JoinsAlike (ps.map String.toList) (qs.map String.toList)) :
    joinTypeText ps = joinTypeText qs :=
  congrArg String.ofList (h.eq none)

/-- A type that was joined is joined to more pieces like its own. -/
lemma joinTypeText_cons_joinTypeText (ps qs : List String) :
    joinTypeText (joinTypeText ps :: qs) = joinTypeText (ps ++ qs) := by
  rw [joinTypeText, joinTypeText, joinTypeText, List.map_cons,
    String.toList_ofList, List.map_append, joinPiecesAfter_append]
  congr 1
  generalize ps.map String.toList = ps
  cases hlast : (joinPiecesAfter none ps).getLast? with
  | none =>
      have hnil := List.getLast?_eq_none_iff.mp hlast
      rw [getLast?_joinPiecesAfter] at hlast
      rw [hnil, joinPiecesAfter, lastAfter, hlast]
      rfl
  | some c =>
      rw [joinPiecesAfter_cons hlast, lastAfter, ← getLast?_joinPiecesAfter,
        hlast]
      rfl

/-- Joining adds nothing but spaces. -/
lemma count_joinPiecesAfter {c : Char} (hc : c ≠ ' ') (prev : Option Char)
    (ps : List (List Char)) :
    (joinPiecesAfter prev ps).count c = ps.flatten.count c := by
  induction ps generalizing prev with
  | nil => rfl
  | cons p ps ih =>
      cases hp : p.getLast? with
      | none =>
          obtain rfl := List.getLast?_eq_none_iff.mp hp
          exact ih prev
      | some d =>
          rw [joinPiecesAfter_cons hp, List.count_append, ih,
            List.flatten_cons, List.count_append]
          split
          · rw [List.count_cons_of_ne hc.symm]
          · rfl

lemma spacedAfter_cons_openAngle (c : Char) (cs : List Char) :
    spacedAfter c ('<' :: cs) = false := by
  simp [spacedAfter]

/-- A group in angle brackets that was joined before is joined like the
pieces in it. -/
lemma joinsAlike_group (gs : List (List Char)) :
    JoinsAlike [joinPiecesAfter none (['<'] :: gs)] (['<'] :: gs) := by
  intro prev rs
  have hopen : ∀ prev' qs, joinPiecesAfter prev' (['<'] :: qs)
      = '<' :: joinPiecesAfter (some '<') qs := by
    intro prev' qs
    rw [joinPiecesAfter_cons rfl, if_neg (by cases prev' <;>
      simp [spacedAfter_cons_openAngle])]
    rfl
  have hlast : ('<' :: joinPiecesAfter (some '<') gs).getLast?
      = lastAfter (some '<') gs := by
    rw [List.getLast?_cons, getLast?_joinPiecesAfter, lastAfter]
    cases gs.flatten.getLast? <;> rfl
  obtain ⟨c, hc⟩ : ∃ c, lastAfter (some '<') gs = some c := by
    rw [lastAfter]
    cases gs.flatten.getLast? with
    | none => exact ⟨'<', rfl⟩
    | some c => exact ⟨c, rfl⟩
  rw [hopen, List.singleton_append, List.cons_append, hopen,
    joinPiecesAfter_cons (hlast.trans hc), if_neg (by cases prev <;>
      simp [spacedAfter_cons_openAngle]), joinPiecesAfter_append, hc]
  rfl

/-! ### The tokens of a joined text -/

/-- Without a space between them two pieces are parted by a mark. -/
lemma parted_of_not_spacedAfter {p q ds : List Char} {c : Char}
    (hp : p.getLast? = some c) (h : spacedAfter c q = false) :
    Parted p (q ++ ds) := by
  unfold spacedAfter at h
  split at h
  · rename_i hq
    refine .inl ⟨c, hp, ?_⟩
    simp only [Bool.not_eq_false', List.contains_cons, List.contains_nil,
      Bool.or_false, Bool.or_eq_true, beq_iff_eq] at h
    rcases h with rfl | rfl | rfl <;> decide
  · simp only [List.any_cons, List.any_nil, Bool.or_false,
      Bool.not_eq_false', Bool.or_eq_true, decide_eq_true_eq,
      List.contains_cons, List.contains_nil, beq_iff_eq,
      Bool.and_eq_true] at h
    rcases h with ((h | h) | h) | h
    · refine .inr ?_
      rcases h with rfl | rfl | rfl | rfl | rfl <;>
        exact endsToken_cons (by decide) _
    · obtain ⟨qs, rfl⟩ := List.head?_eq_some_iff.mp h
      exact .inr (endsToken_cons (by decide) _)
    · refine .inl ⟨c, hp, ?_⟩
      rcases h with rfl | rfl | rfl <;> decide
    · exact .inl ⟨c, hp, h.2 ▸ by decide⟩

/-- The tokens of a joined text are the pieces. -/
lemma facesOf_joinPiecesAfter {faces : List Face}
    (h : ∀ f ∈ faces, Readable rules f) {after : List Char}
    (ha : EndsToken after) (prev : Option Char) :
    facesOf rules
        (joinPiecesAfter prev (faces.map (·.2.toList)) ++ after)
      = faces ++ facesOf rules after := by
  induction faces generalizing prev with
  | nil => rfl
  | cons f fs ih =>
      obtain ⟨hf, hfs⟩ := List.forall_mem_cons.mp h
      obtain ⟨c, hc⟩ := hf.exists_getLast?
      have hspace : facesOf rules
          ((if prev.any (spacedAfter · f.2.toList) then ' ' :: f.2.toList
              else f.2.toList)
            ++ joinPiecesAfter (some c) (fs.map (·.2.toList)) ++ after)
          = facesOf rules (f.2.toList
            ++ (joinPiecesAfter (some c) (fs.map (·.2.toList)) ++ after)) := by
        split
        · rw [List.cons_append, List.cons_append, facesOf_blank (by decide),
            List.append_assoc]
        · rw [List.append_assoc]
      have hparted : Parted f.2.toList
          (joinPiecesAfter (some c) (fs.map (·.2.toList)) ++ after) := by
        cases fs with
        | nil => exact .inr ha
        | cons g gs =>
            obtain ⟨e, he⟩ := (hfs g List.mem_cons_self).exists_getLast?
            rw [List.map_cons, joinPiecesAfter_cons he, Option.any_some]
            split
            · exact .inr (endsToken_cons (by decide) _)
            · rename_i hs
              rw [List.append_assoc]
              exact parted_of_not_spacedAfter hc (Bool.eq_false_iff.mpr hs)
      rw [List.map_cons, joinPiecesAfter_cons hc, hspace,
        hf.facesOf_append hparted, ih hfs]
      rfl

/-! ### Joined texts of tokens -/

/-- The tokens in front of the end, without their places. -/
lemma map_face_dropLast_tokenize (rules : MacroRules) (text : String) :
    (tokenize rules text).dropLast.map Token.face
      = facesOf rules text.toList := by
  rw [List.map_dropLast, map_face_tokenize, List.dropLast_concat]

/-- **A joined text is read as its pieces.**  If the tokens of a text are
neither quoted nor directives nor a lone quote, the text that they are
joined to has the same tokens, and is joined from them again. -/
theorem tokenize_joinTypeText (rules : MacroRules) (text : String)
    (h : ∀ t ∈ (tokenize rules text).dropLast, t.face.Plain) :
    let pieces := (tokenize rules text).dropLast.map (·.value)
    let again := tokenize rules (joinTypeText pieces)
    again.map Token.face = (tokenize rules text).map Token.face
      ∧ joinTypeText (again.dropLast.map (·.value)) = joinTypeText pieces := by
  intro pieces again
  have hvalues : ∀ ts : List Token,
      ts.map (·.value) = (ts.map Token.face).map (·.2) := by
    intro ts
    rw [List.map_map]
    rfl
  have hreadable : ∀ f ∈ facesOf rules text.toList, Readable rules f := by
    intro f hf
    refine readable_of_mem_facesOf ?_ hf
    rw [← map_face_dropLast_tokenize] at hf
    obtain ⟨t, ht, rfl⟩ := List.mem_map.mp hf
    exact h t ht
  have hpieces : pieces = (facesOf rules text.toList).map (·.2) := by
    rw [← map_face_dropLast_tokenize, ← hvalues]
  have hagain : facesOf rules (joinTypeText pieces).toList
      = facesOf rules text.toList := by
    calc facesOf rules (joinTypeText pieces).toList
        = facesOf rules (joinPiecesAfter none
            ((facesOf rules text.toList).map (·.2.toList)) ++ []) := by
          rw [joinTypeText, String.toList_ofList, hpieces, List.map_map,
            List.append_nil]
          rfl
      _ = facesOf rules text.toList := by
          rw [facesOf_joinPiecesAfter hreadable endsToken_nil, facesOf_nil,
            List.append_nil]
  constructor
  · rw [map_face_tokenize, hagain, ← map_face_tokenize]
  · rw [hvalues, map_face_dropLast_tokenize, hagain, ← hpieces]

/-- A generic type with points, numbers and an annotation. -/
theorem tokenize_joinTypeText_table :
    let text := "NSDictionary< NSString*,id <P> >/**/*const _Nonnull [2 ]..."
    let pieces := (tokenize {} text).dropLast.map (·.value)
    let again := tokenize {} (joinTypeText pieces)
    joinTypeText pieces
        = "NSDictionary<NSString *, id<P>> * const _Nonnull[2] ..."
      ∧ again.map Token.face = (tokenize {} text).map Token.face
      ∧ joinTypeText (again.dropLast.map (·.value))
        = joinTypeText pieces :=
  ⟨by decide +kernel, tokenize_joinTypeText {} _ (by decide +kernel)⟩

end HeaderBinding
