/-
Declarations of fields: names behind a type, each with its own stars.

* `BaseType`, `Declarator`, `FieldDeclaration`: a type without stars, a
  name with its stars, array sizes and width, and names behind a type;
* `BaseType.typeText_append`: the stars of the first name are read with
  the type;
* `Declarator.result_declarator`: a name is read with its own stars;
* `FieldDeclaration.readFieldGroup_eq`: so all names but the first get the
  stars of the first too;
* `FieldDeclaration.readFields_eq_iff`: which makes a difference exactly
  if the first has stars and others stand behind it.
-/
import HeaderBinding.Proofs.Cursor.Brackets
import HeaderBinding.Proofs.Cursor.Grammar

namespace HeaderBinding

open Production

/-! ### Runs of tokens -/

lemma takeKinds_append {kinds : List TokenKind} {us rest : List Token}
    (hus : ∀ u ∈ us, u.kind ∈ kinds) (hrest : headIn kinds rest = false) :
    takeKinds kinds (us ++ rest) = (tokenValues us, rest) := by
  induction us with
  | nil =>
      cases rest with
      | nil => rfl
      | cons r rest =>
          rw [List.nil_append, takeKinds, if_neg (by simpa using hrest)]
          rfl
  | cons u us ih =>
      rw [List.forall_mem_cons] at hus
      rw [List.cons_append, takeKinds, if_pos (by simpa using hus.1),
        ih hus.2]
      rfl

lemma valuesUntil_append {stops : List TokenKind} {us rest : List Token}
    (hus : ∀ u ∈ us, u.kind ∉ TokenKind.endOfInput :: stops)
    (hrest : headIn stops rest = true) :
    valuesUntil stops (us ++ rest) = (tokenValues us, rest) := by
  induction us with
  | nil =>
      obtain ⟨r, rest, rfl, hr⟩ := exists_cons_of_headIn hrest
      rw [List.nil_append, valuesUntil, if_pos (.inr (by simpa using hr))]
      rfl
  | cons u us ih =>
      rw [List.forall_mem_cons, List.mem_cons, not_or] at hus
      rw [List.cons_append, valuesUntil, if_neg (by simpa using hus.1),
        ih hus.2]
      rfl

/-! ### Types without stars -/

/-- The kinds of the words of a type. -/
def baseKinds : List TokenKind :=
  [.identifier, .kwVoid]

/-- A type without stars: keywords, words and a group in angle
brackets. -/
structure BaseType where
  keywords : List Token := []
  words : List Token
  group? : Option AngleGroup := none
  keywords_kind : ∀ t ∈ keywords, t.kind ∈ typeKeywords := by decide
  words_kind : ∀ t ∈ words, t.kind ∈ baseKinds := by decide
  words_value : ∀ t ∈ words, t.value ≠ "" := by decide
  words_ne_nil : words ≠ [] := by decide

/-- The tokens of a group, if there is one. -/
def groupTokens (g? : Option AngleGroup) : List Token :=
  (g?.map AngleGroup.tokens).getD []

/-- The piece of a group, if there is one. -/
def groupTexts (g? : Option AngleGroup) : List String :=
  (g?.map AngleGroup.text).toList

lemma joinsAlike_groupTexts (g? : Option AngleGroup) :
    JoinsAlike ((groupTexts g?).map String.toList)
      ((tokenValues (groupTokens g?)).map String.toList) := by
  cases g? with
  | none => exact .refl _
  | some g => simpa [groupTexts, groupTokens, tokenValues,
      Function.comp_def] using g.joinsAlike

/-- A name that is declared, with its stars, may come next. -/
def DeclaresNext (ts : List Token) : Prop :=
  headIs .asterisk ts = true
    ∨ headIs .identifier ts = true ∧ kindAt 1 ts ∈ nameFollowers

lemma DeclaresNext.headIn_eq {ts : List Token} (h : DeclaresNext ts) :
    headIn [.identifier, .asterisk] ts = true := by
  rcases h with h | ⟨h, -⟩ <;>
    obtain ⟨t, rest, rfl, ht⟩ := exists_cons_of_headIs h <;>
    simp [ht]

lemma declaresNext_append {stars : List Token}
    (hstars : ∀ t ∈ stars, t.kind = .asterisk) {name : Token}
    (hname : name.kind = .identifier) {rest : List Token}
    (hrest : headIn nameFollowers rest = true) :
    DeclaresNext (stars ++ name :: rest) := by
  cases stars with
  | nil =>
      obtain ⟨r, rest, rfl, hr⟩ := exists_cons_of_headIn hrest
      exact .inr ⟨by simp [hname], hr⟩
  | cons t stars =>
      exact .inl (by simp [hstars t List.mem_cons_self])

lemma anglesHere_of_not_headIs {ts : List Token}
    (h : headIs .openAngle ts = false) : anglesHere ts = ([], ts) := by
  cases ts with
  | nil => rfl
  | cons t ts => rw [anglesHere, if_neg (by simpa using h)]

lemma anglesHere_groupTokens (g? : Option AngleGroup) {ts : List Token}
    (h : DeclaresNext ts) :
    anglesHere (groupTokens g? ++ ts) = (groupTexts g?, ts) := by
  cases g? with
  | none =>
      exact anglesHere_of_not_headIs (headIs_eq_false h.headIn_eq (by decide))
  | some g =>
      rw [groupTokens, Option.map_some, Option.getD_some, AngleGroup.tokens,
        List.cons_append, List.append_assoc, List.singleton_append,
        anglesHere, if_pos g.opening_kind, g.readAngles_eq]
      rfl

/-- The kinds that may stand behind a word of a type. -/
def runKinds : List TokenKind :=
  .openAngle :: .asterisk :: baseKinds

/-- Behind a word of a type stands no mark that follows a name. -/
lemma headIn_words {ws : List Token} (hws : ∀ w ∈ ws, w.kind ∈ baseKinds)
    (g? : Option AngleGroup) {ts : List Token} (h : DeclaresNext ts) :
    headIn runKinds (ws ++ (groupTokens g? ++ ts)) = true := by
  cases ws with
  | cons w ws =>
      exact headIn_imp (headIn_of_mem (hws w List.mem_cons_self) _)
        (by decide)
  | nil =>
      cases g? with
      | none => exact headIn_imp h.headIn_eq (by decide)
      | some g => exact headIn_of_mem (by simp [runKinds, g.opening_kind]) _

/-- The last word of a type is read with its group, up to the name. -/
lemma typeWords_last {w : Token} (hw : w.kind ∈ baseKinds)
    (g? : Option AngleGroup) {ts : List Token} (h : DeclaresNext ts) :
    typeWords (w :: (groupTokens g? ++ ts))
      = (w.value :: groupTexts g?, ts) := by
  rw [typeWords, if_pos (by simpa [baseKinds] using hw),
    anglesHere_groupTokens g? h]
  rcases h with hstar | hname
  · -- a star ends the words
    obtain ⟨t, rest, rfl, ht⟩ := exists_cons_of_headIs hstar
    have hnone : typeWords (t :: rest) = ([], t :: rest) := by
      rw [typeWords, if_neg (by simp [ht])]
    rw [if_neg (by simp [ht]), hnone]
    simp
  · rw [if_pos hname]

/-- A word in front of another one is no name that is declared. -/
lemma typeWords_cons {w v : Token} (hw : w.kind ∈ baseKinds)
    (hv : v.kind ∈ baseKinds) {ts : List Token}
    (hnext : headIn runKinds ts = true) :
    typeWords (w :: v :: ts)
      = (w.value :: (typeWords (v :: ts)).1, (typeWords (v :: ts)).2) := by
  have hangle : anglesHere (v :: ts) = ([], v :: ts) :=
    anglesHere_of_not_headIs
      (headIs_eq_false (headIn_of_mem hv ts) (by decide))
  have hnot : kindAt 1 (v :: ts) ∉ nameFollowers := by
    obtain ⟨u, us, rfl, hu⟩ := exists_cons_of_headIn hnext
    have hall : ∀ kind ∈ runKinds, kind ∉ nameFollowers := by decide
    exact hall _ hu
  rw [typeWords, if_pos (by simpa [baseKinds] using hw), hangle,
    if_neg fun hname => hnot hname.2]
  rfl

/-- The words of a type are read up to the name behind them. -/
lemma typeWords_append {ws : List Token} (hne : ws ≠ [])
    (hws : ∀ w ∈ ws, w.kind ∈ baseKinds) (g? : Option AngleGroup)
    {ts : List Token} (h : DeclaresNext ts) :
    typeWords (ws ++ (groupTokens g? ++ ts))
      = (tokenValues ws ++ groupTexts g?, ts) := by
  induction ws with
  | nil => exact absurd rfl hne
  | cons w ws ih =>
      rw [List.forall_mem_cons] at hws
      cases ws with
      | nil => exact typeWords_last hws.1 g? h
      | cons v ws =>
          obtain ⟨hv, hrest⟩ := List.forall_mem_cons.mp hws.2
          have hread := ih (List.cons_ne_nil _ _) hws.2
          rw [List.cons_append] at hread
          rw [List.cons_append, List.cons_append,
            typeWords_cons hws.1 hv (headIn_words hrest g? h), hread]
          rfl

/-- Stars are read up to a name. -/
lemma pointerMarks_append {stars rest : List Token}
    (hstars : ∀ t ∈ stars, t.kind = .asterisk)
    (hrest : headIs .identifier rest = true) (prev : Option String) :
    pointerMarks prev (stars ++ rest) = (tokenValues stars, rest) := by
  induction stars generalizing prev with
  | nil =>
      obtain ⟨r, rest, rfl, hr⟩ := exists_cons_of_headIs hrest
      rw [List.nil_append, pointerMarks, if_neg (by simp [hr])]
      rfl
  | cons t stars ih =>
      rw [List.forall_mem_cons] at hstars
      rw [List.cons_append, pointerMarks, if_pos (.inl hstars.1),
        ih hstars.2]
      rfl

lemma definesInPlace_eq_false {k t : Token} {ts : List Token}
    (ht : t.kind ≠ .openBrace)
    (hts : headIs .openBrace ts = false ∨ t.kind ≠ .identifier) :
    definesInPlace (k :: t :: ts) = false := by
  cases ts with
  | nil => simp [definesInPlace, kindAt, tokenAt, ht]
  | cons u ts =>
      rcases hts with hu | ht'
      · have hu : u.kind ≠ .openBrace := by simpa using hu
        simp [definesInPlace, kindAt, tokenAt, ht, hu]
      · simp [definesInPlace, kindAt, tokenAt, ht, ht']

namespace BaseType

variable (b : BaseType)

/-- The tokens of a type. -/
def tokens : List Token :=
  b.keywords ++ (b.words ++ groupTokens b.group?)

/-- The pieces that a type is read in. -/
def pieces : List String :=
  tokenValues b.keywords ++ (tokenValues b.words ++ groupTexts b.group?)

lemma joinsAlike : JoinsAlike (b.pieces.map String.toList)
    ((tokenValues b.tokens).map String.toList) := by
  simp only [pieces, tokens, tokenValues, List.map_append]
  exact (JoinsAlike.refl _).append
    ((JoinsAlike.refl _).append (joinsAlike_groupTexts b.group?))

lemma headIn_words_append (rest : List Token) :
    headIn baseKinds (b.words ++ rest) = true := by
  obtain ⟨w, ws, hws⟩ := List.exists_cons_of_ne_nil b.words_ne_nil
  rw [hws]
  exact headIn_of_mem (b.words_kind w (by simp [hws])) _

/-- A type begins with a keyword or a word. -/
lemma headIn_tokens_append (rest : List Token) :
    headIn (typeKeywords ++ baseKinds) (b.tokens ++ rest) = true := by
  rw [tokens, List.append_assoc]
  cases hks : b.keywords with
  | nil =>
      rw [List.nil_append, List.append_assoc]
      exact headIn_imp (b.headIn_words_append _) (by decide)
  | cons k ks =>
      have hk := b.keywords_kind k (by simp [hks])
      exact headIn_of_mem (List.mem_append_left _ hk) _

/-- A type has a text. -/
lemma joinTypeText_ne_empty (more : List String) :
    joinTypeText (b.pieces ++ more) ≠ "" := by
  intro hempty
  obtain ⟨w, ws, hws⟩ := List.exists_cons_of_ne_nil b.words_ne_nil
  have hnil : joinPiecesAfter none ((b.pieces ++ more).map String.toList)
      = [] := by
    have := congrArg String.toList hempty
    rwa [joinTypeText, String.toList_ofList] at this
  have hlast := getLast?_joinPiecesAfter none
    ((b.pieces ++ more).map String.toList)
  rw [hnil, eq_comm, List.getLast?_nil, List.getLast?_eq_none_iff,
    List.flatten_eq_nil_iff] at hlast
  have hmem : w.value.toList ∈ (b.pieces ++ more).map String.toList := by
    refine List.mem_map_of_mem ?_
    simp [pieces, tokenValues, hws]
  refine b.words_value w (by simp [hws]) ?_
  exact String.toList_inj.mp (hlast _ hmem)

/-- The stars of the first name are read with the type. -/
theorem typeText_append {stars : List Token}
    (hstars : ∀ t ∈ stars, t.kind = .asterisk) {name : Token}
    (hname : name.kind = .identifier)
    (hplain : name.value ∉ nullabilityWords) {rest : List Token}
    (hrest : headIn nameFollowers rest = true) :
    typeText (b.tokens ++ (stars ++ name :: rest))
      = (joinTypeText (b.pieces ++ tokenValues stars), name :: rest) := by
  have hnext := declaresNext_append hstars hname hrest
  have hkeywords : takeKinds typeKeywords (b.tokens ++ (stars ++ name :: rest))
      = (tokenValues b.keywords,
          b.words ++ (groupTokens b.group? ++ (stars ++ name :: rest))) := by
    rw [tokens, List.append_assoc, List.append_assoc]
    exact takeKinds_append b.keywords_kind
      (headIn_eq_false (b.headIn_words_append _) (by decide))
  have hmark : headIsWord nullabilityWords (name :: rest) = false := by
    simp [hplain]
  rw [typeText, typePieces, hkeywords]
  simp only [typeWords_append b.words_ne_nil b.words_kind b.group? hnext,
    pointerMarks_append hstars
      (show headIs .identifier (name :: rest) = true by simp [headIs, hname]),
    hmark, if_neg Bool.false_ne_true, List.append_nil, pieces]

/-- A type that a name follows defines no structure. -/
lemma not_definesInPlace {rest : List Token} (h : DeclaresNext rest) :
    (headIn [.kwStruct, .kwUnion] (b.tokens ++ rest)
      && definesInPlace (b.tokens ++ rest)) = false := by
  rw [Bool.and_eq_false_iff, tokens, List.append_assoc, List.append_assoc]
  match hks : b.keywords with
  | [] => exact .inl (headIn_eq_false (b.headIn_words_append _) (by decide))
  | [k] =>
      obtain ⟨w, ws, hws⟩ := List.exists_cons_of_ne_nil b.words_ne_nil
      have hmore : ∀ v ∈ ws, v.kind ∈ baseKinds :=
        fun v hv => b.words_kind v (by simp [hws, hv])
      have hw : w.kind ≠ .openBrace := fun hk =>
        absurd (hk ▸ b.words_kind w (by simp [hws])) (by decide)
      rw [hws]
      exact .inr (definesInPlace_eq_false hw
        (.inl (headIs_eq_false (headIn_words hmore b.group? h) (by decide))))
  | k :: l :: ks =>
      have hl := b.keywords_kind l (by simp [hks])
      exact .inr (definesInPlace_eq_false
        (fun hk => absurd (hk ▸ hl) (by decide))
        (.inr fun hk => absurd (hk ▸ hl) (by decide)))

end BaseType

/-! ### Names -/

/-- The size of an array in brackets. -/
structure ArraySize where
  opening : Token
  size : List Token
  closing : Token
  opening_kind : opening.kind = .openBracket := by decide
  size_kind : ∀ t ∈ size, t.kind ∉ [.endOfInput, .closeBracket] := by decide
  closing_kind : closing.kind = .closeBracket := by decide

namespace ArraySize

variable (a : ArraySize)

/-- The tokens of a size. -/
def tokens : List Token :=
  a.opening :: (a.size ++ [a.closing])

/-- What stands between the brackets. -/
def text : String :=
  String.join (tokenValues a.size)

lemma result_arraySize (rest : List Token) :
    arraySize.result (a.tokens ++ rest) = (.ok (some a.text), rest) := by
  have hclose : headIn [.closeBracket] (a.closing :: rest) = true := by
    simp [a.closing_kind]
  have hsize := valuesUntil_append a.size_kind hclose
  rw [tokens, List.cons_append, List.append_assoc, List.singleton_append,
    arraySize, result_bind_of_ok (result_accept_of_headIs
      (by simp [a.opening_kind])), if_pos rfl, List.tail_cons,
    result_bind_of_ok (result_scan _ _), hsize,
    result_bind_of_ok (result_expect_cons a.closing_kind (by decide) _ _)]
  rfl

end ArraySize

/-- Sizes are read one behind the other. -/
lemma result_repeated_arraySize (sizes : List ArraySize) {rest : List Token}
    (hrest : headIs .openBracket rest = false) :
    (repeated arraySize).result (sizes.flatMap ArraySize.tokens ++ rest)
      = (.ok (sizes.map ArraySize.text), rest) := by
  induction sizes with
  | nil =>
      refine result_repeated_of_none ?_
      rw [List.flatMap_nil, List.nil_append, arraySize,
        result_bind_of_ok (result_accept_of_not_headIs hrest)]
      rfl
  | cons a sizes ih =>
      rw [List.flatMap_cons, List.append_assoc,
        moves_arraySize.result_repeated (a.result_arraySize _), ih]
      rfl

/-- The kinds before which the width of a field ends. -/
abbrev widthStops : List TokenKind :=
  [.comma, .semicolon, .closeBrace]

/-- The width of a field. -/
structure FieldWidth where
  mark : Token
  width : List Token
  mark_kind : mark.kind = .colon := by decide
  width_kind : ∀ t ∈ width, t.kind ∉ TokenKind.endOfInput :: widthStops := by
    decide

/-- The tokens of a width, if there is one. -/
def widthTokens (w? : Option FieldWidth) : List Token :=
  (w?.map fun w => w.mark :: w.width).getD []

/-- A name that is declared, with what belongs to it alone. -/
structure Declarator where
  stars : List Token := []
  name : Token
  sizes : List ArraySize := []
  width? : Option FieldWidth := none
  stars_kind : ∀ t ∈ stars, t.kind = .asterisk := by decide
  stars_value : ∀ t ∈ stars, t.value = "*" := by decide
  name_kind : name.kind = .identifier := by decide
  name_plain : name.value ∉ nullabilityWords := by decide

namespace Declarator

variable (d : Declarator)

/-- What stands behind the name. -/
def trailer : List Token :=
  d.sizes.flatMap ArraySize.tokens ++ widthTokens d.width?

/-- The tokens of a declared name. -/
def tokens : List Token :=
  d.stars ++ d.name :: d.trailer

/-- The field of a type of the given pieces. -/
def field (pieces : List String) : StructField where
  name := d.name.value
  type := (d.sizes.map ArraySize.text).foldl
    (fun type size => type ++ " [" ++ size ++ "]")
    (joinTypeText (pieces ++ tokenValues d.stars))

/-- Behind a name its width is passed over. -/
lemma result_width {rest : List Token}
    (hrest : headIn [.comma, .semicolon] rest = true) (field : StructField) :
    (do
      if ← accept .colon then
        let _ ← scan (valuesUntil widthStops)
      return field : Production StructField).result
        (widthTokens d.width? ++ rest) = (.ok field, rest) := by
  cases hw : d.width? with
  | none =>
      rw [widthTokens, Option.map_none, Option.getD_none, List.nil_append,
        result_bind_of_ok (result_accept_of_not_headIs
          (headIs_eq_false hrest (by decide)))]
      rfl
  | some w =>
      have hwidth := valuesUntil_append w.width_kind
        (headIn_imp hrest (by decide))
      rw [widthTokens, Option.map_some, Option.getD_some, List.cons_append,
        result_bind_of_ok (result_accept_of_headIs
          (by simp [w.mark_kind])), if_pos rfl, List.tail_cons,
        result_bind_of_ok (result_scan _ _), hwidth]
      rfl

lemma headIn_width {rest : List Token}
    (hrest : headIn [.comma, .semicolon] rest = true) :
    headIn [.colon, .comma, .semicolon] (widthTokens d.width? ++ rest)
      = true := by
  cases d.width? with
  | none => exact headIn_imp hrest (by decide)
  | some w => exact headIn_of_mem (by simp [w.mark_kind]) _

/-- Behind the name stands a mark that follows names. -/
lemma headIn_trailer {rest : List Token}
    (hrest : headIn [.comma, .semicolon] rest = true) :
    headIn nameFollowers (d.trailer ++ rest) = true := by
  rw [trailer, List.append_assoc]
  cases d.sizes with
  | nil => exact headIn_imp (d.headIn_width hrest) (by decide)
  | cons a sizes =>
      exact headIn_of_mem (by simp [a.opening_kind, nameFollowers]) _

/-- A name is read with its own stars behind the type. -/
theorem result_declarator (pieces : List String) {rest : List Token}
    (hrest : headIn [.comma, .semicolon] rest = true) :
    (declarator (joinTypeText pieces)).result (d.tokens ++ rest)
      = (.ok (d.field pieces), rest) := by
  have hstars : takeKinds [.asterisk]
      (d.stars ++ d.name :: (d.trailer ++ rest))
      = (tokenValues d.stars, d.name :: (d.trailer ++ rest)) :=
    takeKinds_append (fun t ht => List.mem_singleton.mpr (d.stars_kind t ht))
      (by simp [d.name_kind])
  have hname : identifierOrEmpty.result (d.name :: (d.trailer ++ rest))
      = (.ok d.name.value, d.trailer ++ rest) := by
    rw [identifierOrEmpty,
      result_bind_of_ok (result_identifier?_cons d.name_kind _)]
    rfl
  have hsizes := result_repeated_arraySize d.sizes
    (headIs_eq_false (d.headIn_width hrest) (by decide))
  rw [← List.append_assoc, ← trailer] at hsizes
  have hvalues : (tokenValues d.stars).map (fun _ => "*")
      = tokenValues d.stars := by
    rw [tokenValues, List.map_map]
    exact List.map_congr_left fun t ht => (d.stars_value t ht).symm
  rw [declarator, tokens, List.append_assoc, List.cons_append,
    result_bind_of_ok (result_scan _ _), hstars, result_bind_of_ok hname,
    result_bind_of_ok hsizes, d.result_width hrest, hvalues,
    joinTypeText_cons_joinTypeText]
  rfl

end Declarator

/-! ### Declarations of fields -/

/-- Fields of one type: a name, others behind commas, and a semicolon. -/
structure FieldDeclaration where
  base : BaseType
  first : Declarator
  others : List (Token × Declarator) := []
  ending : Token
  others_kind : ∀ o ∈ others, o.1.kind = .comma := by decide
  ending_kind : ending.kind = .semicolon := by decide

/-- The tokens of a comma and the name behind it. -/
def furtherTokens (o : Token × Declarator) : List Token :=
  o.1 :: o.2.tokens

/-- Behind a name stands a comma or the semicolon. -/
lemma headIn_others {others : List (Token × Declarator)}
    (hothers : ∀ o ∈ others, o.1.kind = .comma) {ending : Token}
    (hending : ending.kind = .semicolon) (rest : List Token) :
    headIn [.comma, .semicolon]
      (others.flatMap furtherTokens ++ ending :: rest) = true := by
  cases others with
  | nil => simp [hending]
  | cons o others =>
      simp [furtherTokens, hothers o List.mem_cons_self]

/-- The names behind the first one are read one behind the other. -/
lemma result_others (pieces : List String) {others : List (Token × Declarator)}
    (hothers : ∀ o ∈ others, o.1.kind = .comma) {ending : Token}
    (hending : ending.kind = .semicolon) (rest : List Token) :
    (repeated (do
        if ← accept .comma then
          return some (← declarator (joinTypeText pieces))
        else return none)).result
      (others.flatMap furtherTokens ++ ending :: rest)
      = (.ok (others.map fun o => o.2.field pieces), ending :: rest) := by
  induction others with
  | nil =>
      refine result_repeated_of_none ?_
      rw [List.flatMap_nil, List.nil_append, result_bind_of_ok
        (result_accept_of_not_headIs (by simp [hending]))]
      rfl
  | cons o others ih =>
      rw [List.forall_mem_cons] at hothers
      have hbehind := headIn_others hothers.2 hending rest
      have hone : (do
          if ← accept .comma then
            return some (← declarator (joinTypeText pieces))
          else return none :
            Production (Option StructField)).result
            ((o :: others).flatMap furtherTokens ++ ending :: rest)
          = (.ok (some (o.2.field pieces)),
              others.flatMap furtherTokens ++ ending :: rest) := by
        rw [List.flatMap_cons, furtherTokens, List.append_assoc,
          List.cons_append, result_bind_of_ok (result_accept_of_headIs
            (by simp [hothers.1])), if_pos rfl, List.tail_cons,
          result_bind_of_ok (o.2.result_declarator pieces hbehind)]
        rfl
      rw [(Onward.moves_behindMark ((onward_declarator _).bind
        fun a => onward_pure (some a))).result_repeated hone, ih hothers.2]
      rfl

namespace Declarator

lemma stars_kind_nil : ∀ t ∈ ([] : List Token), t.kind = .asterisk :=
  List.forall_mem_nil _

lemma stars_value_nil : ∀ t ∈ ([] : List Token), t.value = "*" :=
  List.forall_mem_nil _

/-- The name without its stars. -/
def unstarred (d : Declarator) : Declarator :=
  { d with
    stars := []
    stars_kind := stars_kind_nil
    stars_value := stars_value_nil }

lemma field_unstarred (d : Declarator) (pieces : List String) :
    d.unstarred.field (pieces ++ tokenValues d.stars) = d.field pieces := by
  rw [field, field, unstarred]
  simp [tokenValues]

lemma field_congr (d : Declarator) {ps qs : List String}
    (h : JoinsAlike (ps.map String.toList) (qs.map String.toList)) :
    d.field ps = d.field qs := by
  have htype : joinTypeText (ps ++ tokenValues d.stars)
      = joinTypeText (qs ++ tokenValues d.stars) := by
    refine JoinsAlike.joinTypeText_eq ?_
    rw [List.map_append, List.map_append]
    exact h.append (.refl _)
  rw [field, field, htype]

end Declarator

namespace FieldDeclaration

variable (d : FieldDeclaration)

/-- The tokens of a declaration. -/
def tokens : List Token :=
  d.base.tokens ++ (d.first.tokens
    ++ (d.others.flatMap furtherTokens ++ [d.ending]))

/-- The texts of the type. -/
def typeTexts : List String :=
  tokenValues d.base.tokens

/-- The fields that are declared. -/
def fields : List StructField :=
  (d.first :: d.others.map (·.2)).map (·.field d.typeTexts)

/-- The fields that are read: the stars of the first name are those of all
others too. -/
def readFields : List StructField :=
  d.first.field d.typeTexts
    :: (d.others.map (·.2)).map
      (·.field (d.typeTexts ++ tokenValues d.first.stars))

lemma headIn_tokens (rest : List Token) :
    headIn (typeKeywords ++ baseKinds) (d.tokens ++ rest) = true := by
  rw [tokens, List.append_assoc]
  exact d.base.headIn_tokens_append _

/-- The pieces of the type are joined like its tokens, also in front of
stars. -/
lemma joinsAlike_pieces (stars : List String) :
    JoinsAlike ((d.base.pieces ++ stars).map String.toList)
      ((d.typeTexts ++ stars).map String.toList) := by
  rw [List.map_append, List.map_append]
  exact d.base.joinsAlike.append (.refl _)

/-- Behind the type and the stars of the first name, the first name and
the others are read. -/
lemma result_declarators (rest : List Token) :
    (declarators (joinTypeText (d.base.pieces
        ++ tokenValues d.first.stars))).result
      (d.first.name :: (d.first.trailer
        ++ (d.others.flatMap furtherTokens ++ d.ending :: rest)))
      = (.ok d.readFields, rest) := by
  have hfirst := d.first.unstarred.result_declarator
    (d.base.pieces ++ tokenValues d.first.stars)
    (headIn_others d.others_kind d.ending_kind rest)
  have hothers := result_others (d.base.pieces ++ tokenValues d.first.stars)
    d.others_kind d.ending_kind rest
  have hnames : (commaSeparated (declarator (joinTypeText (d.base.pieces
      ++ tokenValues d.first.stars)))).result
        (d.first.unstarred.tokens ++ (d.others.flatMap furtherTokens
          ++ d.ending :: rest))
      = (.ok d.readFields, d.ending :: rest) := by
    rw [commaSeparated, result_bind_of_ok hfirst, result_bind_of_ok hothers,
      result_pure, d.first.field_unstarred,
      d.first.field_congr (d.base.joinsAlike), readFields, List.map_map]
    congr 4
    exact funext fun o =>
      o.2.field_congr (d.joinsAlike_pieces (tokenValues d.first.stars))
  have htokens : d.first.name :: (d.first.trailer
      ++ (d.others.flatMap furtherTokens ++ d.ending :: rest))
        = d.first.unstarred.tokens ++ (d.others.flatMap furtherTokens
          ++ d.ending :: rest) := rfl
  rw [htokens, declarators, result_bind_of_ok hnames, result_bind_of_ok
    (result_accept_of_headIs (by simp [d.ending_kind]))]
  rfl

/-- A declaration is read with the stars of its first name in the type. -/
theorem readFieldGroup_eq (rest : List Token) :
    readFieldGroup (d.tokens ++ rest) = ⟨[], .ok d.readFields, rest⟩ := by
  have hfollow := d.first.headIn_trailer
    (headIn_others d.others_kind d.ending_kind rest)
  have htokens : d.tokens ++ rest = d.base.tokens ++ (d.first.stars
      ++ d.first.name :: (d.first.trailer
        ++ (d.others.flatMap furtherTokens ++ d.ending :: rest))) := by
    simp [tokens, Declarator.tokens]
  have hdirective : headIs .directive (d.tokens ++ rest) = false :=
    headIs_eq_false (d.headIn_tokens rest) (by decide)
  have hplace := d.base.not_definesInPlace (declaresNext_append
    d.first.stars_kind d.first.name_kind hfollow)
  have hempty : (joinTypeText (d.base.pieces
      ++ tokenValues d.first.stars)).isEmpty = false := by
    rw [Bool.eq_false_iff]
    exact fun h => d.base.joinTypeText_ne_empty _ (String.isEmpty_iff.mp h)
  have hread := d.result_declarators rest
  rw [readFieldGroup, hdirective, if_neg Bool.false_ne_true, htokens, hplace,
    if_neg Bool.false_ne_true, d.base.typeText_append d.first.stars_kind
      d.first.name_kind d.first.name_plain hfollow]
  simp only [hempty, if_neg Bool.false_ne_true, fieldsOf]
  exact congrArg (fun r => RecordReading.mk [] r.1 r.2) hread

lemma length_readFields : d.readFields.length = d.fields.length := by
  simp [readFields, fields]

lemma readFields_ne_nil : d.readFields ≠ [] :=
  List.cons_ne_nil _ _

end FieldDeclaration

/-- The type behind array sizes is told by the whole. -/
lemma eq_of_foldl_sizes {sizes : List String} {type type' : String}
    (h : sizes.foldl (fun type size => type ++ " [" ++ size ++ "]") type
      = sizes.foldl (fun type size => type ++ " [" ++ size ++ "]") type') :
    type = type' := by
  induction sizes generalizing type type' with
  | nil => exact h
  | cons size sizes ih =>
      have hstep := congrArg String.toList (ih h)
      simp only [String.toList_append, List.append_assoc] at hstep
      exact String.toList_inj.mp (List.append_cancel_right hstep)

/-- More stars make another type. -/
lemma Declarator.eq_nil_of_field_eq {d : Declarator} {pieces : List String}
    {stars : List Token} (hstars : ∀ t ∈ stars, t.value = "*")
    (h : d.field (pieces ++ tokenValues stars) = d.field pieces) :
    stars = [] := by
  have htype := eq_of_foldl_sizes (congrArg StructField.type h)
  have hcount := congrArg (fun type : String => type.toList.count '*') htype
  simp only [joinTypeText, String.toList_ofList,
    count_joinPiecesAfter (show '*' ≠ ' ' by decide), List.map_append,
    List.flatten_append, List.count_append] at hcount
  have hzero : ((tokenValues stars).map String.toList).flatten.count '*'
      = 0 := by
    omega
  cases stars with
  | nil => rfl
  | cons t stars =>
      simp [tokenValues, hstars t List.mem_cons_self] at hzero

/-- The fields of a declaration are read as they stand exactly if the
first name has no stars or no other name stands behind it. -/
theorem FieldDeclaration.readFields_eq_iff (d : FieldDeclaration) :
    d.readFields = d.fields ↔ d.first.stars = [] ∨ d.others = [] := by
  refine ⟨fun h => ?_, fun h => ?_⟩
  · cases ho : d.others with
    | nil => exact .inr rfl
    | cons o others =>
        rw [readFields, fields, ho] at h
        have hfield := (List.cons.inj (List.cons.inj h).2).1
        exact .inl (Declarator.eq_nil_of_field_eq d.first.stars_value hfield)
  · rcases h with h | h
    · simp [readFields, fields, h, tokenValues]
    · simp [readFields, fields, h]

end HeaderBinding
