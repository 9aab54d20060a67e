/-
The productions of the grammar keep their place, and those that are
repeated read something each time they yield something.

* members: `onward_propertyBody`, `onward_methodBody`,
  `moves_furtherSegment`;
* enumerations: `onward_enumBody`, `onward_enumMacroBody`,
  `onward_moves_enumCase`;
* structures: `onward_declarators`, `moves_arraySize`;
* functions: `onward_functionBody`, `moves_functionParameter`, and
  `length_functionBody_lt`, since a function is looked for where a word
  stands;
* type definitions and containers: `onward_callableAlias`,
  `onward_interfaceHead`, ...
-/
import HeaderBinding.Proofs.Cursor.Onward

namespace HeaderBinding

open Production

/-! ### Members -/

lemma onward_parenthesizedType (due : Expectation) :
    (parenthesizedType due).Onward :=
  (onward_accept (by decide)).bind fun _ =>
    ((onward_scan reaches_typeInParens).bind fun _ =>
      (onward_expect _ _).bind fun _ => onward_pure _).ite (onward_pure _)

lemma onward_propertyAttribute : propertyAttribute.Onward :=
  (onward_look _).bind fun _ =>
    (onward_advance.bind fun _ =>
      (onward_accept (by decide)).bind fun _ =>
        (onward_advance.bind fun _ =>
          (onward_accept (by decide)).bind fun _ =>
            (onward_pure _).ite (onward_pure _)).ite
          (onward_pure _)).ite
      (onward_pure _)

lemma onward_propertyAttributes : propertyAttributes.Onward :=
  (onward_accept (by decide)).bind fun _ =>
    (onward_propertyAttribute.commaSeparated.bind fun _ =>
      (onward_expect _ _).bind fun _ => onward_pure _).ite
      (onward_pure _)

lemma onward_blockProperty (result : String) {ts : List Token}
    (h : opensBlock ts = true) : (blockProperty result).OnwardAt ts := by
  refine Onward.skip_bind ?_ (reaches_drop_two (by decide) (by decide) h)
  refine (onward_look _).bind fun _ => (onward_look _).bind fun _ =>
    (onward_skip reaches_step).when_bind ?_
  refine (onward_expectIdentifier _).bind fun _ =>
    (onward_expect _ _).bind fun _ => (onward_accept (by decide)).bind fun _ =>
      (onward_scan reaches_parameterText).ite_bind (onward_pure _) fun _ =>
        onward_pure _

lemma onward_propertyNameAndType : propertyNameAndType.Onward :=
  (onward_scan reaches_typeText).bind fun _ =>
    onward_look_ite (fun _ h => onward_blockProperty _ h)
      ((onward_expectIdentifier _).bind fun _ => onward_pure _)

lemma onward_propertyBody (inScope : Bool) :
    (propertyBody inScope).Onward :=
  onward_propertyAttributes.bind fun _ =>
    onward_propertyNameAndType.bind fun _ =>
      (onward_accept (by decide)).bind fun _ => onward_pure _

lemma onward_methodParameter : methodParameter.Onward :=
  (onward_parenthesizedType _).bind fun _ =>
    onward_identifierOrEmpty.bind fun _ => onward_pure _

lemma onward_furtherSegment : furtherSegment.Onward :=
  (onward_look _).bind fun _ =>
    (onward_advance.bind fun _ =>
      (onward_skip reaches_step).bind fun _ =>
        onward_methodParameter.bind fun _ => onward_pure _).ite
      ((onward_accept (by decide)).bind fun _ =>
        (onward_methodParameter.bind fun _ => onward_pure _).ite
          (onward_pure _))

lemma onward_selectorSegments (label : String) :
    (selectorSegments label).Onward :=
  onward_methodParameter.bind fun _ =>
    onward_furtherSegment.repeated.bind fun _ =>
      onward_look_ite
        (fun _ h => Onward.skip_bind (by exact onward_pure _)
          (reaches_drop_two (by decide) (by decide) h))
        (onward_pure _)

/-- What is read of a method behind its segments. -/
def methodRest (inScope : Bool) (type label : String)
    (segments : List (String × Parameter)) : Production Method := do
  let macros ← scan trailingMacros
  let _ ← accept .semicolon
  return {
    selector :=
      if segments.isEmpty then label else String.join (segments.map (·.1))
    returnType := type
    parameters := segments.map (·.2)
    inNonnullScope := inScope
    returnNullable := typeIsNullable type
    designated := macros.contains "NS_DESIGNATED_INITIALIZER" }

lemma onward_methodRest (inScope : Bool) (type label : String)
    (segments : List (String × Parameter)) :
    (methodRest inScope type label segments).Onward :=
  (onward_scan reaches_trailingMacros).bind fun _ =>
    (onward_accept (by decide)).bind fun _ => onward_pure _

lemma onward_methodBody (inScope : Bool) : (methodBody inScope).Onward := by
  refine (onward_parenthesizedType _).bind fun _ =>
    (onward_look _).bind fun _ => Onward.ite
      (onward_throw_next .noSelector (fun _ => rfl) fun _ _ => rfl) ?_
  exact onward_advance.bind fun _ => (onward_accept (by decide)).bind fun _ =>
    (onward_selectorSegments _).ite_bind (onward_pure _) fun _ =>
      onward_methodRest inScope _ _ _

lemma ne_endOfInput_of_startsLabel {t : Token} {ts : List Token}
    (h : startsLabel (t :: ts) = true) : t.kind ≠ .endOfInput := by
  intro hk
  simp [startsLabel_cons_iff, labelKeywords, hk] at h

lemma exists_cons_of_startsLabel {ts : List Token}
    (h : startsLabel ts = true) : ∃ t us, ts = t :: us := by
  cases ts with
  | nil => cases h
  | cons t us => exact ⟨t, us, rfl⟩

/-- A segment begins with a label or a colon. -/
lemma moves_furtherSegment : furtherSegment.Moves := by
  intro ts a rest h
  rw [furtherSegment, result_bind_of_ok (result_look _ ts)] at h
  split at h
  · rename_i hl
    rw [Bool.and_eq_true] at hl
    obtain ⟨t, us, rfl⟩ := exists_cons_of_startsLabel hl.1
    rw [result_bind_of_ok (result_advance _),
      result_bind_of_ok (result_skip step _)] at h
    obtain ⟨p, r, hp, h⟩ := exists_of_result_bind h
    simp only [result_pure, Prod.mk.injEq] at h
    have h1 := (onward_methodParameter.reaches hp).length_le
    have h2 := length_step_le (step (t :: us))
    have hend : atEnd (t :: us) = false :=
      atEnd_cons_eq_false.mpr (ne_endOfInput_of_startsLabel hl.1)
    have h3 := length_step_lt hend
    rw [← h.2]
    omega
  · exact (onward_methodParameter.bind fun _ => onward_pure _).moves_behindMark
      ts a rest h

/-! ### Enumerations -/

/-- The names of an enumeration keep their place, and each is read before
it is yielded. -/
lemma onward_moves_enumCase : enumCase.Onward ∧ enumCase.Moves := by
  refine ⟨(onward_skip reaches_toNextCase).bind fun _ =>
      onward_identifier?.bind ?hk,
    Moves.skip_bind reaches_toNextCase (Onward.moves_behindName ?hk rfl)⟩
  intro name?
  cases name? with
  | none => exact onward_pure _
  | some name =>
      exact (onward_accept (by decide)).bind fun _ =>
        Onward.ite_bind
          (Onward.map _ (onward_scan (reaches_expressionTokens _ _)))
          (onward_pure _) fun _ =>
          (onward_accept (by decide)).bind fun _ => onward_pure _

lemma onward_enumCases : enumCases.Onward :=
  (onward_accept (by decide)).bind fun _ =>
    (onward_moves_enumCase.1.repeated.bind fun _ =>
      (onward_expect _ _).bind fun _ => onward_pure _).ite (onward_pure _)

lemma onward_enumBody : enumBody.Onward := by
  refine (onward_look _).bind fun _ => (onward_skip reaches_step).when_bind ?_
  refine (onward_look _).bind fun _ =>
    (onward_pure _).ite_bind onward_identifier? fun _ => ?_
  refine (onward_accept (by decide)).bind fun _ => Onward.ite ?_ ?_
  · refine (onward_scan (reaches_valuesUntil _)).bind fun _ =>
      (onward_pure _).bind fun _ => ?_
    exact onward_enumCases.bind fun _ =>
      (onward_accept (by decide)).bind fun _ => onward_pure _
  · exact (onward_pure _).bind fun _ => onward_enumCases.bind fun _ =>
      (onward_accept (by decide)).bind fun _ => onward_pure _

lemma onward_enumMacroType (word : String) : (enumMacroType word).Onward :=
  ((onward_skip reaches_step).bind fun _ => onward_pure _).ite
    ((onward_scan (reaches_valuesUntil _)).bind fun _ => onward_pure _)

lemma onward_enumMacroBody (word : String) : (enumMacroBody word).Onward :=
  (onward_expect _ _).bind fun _ => (onward_enumMacroType _).bind fun _ =>
    (onward_expect _ _).bind fun _ => (onward_expectIdentifier _).bind fun _ =>
      (onward_expect _ _).bind fun _ =>
        onward_enumCases.bind fun _ => onward_pure _

/-! ### Structures -/

lemma onward_arraySize : arraySize.Onward :=
  (onward_accept (by decide)).bind fun _ =>
    ((onward_scan (reaches_valuesUntil _)).bind fun _ =>
      (onward_expect _ _).bind fun _ => onward_pure _).ite (onward_pure _)

/-- The size of an array begins with its bracket. -/
lemma moves_arraySize : arraySize.Moves :=
  Onward.moves_behindMark <| (onward_scan (reaches_valuesUntil _)).bind
    fun _ => (onward_expect _ _).bind fun _ => onward_pure _

lemma onward_declarator (base : String) : (declarator base).Onward := by
  refine (onward_scan fun ts => reaches_takeKinds _ ts (by decide)).bind
    fun _ => onward_identifierOrEmpty.bind fun _ =>
      onward_arraySize.repeated.bind fun _ =>
        (onward_accept (by decide)).bind fun _ => Onward.ite ?_ ?_
  · exact (onward_scan (reaches_valuesUntil _)).bind fun _ => onward_pure _
  · exact onward_pure _

lemma onward_declarators (base : String) : (declarators base).Onward :=
  (onward_declarator base).commaSeparated.bind fun _ =>
    (onward_accept (by decide)).bind fun _ => onward_pure _

/-! ### Functions -/

lemma onward_functionParameter : functionParameter.Onward :=
  (onward_look _).bind fun _ => (onward_pure _).ite
    ((onward_scan (reaches_parameterTokens 0)).bind fun _ =>
      (onward_accept (by decide)).bind fun _ => onward_pure _)

lemma onward_functionParameters : functionParameters.Onward :=
  (onward_look _).bind fun _ =>
    ((onward_skip reaches_step).bind fun _ => onward_pure _).ite
      (onward_functionParameter.repeated.bind fun _ =>
        (onward_accept (by decide)).bind fun _ =>
          (onward_pure _).ite (onward_pure _))

lemma onward_declarationHead : declarationHead.Onward :=
  (onward_scan (reaches_piecesUntil _)).bind fun _ =>
    (onward_look _).bind fun _ =>
      (onward_throw_next .strayToken (fun _ => rfl) fun _ _ => rfl).ite
        (onward_pure _)

lemma onward_functionBlock : functionBlock.Onward :=
  (onward_accept (by decide)).bind fun _ =>
    ((onward_skip (reaches_skipGroup _ _ 1)).bind fun _ =>
      onward_pure _).ite (onward_pure _)

lemma onward_functionRest (name type : String) (isInline : Bool) :
    (functionRest name type isInline).Onward :=
  (onward_accept (by decide)).bind fun _ =>
    (onward_functionParameters.bind fun _ => (onward_expect _ _).bind fun _ =>
      onward_functionBlock.bind fun _ =>
        (onward_accept (by decide)).bind fun _ => onward_pure _).ite
      ((onward_skip reaches_skipStatement).bind fun _ => onward_pure _)

/-- A parameter is yielded after its tokens, or after a comma if it has
none. -/
lemma moves_functionParameter : functionParameter.Moves := by
  intro ts a rest h
  rw [functionParameter, result_bind_of_ok (result_look _ ts)] at h
  split at h
  · simp at h
  · rename_i hl
    rw [Bool.not_eq_true, Bool.or_eq_false_iff] at hl
    obtain ⟨t, us, rfl, hk⟩ := exists_cons_of_atEnd_eq_false hl.2
    rw [result_bind_of_ok (result_scan _ _)] at h
    obtain ⟨b, r, hb, h⟩ := exists_of_result_bind h
    simp only [result_pure, Prod.mk.injEq] at h
    rw [← h.2]
    have hp := (onward_accept (by decide)).reaches hb
    by_cases hc : t.kind = .comma ∨ t.kind = .closeParen
    · have hpar : (parameterTokens 0 (t :: us)).2 = t :: us := by
        rw [parameterTokens, if_pos (Or.inr ⟨rfl, hc⟩)]
      have hcomma : headIs .comma (t :: us) = true := by
        simp only [headIn, List.head?_cons, Option.any_some] at hl
        rcases hc with hc | hc
        · simp [hc]
        · simp [hc] at hl
      rw [hpar, result_accept_of_headIs hcomma, Prod.mk.injEq] at hb
      rw [← hb.2]
      exact Nat.lt_succ_self _
    · rw [parameterTokens, if_neg (by simp [hk, hc])] at hp
      exact ((reaches_parameterTokens _ us).trans hp).length_lt_cons

/-- The pieces of a declaration, and what they declare. -/
lemma onward_functionPieces (ps : List Piece) (isInline : Bool) :
    Onward (match nameAndType? ps with
      | none => do
        skip skipStatement
        return []
      | some (name, type) => return [← functionRest name type isInline]) := by
  split
  · exact (onward_skip reaches_skipStatement).bind fun _ => onward_pure _
  · exact (onward_functionRest _ _ _).bind fun _ => onward_pure _

lemma onward_functionBody : functionBody.Onward :=
  (onward_scan reaches_functionMarks).bind fun _ =>
    ((onward_accept (by decide)).bind fun _ => onward_pure _).ite
      (onward_declarationHead.bind fun _ => onward_functionPieces _ _)

/-- The keywords before a function are passed over. -/
lemma length_functionMarks_lt {t : Token} {ts : List Token}
    (h : functionPrefixes.contains t.kind = true) :
    (functionMarks (t :: ts)).2.length < (t :: ts).length := by
  rw [functionMarks, if_pos h]
  simp only
  split
  · exact Nat.lt_succ_of_le (by simp)
  · exact (reaches_functionMarks ts).length_lt_cons

/-- A declaration that starts with a word has a piece. -/
lemma length_piecesUntil_lt {stop : List Token → Bool} {t : Token}
    {ts : List Token} (hk : t.kind ≠ .endOfInput)
    (h : stop (t :: ts) = false) :
    (piecesUntil stop (t :: ts)).2.length < (t :: ts).length := by
  rw [piecesUntil, if_neg (by simp [hk, h])]
  exact ((reaches_readPiece t ts).trans
    (reaches_piecesUntil stop _)).length_lt_cons

/-- The kinds that a function or a variable starts with. -/
def functionStarts : List TokenKind :=
  functionPrefixes ++ [.identifier, .kwVoid]

/-- What starts like a function is read, at least in part. -/
lemma length_functionBody_lt {ts rest : List Token} {fs : List Function}
    (hs : headIn functionStarts ts = true)
    (h : functionBody.result ts = (.ok fs, rest)) :
    rest.length < ts.length := by
  obtain ⟨t, us, rfl, hk⟩ := exists_cons_of_headIn hs
  by_cases hp : functionPrefixes.contains t.kind = true
  · have hm : (functionMarks (t :: us)).2.length < (t :: us).length :=
      length_functionMarks_lt hp
    rw [functionBody, result_bind_of_ok (result_scan _ _)] at h
    refine Nat.lt_of_le_of_lt (Onward.reaches ?_ h).length_le hm
    exact ((onward_accept (by decide)).bind fun _ => onward_pure _).ite
      (onward_declarationHead.bind fun _ => onward_functionPieces _ _)
  · -- no keyword comes first, so the word is the first piece
    have hw : t.kind = .identifier ∨ t.kind = .kwVoid := by
      simp only [functionStarts, functionPrefixes, List.cons_append,
        List.nil_append, List.mem_cons, List.not_mem_nil, or_false] at hk hp
      simp only [List.contains_cons, List.contains_nil, Bool.or_false,
        Bool.or_eq_true, beq_iff_eq] at hp
      grind
    have hm : functionMarks (t :: us) = ({}, t :: us) := by
      rw [functionMarks, if_neg hp]
    rw [functionBody, result_bind_of_ok (result_scan _ _), hm,
      if_neg Bool.false_ne_true] at h
    obtain ⟨ps, r, hr, h⟩ := exists_of_result_bind h
    rw [declarationHead, result_bind_of_ok (result_scan _ _)] at hr
    have h1 := (Onward.reaches (onward_functionPieces _ _) h).length_le
    have h2 := (Onward.reaches ((onward_look _).bind fun _ =>
      (onward_throw_next .strayToken (fun _ => rfl) fun _ _ => rfl).ite
        (onward_pure _)) hr).length_le
    refine Nat.lt_of_le_of_lt (Nat.le_trans h1 h2) (length_piecesUntil_lt ?_ ?_)
    · rcases hw with hw | hw <;> simp [hw]
    · rcases hw with hw | hw <;>
        simp [strayKinds, containerMarks, hw]

/-! ### Type definitions -/

lemma onward_callableAlias (mark : String) :
    (callableAlias mark).Onward :=
  (onward_scan (reaches_piecesUntil _)).bind fun _ =>
    (onward_expect _ _).bind fun _ => (onward_skip reaches_step).bind fun _ =>
      (onward_skip reaches_skipAnnotations).bind fun _ =>
        onward_identifierOrEmpty.bind fun _ => (onward_expect _ _).bind fun _ =>
          (onward_expect _ _).bind fun _ =>
            (onward_scan reaches_parameterText).bind fun _ =>
              (onward_skip reaches_skipStatement).bind fun _ => onward_pure _

lemma onward_plainAlias : plainAlias.Onward := by
  refine (onward_scan (reaches_piecesUntil _)).bind fun _ =>
    (onward_accept (by decide)).bind fun _ => ?_
  split
  · exact (onward_pure _).ite (onward_pure _)
  · exact onward_pure _

lemma onward_enumAlias : enumAlias.Onward := by
  refine (onward_skip reaches_step).bind fun _ =>
    onward_enumBody.bind fun _ => onward_identifier?.bind fun _ => ?_
  split
  · exact onward_pure _
  · exact (onward_accept (by decide)).bind fun _ => onward_pure _

lemma onward_enumMacroItem : enumMacroItem.Onward :=
  onward_advance.bind fun _ => (onward_enumMacroBody _).bind fun _ =>
    (onward_accept (by decide)).bind fun _ => onward_pure _

lemma onward_structAlias (d : StructDef) : (structAlias d).Onward :=
  onward_identifier?.bind fun _ =>
    (onward_skip reaches_skipStatement).bind fun _ => onward_pure _

/-! ### Heads of classes and protocols -/

lemma onward_categoryName : categoryName.Onward :=
  (onward_accept (by decide)).bind fun _ =>
    (onward_identifierOrEmpty.bind fun _ => (onward_expect _ _).bind fun _ =>
      onward_pure _).ite (onward_pure _)

lemma onward_superclassName : superclassName.Onward :=
  (onward_accept (by decide)).bind fun _ =>
    ((onward_expectIdentifier _).bind fun _ =>
      (onward_skip fun ts => reaches_skipAngles ts _).bind fun _ =>
        onward_pure _).ite (onward_pure _)

lemma onward_protocolNames (due : Expectation) :
    (protocolNames due).Onward :=
  (onward_accept (by decide)).bind fun _ =>
    ((onward_scan (reaches_identifierList _)).bind fun _ =>
      (onward_expect _ _).bind fun _ => onward_pure _).ite (onward_pure _)

lemma onward_interfaceHead : interfaceHead.Onward :=
  (onward_expectIdentifier _).bind fun _ =>
    (onward_skip fun ts => reaches_skipAngles ts _).bind fun _ =>
      onward_categoryName.bind fun _ => onward_superclassName.bind fun _ =>
        (onward_protocolNames _).bind fun _ =>
          (onward_accept (by decide)).bind fun _ =>
            (onward_skip (reaches_skipGroup _ _ 1)).when_bind (onward_pure _)

end HeaderBinding
