/-
Parameters whose name stands inside their type.

* `CallableParameter`: a block or a pointer to a function, with the words
  on nullability that may stand between its mark and its name;
* `cutCallable_append`: the first mark behind a parenthesis is found, and
  the token behind it;
* `splitParameter_callable`: that token is taken for the name, and one more
  is left out of the type;
* `splitParameter_callable_iff`: so the name and the type are right exactly
  if no word stands between the mark and the name.
-/
import HeaderBinding.Header.Callable
import HeaderBinding.Proofs.Token.Reread

namespace HeaderBinding

/-- A parameter with its name in parentheses behind a star or a caret, and
further parameters in parentheses behind it. -/
structure CallableParameter where
  /-- The type that a call gives. -/
  result : List Token
  opening : Token
  mark : Token
  /-- The words on nullability in front of the name. -/
  annotations : List Token := []
  name : Token
  closing : Token
  /-- The parameters of what is called, and the parentheses around them. -/
  innerOpening : Token
  inner : List Token
  innerClosing : Token
  result_kind : ∀ t ∈ result, t.kind ≠ .openParen := by decide
  opening_face : opening.face = (.openParen, "(") := by decide
  mark_face : mark.face ∈ [(.asterisk, "*"), (.caret, "^")] := by decide
  annotations_kind : ∀ t ∈ annotations, t.kind = .identifier := by decide
  annotations_value : ∀ t ∈ annotations,
    t.value ∈ nullabilityWords := by decide
  name_kind : name.kind = .identifier := by decide
  name_value : name.value ∉ nullabilityWords := by decide
  closing_face : closing.face = (.closeParen, ")") := by decide
  innerOpening_face : innerOpening.face = (.openParen, "(") := by decide
  innerClosing_face : innerClosing.face = (.closeParen, ")") := by decide

/-- A mark with a parenthesis before it and a name behind it is found
behind tokens that open no parenthesis. -/
lemma cutCallable_append {before behind : List Token}
    {opening mark name : Token} (hbefore : ∀ t ∈ before, t.kind ≠ .openParen)
    (hopening : opening.kind = .openParen)
    (hmark : mark.kind = .asterisk ∨ mark.kind = .caret)
    (hname : name.kind = .identifier) :
    cutCallable (before ++ opening :: mark :: name :: behind)
      = some (before, mark, name, behind) := by
  induction before with
  | nil =>
      rw [List.nil_append, cutCallable, if_pos ⟨hopening, hmark, hname⟩]
  | cons t before ih =>
      rw [List.forall_mem_cons] at hbefore
      obtain ⟨u, v, rest, hrest⟩ : ∃ u v rest,
          before ++ opening :: mark :: name :: behind = u :: v :: rest := by
        cases before with
        | nil => exact ⟨_, _, _, rfl⟩
        | cons u before =>
            cases before with
            | nil => exact ⟨_, _, _, rfl⟩
            | cons v before => exact ⟨_, _, _, rfl⟩
      have ih := ih hbefore.2
      rw [hrest] at ih
      rw [List.cons_append, hrest, cutCallable,
        if_neg fun h => hbefore.1 h.1, ih]
      rfl

namespace CallableParameter

variable (p : CallableParameter)

/-- The tokens behind the mark. -/
def behind : List Token :=
  p.annotations ++ p.name :: p.closing :: p.innerOpening
    :: (p.inner ++ [p.innerClosing])

/-- The tokens of the parameter. -/
def tokens : List Token :=
  p.result ++ p.opening :: p.mark :: p.behind

/-- The pieces of its type: the parameter without its name and without the
words in front of the name. -/
def typePieces : List String :=
  tokenValues (p.result ++ p.opening :: p.mark :: p.closing
    :: p.innerOpening :: (p.inner ++ [p.innerClosing]))

/-- The token that stands behind the mark. -/
def firstWord : Token :=
  p.annotations.headD p.name

lemma mark_kind : p.mark.kind = .asterisk ∨ p.mark.kind = .caret := by
  have h := p.mark_face
  simp only [List.mem_cons, List.not_mem_nil, or_false] at h
  exact h.imp (congrArg Prod.fst) (congrArg Prod.fst)

lemma firstWord_kind : p.firstWord.kind = .identifier := by
  have h := p.annotations_kind
  rw [firstWord]
  cases hwords : p.annotations with
  | nil => exact p.name_kind
  | cons a as => exact h a (by simp [hwords])

lemma behind_eq : p.behind = p.firstWord :: p.behind.tail := by
  rw [behind, firstWord]
  cases p.annotations <;> rfl

/-- The token behind the mark is read as the name, and the one behind that
does not count for the type. -/
theorem splitParameter_callable :
    splitParameter p.tokens = {
      name := p.firstWord.value
      type := joinTypeText (tokenValues p.result
        ++ ["(", p.mark.value, ")"] ++ tokenValues p.behind.tail.tail)
      nullable := hasNullableMarker
        (" ".intercalate (tokenValues p.tokens)).toList } := by
  have hcut : cutCallable p.tokens
      = some (p.result, p.mark, p.firstWord, p.behind.tail) := by
    rw [tokens, behind_eq]
    exact cutCallable_append p.result_kind
      (congrArg Prod.fst p.opening_face) p.mark_kind p.firstWord_kind
  rw [splitParameter, hcut]

/-- Without words in front of the name, what is left is the type. -/
lemma typePieces_eq (h : p.annotations = []) :
    tokenValues p.result ++ ["(", p.mark.value, ")"]
      ++ tokenValues p.behind.tail.tail = p.typePieces := by
  have hopening : p.opening.value = "(" := congrArg Prod.snd p.opening_face
  have hclosing : p.closing.value = ")" := congrArg Prod.snd p.closing_face
  simp [typePieces, behind, tokenValues, h, hopening, hclosing]

end CallableParameter

/-- The name and the type of a parameter that is called are read as they
stand exactly if no word on nullability stands in front of the name. -/
theorem splitParameter_callable_iff (p : CallableParameter) :
    (splitParameter p.tokens).name = p.name.value
        ∧ (splitParameter p.tokens).type = joinTypeText p.typePieces
      ↔ p.annotations = [] := by
  rw [p.splitParameter_callable]
  constructor
  · rintro ⟨hname, -⟩
    cases hwords : p.annotations with
    | nil => rfl
    | cons a as =>
        -- the word is read as the name, which is no such word
        have ha : a.value ∈ nullabilityWords :=
          p.annotations_value a (by simp [hwords])
        rw [CallableParameter.firstWord, hwords, List.headD_cons] at hname
        exact absurd (hname ▸ ha) p.name_value
  · intro h
    refine ⟨?_, by rw [p.typePieces_eq h]⟩
    rw [CallableParameter.firstWord, h, List.headD_nil]

/-- A block that takes a pointer to a function, without words on
nullability. -/
def plainBlock : CallableParameter where
  result := [⟨.identifier, "NSString", 1, 1⟩, ⟨.asterisk, "*", 1, 10⟩]
  opening := ⟨.openParen, "(", 1, 11⟩
  mark := ⟨.caret, "^", 1, 12⟩
  name := ⟨.identifier, "make", 1, 13⟩
  closing := ⟨.closeParen, ")", 1, 17⟩
  innerOpening := ⟨.openParen, "(", 1, 18⟩
  inner := [⟨.identifier, "int", 1, 19⟩, ⟨.openParen, "(", 1, 23⟩,
    ⟨.asterisk, "*", 1, 24⟩, ⟨.closeParen, ")", 1, 25⟩,
    ⟨.openParen, "(", 1, 26⟩, ⟨.kwVoid, "void", 1, 27⟩,
    ⟨.closeParen, ")", 1, 31⟩]
  innerClosing := ⟨.closeParen, ")", 1, 32⟩

/-- Its name and its type are read as they stand. -/
theorem splitParameter_plainBlock :
    tokenize {} "NSString *(^make)(int (*)(void))"
        = plainBlock.tokens ++ [⟨.endOfInput, "", 1, 33⟩]
      ∧ plainBlock.annotations = []
      ∧ (splitParameter plainBlock.tokens).name = "make"
      ∧ (splitParameter plainBlock.tokens).type
        = "NSString * (^)(int (*)(void))" := by
  have hread := (splitParameter_callable_iff plainBlock).mpr rfl
  have htype : joinTypeText plainBlock.typePieces
      = "NSString * (^)(int (*)(void))" := by
    decide +kernel
  rw [htype] at hread
  exact ⟨by decide +kernel, rfl, hread.1, hread.2⟩

/-- A block that may be missing. -/
def nullableBlock : CallableParameter where
  result := [⟨.kwVoid, "void", 1, 1⟩]
  opening := ⟨.openParen, "(", 1, 6⟩
  mark := ⟨.caret, "^", 1, 7⟩
  annotations := [⟨.identifier, "_Nullable", 1, 8⟩]
  name := ⟨.identifier, "done", 1, 18⟩
  closing := ⟨.closeParen, ")", 1, 22⟩
  innerOpening := ⟨.openParen, "(", 1, 23⟩
  inner := [⟨.identifier, "int", 1, 24⟩]
  innerClosing := ⟨.closeParen, ")", 1, 27⟩

/-- The word takes the place of its name. -/
theorem not_splitParameter_nullableBlock :
    tokenize {} "void (^_Nullable done)(int)"
        = nullableBlock.tokens ++ [⟨.endOfInput, "", 1, 28⟩]
      ∧ ¬ ((splitParameter nullableBlock.tokens).name
            = nullableBlock.name.value
          ∧ (splitParameter nullableBlock.tokens).type
            = joinTypeText nullableBlock.typePieces) := by
  have hname : (splitParameter nullableBlock.tokens).name = "_Nullable" := by
    decide +kernel
  refine ⟨by decide +kernel, fun h => ?_⟩
  rw [hname] at h
  exact absurd h.1 (by decide)

end HeaderBinding
