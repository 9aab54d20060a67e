/-
Which prototypes of functions are read with the parameters that they have.

* `TypeRun`, `Prototype`: the tokens of a type, and a type with a name and
  a row of parameters behind it;
* `TypeRun.exists_pieces`: a type and the name behind it are read in
  pieces, of which the name is the last;
* `Prototype.readAll_tokens_iff`, `readTokens_prototype_iff`: a prototype
  is read as it stands exactly if all commas of its parameters stand inside
  parentheses.
-/
import HeaderBinding.Proofs.Cursor.Parameters
import HeaderBinding.Proofs.Header.Single

namespace HeaderBinding

open Production

/-! ### Types -/

/-- The kinds of the words and marks of a type. -/
def typeRunKinds : List TokenKind :=
  [.identifier, .kwVoid, .kwConst, .asterisk]

/-- The tokens of a type: words, marks and groups in angle brackets. -/
inductive TypeRun : List Token → Prop
  | nil : TypeRun []
  | word {t : Token} {ts : List Token} (ht : t.kind ∈ typeRunKinds)
      (h : TypeRun ts) : TypeRun (t :: ts)
  | group {ts : List Token} (g : AngleGroup) (h : TypeRun ts) :
      TypeRun (g.tokens ++ ts)

/-- A type begins with a word, a mark or an angle bracket. -/
lemma TypeRun.exists_cons {ts : List Token} (h : TypeRun ts) (hne : ts ≠ []) :
    ∃ t us, ts = t :: us ∧ t.kind ∈ TokenKind.openAngle :: typeRunKinds := by
  cases h with
  | nil => exact absurd rfl hne
  | word ht => exact ⟨_, _, rfl, List.mem_cons_of_mem _ ht⟩
  | group g =>
      refine ⟨_, _, rfl, ?_⟩
      rw [g.opening_kind]
      exact List.mem_cons_self

/-- The kinds before which the head of a declaration ends. -/
abbrev headStops : List TokenKind :=
  [.openParen, .semicolon] ++ strayKinds

lemma piecesUntil_cons {stop : List Token → Bool} {t : Token}
    {ts : List Token} (hend : t.kind ≠ .endOfInput)
    (hstop : stop (t :: ts) = false) :
    piecesUntil stop (t :: ts)
      = (⟨(readPiece t ts).1,
            if (readPiece t ts).2.2 then none else some t.kind⟩
          :: (piecesUntil stop (readPiece t ts).2.1).1,
          (piecesUntil stop (readPiece t ts).2.1).2) := by
  rw [piecesUntil, if_neg (by simp [hend, hstop])]

/-- A word or a mark is a piece of its own. -/
lemma piecesUntil_word {t : Token} (ht : t.kind ∈ typeRunKinds)
    (ts : List Token) :
    piecesUntil (headIn headStops) (t :: ts)
      = (⟨t.value, some t.kind⟩ :: (piecesUntil (headIn headStops) ts).1,
          (piecesUntil (headIn headStops) ts).2) := by
  have hkinds : ∀ kind ∈ typeRunKinds, kind ≠ .endOfInput
      ∧ kind ≠ .openAngle ∧ headStops.contains kind = false := by
    decide
  obtain ⟨hend, hangle, hstop⟩ := hkinds _ ht
  have hpiece : readPiece t ts = (t.value, ts, false) := if_neg hangle
  rw [piecesUntil_cons hend hstop, hpiece]
  rfl

/-- A group in angle brackets is one piece. -/
lemma piecesUntil_group (g : AngleGroup) (ts : List Token) :
    piecesUntil (headIn headStops) (g.tokens ++ ts)
      = (⟨g.text, none⟩ :: (piecesUntil (headIn headStops) ts).1,
          (piecesUntil (headIn headStops) ts).2) := by
  have hpiece : readPiece g.opening (g.inner ++ g.closing :: ts)
      = (g.text, ts, true) := by
    rw [readPiece, if_pos g.opening_kind, g.readAngles_eq]
  have hstop : headIn headStops (g.opening :: (g.inner ++ g.closing :: ts))
      = false := by
    simp [headStops, strayKinds, containerMarks, g.opening_kind]
  rw [AngleGroup.tokens, List.cons_append, List.append_assoc,
    List.singleton_append, piecesUntil_cons (by simp [g.opening_kind]) hstop,
    hpiece]
  rfl

/-- A type is read in pieces that are joined to the same text, and the
name behind it is the last piece. -/
lemma TypeRun.exists_pieces {ts : List Token} (h : TypeRun ts)
    {name opening : Token} (hname : name.kind = .identifier)
    (hopening : opening.kind = .openParen) (rest : List Token) :
    ∃ ps, piecesUntil (headIn headStops) (ts ++ name :: opening :: rest)
        = (ps ++ [⟨name.value, some .identifier⟩], opening :: rest)
      ∧ JoinsAlike (ps.map (·.text.toList)) (ts.map (·.value.toList))
      ∧ (ts ≠ [] → ps ≠ []) := by
  induction h with
  | nil =>
      refine ⟨[], ?_, .refl _, fun h => absurd rfl h⟩
      have hstop : piecesUntil (headIn headStops) (opening :: rest)
          = ([], opening :: rest) := by
        rw [piecesUntil, if_pos (by simp [hopening])]
      rw [List.nil_append, piecesUntil_word (by simp [hname, typeRunKinds]),
        hstop, hname]
      rfl
  | @word t ts ht _ ih =>
      obtain ⟨ps, hps, hjoin, -⟩ := ih
      refine ⟨⟨t.value, some t.kind⟩ :: ps, ?_, hjoin.cons _, by simp⟩
      rw [List.cons_append, piecesUntil_word ht, hps]
      rfl
  | @group ts g _ ih =>
      obtain ⟨ps, hps, hjoin, -⟩ := ih
      refine ⟨⟨g.text, none⟩ :: ps, ?_, ?_, fun _ => List.cons_ne_nil _ _⟩
      · rw [List.append_assoc, piecesUntil_group, hps]
        rfl
      · rw [List.map_append]
        exact g.joinsAlike.append hjoin

/-! ### Prototypes -/

/-- A function that is announced with its parameters. -/
structure Prototype where
  mark : Token
  type : List Token
  name : Token
  opening : Token
  parameters : List (List Token)
  /-- The tokens between the parentheses. -/
  row : List Token
  closing : Token
  ending : Token
  mark_kind : mark.kind = .kwExtern := by decide
  type_ne_nil : type ≠ [] := by decide
  type_run : TypeRun type
  name_kind : name.kind = .identifier := by decide
  opening_kind : opening.kind = .openParen := by decide
  parameter_row : ParameterRow parameters row
  not_void : ∀ t, parameters = [[t]] → t.kind ≠ .kwVoid
  closing_kind : closing.kind = .closeParen := by decide
  ending_kind : ending.kind = .semicolon := by decide

namespace Prototype

variable (p : Prototype)

/-- The tokens of a prototype, in front of others. -/
def tokens (rest : List Token) : List Token :=
  p.mark :: (p.type ++ p.name :: p.opening
    :: (p.row ++ p.closing :: p.ending :: rest))

/-- The function that a prototype announces. -/
def function : Function where
  name := p.name.value
  returnType := joinTypeText (tokenValues p.type)
  parameters := p.parameters.map readParameter

/-- The keyword is all that stands before the type. -/
lemma functionMarks_tokens (rest : List Token) :
    functionMarks (p.tokens rest) = ({}, (p.tokens rest).tail) := by
  obtain ⟨t, ts, htype, ht⟩ := p.type_run.exists_cons p.type_ne_nil
  have hkinds : ∀ kind ∈ TokenKind.openAngle :: typeRunKinds,
      kind ≠ .string ∧ functionPrefixes.contains kind = false := by
    decide
  obtain ⟨hstring, hprefix⟩ := hkinds _ ht
  have hmark : functionPrefixes.contains p.mark.kind = true := by
    rw [p.mark_kind]
    rfl
  have hnone : ∀ us, functionMarks (t :: us) = ({}, t :: us) := fun us => by
    rw [functionMarks, if_neg (Bool.eq_false_iff.mp hprefix)]
  rw [tokens, htype, functionMarks, if_pos hmark, List.cons_append, hnone]
  simp [hstring, p.mark_kind]

/-- The head of a prototype is read up to the parenthesis. -/
lemma result_functionBody (rest : List Token) :
    functionBody.result (p.tokens rest)
      = (do return [← functionRest p.name.value
            (joinTypeText (tokenValues p.type)) false] :
          Production (List Function)).result
        (p.opening :: (p.row ++ p.closing :: p.ending :: rest)) := by
  obtain ⟨ps, hps, hjoin, hne⟩ := p.type_run.exists_pieces p.name_kind
    p.opening_kind (p.row ++ p.closing :: p.ending :: rest)
  have hhead : declarationHead.result (p.tokens rest).tail
      = (.ok (ps ++ [⟨p.name.value, some .identifier⟩]),
          p.opening :: (p.row ++ p.closing :: p.ending :: rest)) := by
    rw [declarationHead, result_bind_of_ok (result_scan _ _), tokens,
      List.tail_cons, hps, result_bind_of_ok (result_look _ _), if_neg]
    · rfl
    · simp [strayKinds, containerMarks, p.opening_kind]
  have htype : piecesText ps = joinTypeText (tokenValues p.type) :=
    JoinsAlike.joinTypeText_eq (by
      simpa [tokenValues, Function.comp_def] using hjoin)
  have hname : nameAndType? (ps ++ [⟨p.name.value, some .identifier⟩])
      = some (p.name.value, joinTypeText (tokenValues p.type)) := by
    simp [nameAndType?, htype, hne p.type_ne_nil]
  rw [functionBody, result_bind_of_ok (result_scan _ _),
    p.functionMarks_tokens, if_neg Bool.false_ne_true,
    result_bind_of_ok hhead, hname]

/-- Behind the head, a list of parameters has to be read up to the
parenthesis that closes it. -/
lemma closes_of_result_functionRest {name type : String} {isInline : Bool}
    {opening : Token} (ho : opening.kind = .openParen) {ts rest : List Token}
    {f : Function}
    (h : (functionRest name type isInline).result (opening :: ts)
      = (.ok f, rest)) :
    Closes (functionParameters.result ts) f.parameters := by
  rw [functionRest, result_bind_of_ok (result_accept_of_headIs
    (by simp [ho])), if_pos rfl, List.tail_cons] at h
  obtain ⟨qs, mid, hqs, h⟩ := exists_of_result_bind h
  obtain ⟨c, behind, hc, h⟩ := exists_of_result_bind h
  obtain ⟨defined, more, -, h⟩ := exists_of_result_bind h
  obtain ⟨ended, last, -, h⟩ := exists_of_result_bind h
  obtain ⟨hmid, hk⟩ := eq_cons_of_result_expect (by decide) hc
  have hf := Except.ok.inj (congrArg Prod.fst h)
  rw [hqs, hmid, ← hf]
  exact ⟨rfl, by simp [hk]⟩

/-- Where all commas of the parameters stand inside parentheses, the
function is read as it stands. -/
lemma result_functionBody_of_inside
    (h : ∀ q ∈ p.parameters,
      commasInside plainBrackets [.closeParen] [] q = true)
    (rest : List Token) :
    functionBody.result (p.tokens rest) = (.ok [p.function], rest) := by
  have hvoid := p.parameter_row.saysVoid_eq_false p.not_void
    (p.closing :: p.ending :: rest)
  have hrow := result_furtherParameters_row p.parameter_row
    (fun q hq => commasInside_iff.mp (h q hq)) p.closing_kind
    (p.ending :: rest)
  rw [← result_functionParameters hvoid] at hrow
  have hblock : functionBlock.result (p.ending :: rest)
      = (.ok false, p.ending :: rest) := by
    rw [functionBlock, result_bind_of_ok (result_accept_of_not_headIs
      (by simp [p.ending_kind]))]
    rfl
  rw [p.result_functionBody, functionRest, result_bind,
    result_bind_of_ok (result_accept_of_headIs
      (by simp [p.opening_kind])), if_pos rfl, List.tail_cons,
    result_bind_of_ok hrow,
    result_bind_of_ok (result_expect_cons p.closing_kind (by decide) _ _),
    result_bind_of_ok hblock, result_bind_of_ok (result_accept_of_headIs
      (by simp [p.ending_kind]))]
  rfl

lemma result_functionBody_eq_of_ok {fs : List Function}
    {rest left : List Token}
    (h : functionBody.result (p.tokens rest) = (.ok fs, left)) :
    ∃ f, fs = [f]
      ∧ Closes (furtherParameters.result
          (p.row ++ p.closing :: p.ending :: rest)) f.parameters := by
  rw [p.result_functionBody] at h
  obtain ⟨f, last, hrest, h⟩ := exists_of_result_bind h
  refine ⟨f, (Except.ok.inj (congrArg Prod.fst h)).symm, ?_⟩
  rw [← result_functionParameters
    (p.parameter_row.saysVoid_eq_false p.not_void _)]
  exact closes_of_result_functionRest p.opening_kind hrest

lemma readItem_tokens (s : Bool) (rest : List Token) :
    readItem s (p.tokens rest) = functionItems s (p.tokens rest) := by
  rw [tokens, readItem]
  simp only [p.mark_kind]

/-- Among other declarations, a prototype is read as it stands exactly if
all commas of its parameters stand inside parentheses. -/
theorem readAll_tokens_iff (s : Bool) (rest : List Token) :
    (readAll [] readItem Item.ofFailure s (p.tokens rest)).1
        = .function p.function
          :: (readAll [] readItem Item.ofFailure s rest).1
      ↔ ∀ q ∈ p.parameters,
        commasInside plainBrackets [.closeParen] [] q = true := by
  have hend : atEnd (p.tokens rest) = false :=
    atEnd_cons_eq_false.mpr (by simp [p.mark_kind])
  refine ⟨fun h => ?_, fun h => ?_⟩
  · rw [readAll, dif_neg (not_stop_iff.mpr hend), p.readItem_tokens,
      functionItems] at h
    rcases hbody : functionBody.result (p.tokens rest) with ⟨f | fs, left⟩
    · have hfail : (do return (← functionBody).map .function :
          Production (List Item)).result (p.tokens rest)
            = (.error f, left) := by
        rw [result_bind, hbody]
      rw [reading_of_error s hfail] at h
      -- a remark comes first
      cases (List.cons.inj h).1
    · obtain ⟨f, rfl, hclose⟩ := p.result_functionBody_eq_of_ok hbody
      rw [reading_of_ok s (by rw [result_bind_of_ok hbody, result_pure])] at h
      have hf : f = p.function := Item.function.inj (List.cons.inj h).1
      rw [hf] at hclose
      exact (p.parameter_row.closes_iff p.closing_kind _).mp hclose
  · have hitem : readItem s (p.tokens rest)
        = ⟨[.function p.function], s, rest, none⟩ := by
      rw [p.readItem_tokens, functionItems, reading_of_ok s (by
        rw [result_bind_of_ok (p.result_functionBody_of_inside h rest),
          result_pure])]
      rfl
    rw [readAll_of_item hend hitem (by
      simp only [tokens, List.length_cons, List.length_append]
      omega)]
    rfl

end Prototype

/-- The header of a prototype has the function that it announces, and
nothing else, exactly if all commas of its parameters stand inside
parentheses. -/
theorem readTokens_prototype_iff (p : Prototype) (file : String) {e : Token}
    (he : e.kind = .endOfInput) :
    readTokens file (p.tokens [e]) = Header.ofItems file [.function p.function]
      ↔ ∀ q ∈ p.parameters,
        commasInside plainBrackets [.closeParen] [] q = true := by
  have hclosed : Closed (p.tokens [e]) :=
    ⟨e, by simp [Prototype.tokens, List.getLast?_cons], he⟩
  rw [readTokens_eq_iff hclosed, ← p.readAll_tokens_iff false [e],
    readAll_end he]

/-- A function with a block, which has two parameters itself, and an open
end. -/
def runPrototype : Prototype where
  mark := ⟨.kwExtern, "extern", 1, 1⟩
  type := [⟨.identifier, "int", 1, 8⟩]
  name := ⟨.identifier, "run", 1, 12⟩
  opening := ⟨.openParen, "(", 1, 15⟩
  parameters := [
    [⟨.kwVoid, "void", 1, 16⟩, ⟨.openParen, "(", 1, 21⟩,
      ⟨.caret, "^", 1, 22⟩, ⟨.identifier, "done", 1, 23⟩,
      ⟨.closeParen, ")", 1, 27⟩, ⟨.openParen, "(", 1, 28⟩,
      ⟨.identifier, "id", 1, 29⟩, ⟨.comma, ",", 1, 31⟩,
      ⟨.identifier, "BOOL", 1, 33⟩, ⟨.closeParen, ")", 1, 37⟩],
    [⟨.ellipsis, "...", 1, 40⟩]]
  row := _
  closing := ⟨.closeParen, ")", 1, 43⟩
  ending := ⟨.semicolon, ";", 1, 44⟩
  type_run := .word (by decide) .nil
  parameter_row := .cons (c := ⟨.comma, ",", 1, 38⟩)
    ⟨by decide, by decide, by decide, by decide⟩ rfl (.rest rfl)
  not_void := fun _ h => nomatch h

/-- The comma between the parameters of the block does not cut it. -/
theorem readHeader_runPrototype :
    readHeader {} "" "extern int run(void (^done)(id, BOOL), ...);\n"
      = Header.ofItems "" [.function {
          name := "run"
          returnType := "int"
          parameters := [⟨"done", "void (^)(id, BOOL)", false⟩,
            ⟨"...", "...", false⟩] }] := by
  have htokens : tokenize {} "extern int run(void (^done)(id, BOOL), ...);\n"
      = runPrototype.tokens [⟨.endOfInput, "", 2, 1⟩] := by
    decide +kernel
  have hfunction : runPrototype.function = {
      name := "run"
      returnType := "int"
      parameters := [⟨"done", "void (^)(id, BOOL)", false⟩,
        ⟨"...", "...", false⟩] } := by
    decide +kernel
  rw [readHeader, htokens, ← hfunction]
  exact (readTokens_prototype_iff runPrototype "" rfl).mpr (by decide)

/-- A function of a dictionary. -/
def showPrototype : Prototype where
  mark := ⟨.kwExtern, "extern", 1, 1⟩
  type := [⟨.kwVoid, "void", 1, 8⟩]
  name := ⟨.identifier, "f", 1, 13⟩
  opening := ⟨.openParen, "(", 1, 14⟩
  parameters := [[⟨.identifier, "NSDictionary", 1, 15⟩,
    ⟨.openAngle, "<", 1, 27⟩, ⟨.identifier, "NSString", 1, 28⟩,
    ⟨.asterisk, "*", 1, 37⟩, ⟨.comma, ",", 1, 38⟩,
    ⟨.identifier, "id", 1, 40⟩, ⟨.closeAngle, ">", 1, 42⟩,
    ⟨.asterisk, "*", 1, 44⟩, ⟨.identifier, "d", 1, 45⟩]]
  row := _
  closing := ⟨.closeParen, ")", 1, 46⟩
  ending := ⟨.semicolon, ";", 1, 47⟩
  type_run := .word (by decide) .nil
  parameter_row := .last ⟨by decide, by decide, by decide, by decide⟩
  not_void := fun _ h => nomatch h

/-- The comma between the arguments of a type cuts a parameter in two. -/
theorem not_readTokens_showPrototype :
    tokenize {} "extern void f(NSDictionary<NSString *, id> *d);\n"
        = showPrototype.tokens [⟨.endOfInput, "", 2, 1⟩]
      ∧ readTokens "" (showPrototype.tokens [⟨.endOfInput, "", 2, 1⟩])
        ≠ Header.ofItems "" [.function showPrototype.function] := by
  decide +kernel

end HeaderBinding
