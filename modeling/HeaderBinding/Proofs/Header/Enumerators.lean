/-
The names of an enumeration and their values.

* `expressionTokens_append`: a value is read up to the comma or the brace
  behind it, without the directives in it;
* `Enumerator`, `EnumRow`: a name with its value, and names in a row with
  commas between them;
* `EnumRow.result_enumCases`: one case is read for each, with its name and
  the text of its value;
* `enumCases_kept`: the text of a value has the tokens of the value again.
-/
import Mathlib.Data.List.Forall2
import HeaderBinding.Proofs.Cursor.Brackets
import HeaderBinding.Proofs.Cursor.Grammar
import HeaderBinding.Proofs.Token.Expressions

namespace HeaderBinding

open Production

/-! ### Values -/

/-- The kinds that end a value where they stand in no parenthesis. -/
def valueStops : List TokenKind :=
  [.comma, .closeBrace]

/-- Every token that could end a value stands in a parenthesis. -/
def stopsInside (due : List TokenKind) : List Token → Bool
  | [] => true
  | t :: ts => (!valueStops.contains t.kind || due.contains .closeParen)
      && stopsInside (dueBehind parentheses due t) ts

/-- A token that is not a directive. -/
def Token.counts (t : Token) : Bool :=
  t.kind ≠ .directive

/-- The depth that the reader counts is the number of parentheses that are
due. -/
lemma depthBehind_eq {due : List TokenKind} {t : Token}
    (h : fits parentheses due t = true) :
    (if t.kind = .openParen then (due.count .closeParen : Int) + 1
      else if t.kind = .closeParen then (due.count .closeParen : Int) - 1
      else due.count .closeParen)
      = (dueBehind parentheses due t).count .closeParen := by
  rw [pair_paren.count_dueBehind h]
  split
  · exact (Int.natCast_succ _).symm
  split
  · rename_i hk
    have := pair_paren.count_pos h hk
    omega
  · rfl

/-- Tokens that close the parentheses they open are read up to what ends
the value behind them. -/
theorem expressionTokens_append {due : List TokenKind} {ts : List Token}
    (hnested : isNested parentheses due ts = true)
    (hinside : stopsInside due ts = true) {stop : Token}
    (hstop : stop.kind ∈ valueStops) (rest : List Token) :
    expressionTokens valueStops (due.count .closeParen) (ts ++ stop :: rest)
      = (ts.filter Token.counts, stop :: rest) := by
  induction ts generalizing due with
  | nil =>
      obtain rfl : due = [] := List.isEmpty_iff.mp hnested
      rw [List.nil_append, expressionTokens,
        if_pos (.inr ⟨rfl, List.contains_iff_mem.mpr hstop⟩)]
      rfl
  | cons t ts ih =>
      rw [isNested, Bool.and_eq_true] at hnested
      rw [stopsInside, Bool.and_eq_true] at hinside
      have hgo : ¬ (t.kind = .endOfInput ∨ (due.count .closeParen : Int) = 0
          ∧ valueStops.contains t.kind = true) := by
        rintro (hend | ⟨hzero, hk⟩)
        · exact ne_end_of_fits hnested.1 hend
        · rw [Int.natCast_eq_zero, List.count_eq_zero] at hzero
          simp only [hk, List.contains_iff_mem, hzero, Bool.not_true,
            Bool.false_or] at hinside
          exact absurd hinside.1 (by simp)
      have hrest := ih hnested.2 hinside.2
      rw [List.cons_append, expressionTokens, if_neg hgo]
      by_cases hd : t.kind = .directive
      · have hdue : dueBehind parentheses due t = due := by
          simp [dueBehind, hd, parentheses, Brackets.closers]
        rw [hdue] at hrest
        rw [if_pos hd, hrest,
          List.filter_cons_of_neg (by simp [Token.counts, hd])]
      · rw [if_neg hd, depthBehind_eq hnested.1, hrest,
          List.filter_cons_of_pos (by simp [Token.counts, hd])]

/-! ### Enumerators -/

/-- The value of a name: tokens that close the parentheses they open, with
commas and closing braces in parentheses only. -/
structure EnumeratorValue where
  equals : Token
  expression : List Token
  equals_kind : equals.kind = .equals := by decide
  nested : isNested parentheses [] expression = true := by decide
  inside : stopsInside [] expression = true := by decide

/-- A name of an enumeration, behind directives, and its value, if it has
one. -/
structure Enumerator where
  directives : List Token := []
  name : Token
  value? : Option EnumeratorValue := none
  directives_kind : ∀ t ∈ directives, t.kind = .directive := by decide
  name_kind : name.kind = .identifier := by decide

namespace EnumeratorValue

variable (v : EnumeratorValue)

/-- The tokens of a value with its equals sign. -/
def tokens : List Token :=
  v.equals :: v.expression

/-- The tokens that are kept of a value: those that are no directives. -/
def kept : List Token :=
  v.expression.filter Token.counts

/-- The text of a value. -/
def text : String :=
  joinExpression v.kept

end EnumeratorValue

namespace Enumerator

variable (e : Enumerator)

/-- The tokens of the value, if there is one. -/
def valueTokens : List Token :=
  (e.value?.map EnumeratorValue.tokens).getD []

/-- The tokens of a name with its value. -/
def tokens : List Token :=
  e.directives ++ e.name :: e.valueTokens

/-- What is read. -/
def case : EnumCase :=
  ⟨e.name.value, e.value?.map EnumeratorValue.text⟩

lemma toNextCase_directives {ds : List Token}
    (h : ∀ t ∈ ds, t.kind = .directive) (ts : List Token) :
    toNextCase (ds ++ ts) = toNextCase ts := by
  induction ds with
  | nil => rfl
  | cons d ds ih =>
      obtain ⟨hd, hds⟩ := List.forall_mem_cons.mp h
      rw [List.cons_append, toNextCase, if_neg (by simp [hd]), ih hds]

/-- What follows a value and the comma behind it. -/
def behindComma (ts : List Token) : List Token :=
  if headIs .comma ts then ts.tail else ts

/-- A name is read with its value, and with the comma behind it. -/
theorem result_enumCase {stop : Token} (hstop : stop.kind ∈ valueStops)
    (rest : List Token) :
    enumCase.result (e.tokens ++ stop :: rest)
      = (.ok (some e.case), behindComma (stop :: rest)) := by
  have hskip : toNextCase (e.tokens ++ stop :: rest)
      = e.name :: (e.valueTokens ++ stop :: rest) := by
    rw [tokens, List.append_assoc, toNextCase_directives e.directives_kind,
      List.cons_append, toNextCase, if_pos (.inr (.inl e.name_kind))]
  have hcomma : ∀ value? : Option String,
      (accept .comma >>= fun _ => pure (some (EnumCase.mk e.name.value value?))
        : Production (Option EnumCase)).result (stop :: rest)
        = (.ok (some ⟨e.name.value, value?⟩), behindComma (stop :: rest)) := by
    intro value?
    rw [behindComma]
    cases hhead : headIs .comma (stop :: rest) with
    | true =>
        rw [result_bind_of_ok (result_accept_of_headIs hhead), result_pure,
          if_pos rfl]
    | false =>
        rw [result_bind_of_ok (result_accept_of_not_headIs hhead),
          result_pure, if_neg Bool.false_ne_true]
  rw [enumCase, result_bind_of_ok (result_skip _ _), hskip,
    result_bind_of_ok (result_identifier?_cons e.name_kind _)]
  dsimp only
  rw [valueTokens, case]
  cases e.value? with
  | none =>
      have hhead : headIs .equals (stop :: rest) = false := by
        have hin : headIn valueStops (stop :: rest) = true := by
          simpa using hstop
        exact headIs_eq_false hin (by decide)
      rw [Option.map_none, Option.map_none, Option.getD_none, List.nil_append,
        result_bind_of_ok (result_accept_of_not_headIs hhead)]
      exact hcomma none
  | some v =>
      have hhead : headIs .equals (v.tokens ++ stop :: rest) = true := by
        simp [EnumeratorValue.tokens, v.equals_kind]
      have hread : (some <$> scan enumValue).result
          (v.expression ++ stop :: rest)
          = (.ok (some v.text), stop :: rest) := by
        have htokens : expressionTokens [.comma, .closeBrace] 0
            (v.expression ++ stop :: rest) = (v.kept, stop :: rest) :=
          expressionTokens_append v.nested v.inside hstop rest
        show (scan enumValue >>= fun value => pure (some value)).result _ = _
        rw [result_bind_of_ok (result_scan _ _), result_pure, enumValue,
          htokens]
        rfl
      rw [Option.map_some, Option.map_some, Option.getD_some,
        result_bind_of_ok (result_accept_of_headIs hhead), if_pos rfl]
      exact (result_bind_of_ok hread).trans (hcomma (some v.text))

end Enumerator

/-! ### Rows of enumerators -/

/-- The tokens between the braces of an enumeration: names with their
values, with commas between them.  A comma and directives may stand behind
the last one. -/
inductive EnumRow : List Enumerator → List Token → Prop
  | nil {ds : List Token} (h : ∀ t ∈ ds, t.kind = .directive) :
      EnumRow [] ds
  | last (e : Enumerator) : EnumRow [e] e.tokens
  | cons (e : Enumerator) {comma : Token} {es : List Enumerator}
      {row : List Token} (hc : comma.kind = .comma) (h : EnumRow es row) :
      EnumRow (e :: es) (e.tokens ++ comma :: row)

variable {close : Token}

/-- Nothing more is read where only directives are left. -/
lemma result_enumCase_none {ds : List Token}
    (h : ∀ t ∈ ds, t.kind = .directive) (hclose : close.kind = .closeBrace)
    (rest : List Token) :
    enumCase.result (ds ++ close :: rest) = (.ok none, close :: rest) := by
  rw [enumCase, result_bind_of_ok (result_skip _ _),
    Enumerator.toNextCase_directives h, toNextCase, if_pos (by simp [hclose])]
  have hhead : headIs .identifier (close :: rest) = false := by
    simp [hclose]
  rw [identifier?, result_bind, result_bind_of_ok (result_look _ _), hhead]
  rfl

/-- One case is read for each name of a row. -/
theorem EnumRow.result_repeated {es : List Enumerator} {row : List Token}
    (h : EnumRow es row) (hclose : close.kind = .closeBrace)
    (rest : List Token) :
    (repeated enumCase).result (row ++ close :: rest)
      = (.ok (es.map Enumerator.case), close :: rest) := by
  have hmoves := onward_moves_enumCase.2
  have hstop : close.kind ∈ valueStops := by simp [hclose, valueStops]
  induction h with
  | nil hds =>
      exact result_repeated_of_none (result_enumCase_none hds hclose rest)
  | last e =>
      have hbehind : Enumerator.behindComma (close :: rest)
          = close :: rest := by
        simp [Enumerator.behindComma, hclose]
      have hnone : ∀ t ∈ ([] : List Token), t.kind = .directive := by simp
      have hend : (repeated enumCase).result (close :: rest)
          = (.ok [], close :: rest) :=
        result_repeated_of_none (result_enumCase_none hnone hclose rest)
      have hfirst := e.result_enumCase hstop rest
      rw [hbehind] at hfirst
      rw [hmoves.result_repeated hfirst, hend]
      rfl
  | @cons e comma es row hc _ ih =>
      have hcomma : comma.kind ∈ valueStops := by simp [hc, valueStops]
      have hfirst := e.result_enumCase hcomma (row ++ close :: rest)
      have hbehind : Enumerator.behindComma (comma :: (row ++ close :: rest))
          = row ++ close :: rest := by
        simp [Enumerator.behindComma, hc]
      rw [hbehind] at hfirst
      rw [List.append_assoc, List.cons_append,
        hmoves.result_repeated hfirst, ih]
      rfl

/-- So is the body of an enumeration, in its braces. -/
theorem EnumRow.result_enumCases {es : List Enumerator} {row : List Token}
    (h : EnumRow es row) {opening : Token}
    (hopening : opening.kind = .openBrace)
    (hclose : close.kind = .closeBrace) (rest : List Token) :
    enumCases.result (opening :: (row ++ close :: rest))
      = (.ok (es.map Enumerator.case), rest) := by
  have hhead : headIs .openBrace (opening :: (row ++ close :: rest))
      = true := by simp [hopening]
  rw [enumCases, result_bind_of_ok (result_accept_of_headIs hhead),
    if_pos rfl, List.tail_cons,
    result_bind_of_ok (h.result_repeated hclose rest),
    result_bind_of_ok (result_expect_cons hclose (by decide) _ rest),
    result_pure]

/-! ### Values that are kept -/

/-- No token of the value is quoted. -/
def EnumeratorValue.Unquoted (v : EnumeratorValue) : Prop :=
  ∀ t ∈ v.expression, t.kind ∉ [TokenKind.string, .char]

instance (v : EnumeratorValue) : Decidable v.Unquoted :=
  inferInstanceAs (Decidable (∀ t ∈ _, _))

/-- The value of an enumerator stands in the row. -/
lemma EnumRow.exists_append {es : List Enumerator} {row : List Token}
    (h : EnumRow es row) {e : Enumerator} (he : e ∈ es) {v : EnumeratorValue}
    (hv : e.value? = some v) :
    ∃ before after, row = before ++ (v.expression ++ after) := by
  have htokens : e.tokens
      = (e.directives ++ [e.name, v.equals]) ++ v.expression := by
    simp [Enumerator.tokens, Enumerator.valueTokens, hv,
      EnumeratorValue.tokens]
  induction h with
  | nil => exact absurd he List.not_mem_nil
  | last e =>
      rw [List.mem_singleton.mp he] at htokens
      exact ⟨_, [], by rw [List.append_nil, htokens]⟩
  | @cons d comma es row hc _ ih =>
      rcases List.mem_cons.mp he with rfl | he
      · exact ⟨_, comma :: row, by rw [htokens, List.append_assoc]⟩
      · obtain ⟨before, after, rfl⟩ := ih he
        exact ⟨d.tokens ++ comma :: before, after, by simp⟩

/-- What is read of an enumerator keeps its name and has a value exactly if
it has one; and the text of a value without quoted tokens has the tokens of
that value again, but for directives. -/
def Enumerator.IsKept (rules : MacroRules) (e : Enumerator) (c : EnumCase) :
    Prop :=
  c.name = e.name.value ∧ c.value?.isSome = e.value?.isSome
    ∧ ∀ v ∈ e.value?, ∀ text ∈ c.value?, v.Unquoted →
      (tokenize rules text).map Token.face
        = v.kept.map Token.face ++ [(.endOfInput, "")]

/-- The value of an enumerator of a text is laid out in its text. -/
theorem EnumRow.laid_text {rules : MacroRules} {text : String}
    {before after row : List Token} {es : List Enumerator}
    (hrow : EnumRow es row)
    (htext : tokenize rules text = before ++ (row ++ close :: after))
    (hclose : close.kind ≠ .endOfInput) {e : Enumerator} (he : e ∈ es)
    {v : EnumeratorValue} (hv : e.value? = some v) (hplain : v.Unquoted) :
    Laid rules (v.kept.map Token.face) v.text.toList := by
  obtain ⟨front, behind, rfl⟩ := hrow.exists_append he hv
  obtain ⟨fs, hfs⟩ := exists_facesOf_eq
    (htext.trans (List.append_assoc before _ (close :: after)).symm) hclose
  have hfaces : facesOf rules text.toList
      = (before ++ front).map Token.face ++ (v.expression.map Token.face
        ++ (behind.map Token.face ++ close.face :: fs)) := by
    simp [hfs]
  have hkept : v.kept.map Token.face
      = (v.expression.map Token.face).filter (·.1 ≠ .directive) := by
    rw [EnumeratorValue.kept, List.filter_map]
    rfl
  refine laid_joinExpression ?_
  rw [hkept]
  refine legible_of_facesOf_eq hfaces (by simp) fun f hf => ?_
  obtain ⟨t, ht, rfl⟩ := List.mem_map.mp hf
  exact hplain t ht

/-- **The names and values of an enumeration are kept.**  Of the names
between braces in a text, with commas between them, each is read in its
place, with a value exactly if it has one; and reading the text of a value
gives the tokens of that value. -/
theorem enumCases_kept {rules : MacroRules} {text : String}
    {before after row : List Token} {opening close : Token}
    {es : List Enumerator} (hrow : EnumRow es row)
    (htext : tokenize rules text
      = before ++ opening :: (row ++ close :: after))
    (hopening : opening.kind = .openBrace)
    (hclose : close.kind = .closeBrace) :
    ∃ cases, enumCases.result (opening :: (row ++ close :: after))
        = (.ok cases, after)
      ∧ List.Forall₂ (Enumerator.IsKept rules) es cases := by
  refine ⟨_, hrow.result_enumCases hopening hclose after, ?_⟩
  rw [List.forall₂_map_right_iff, List.forall₂_same]
  intro e he
  refine ⟨rfl, by rw [Enumerator.case, Option.isSome_map], ?_⟩
  intro v hv value hvalue hplain
  have hlaid := hrow.laid_text
    (htext.trans (List.append_cons before opening _)) (by simp [hclose]) he hv
    hplain
  rw [Enumerator.case, hv, Option.map_some, Option.mem_def,
    Option.some.injEq] at hvalue
  rw [map_face_tokenize, ← hvalue, hlaid.facesOf_eq]

/-- A mask with a shift and two signs in it. -/
def redMask : EnumeratorValue where
  equals := ⟨.equals, "=", 1, 14⟩
  expression := [⟨.tilde, "~", 1, 16⟩, ⟨.openParen, "(", 1, 17⟩,
    ⟨.number, "1u", 1, 18⟩, ⟨.openAngle, "<", 1, 21⟩,
    ⟨.openAngle, "<", 1, 22⟩, ⟨.number, "2", 1, 24⟩,
    ⟨.closeParen, ")", 1, 25⟩, ⟨.pipe, "|", 1, 27⟩, ⟨.minus, "-", 1, 29⟩,
    ⟨.number, "8", 1, 30⟩]

/-- A name with that mask. -/
def red : Enumerator where
  name := ⟨.identifier, "Red", 1, 10⟩
  value? := some redMask

/-- A name without a value, behind a directive. -/
def green : Enumerator where
  directives := [⟨.directive, "#if A", 2, 1⟩]
  name := ⟨.identifier, "Green", 3, 1⟩

theorem enumCases_kept_palette :
    tokenize {} "enum E \x7b Red = ~(1u << 2) | -8,\n#if A\nGreen, \x7d;"
        = [⟨.kwEnum, "enum", 1, 1⟩, ⟨.identifier, "E", 1, 6⟩]
          ++ ⟨.openBrace, "\x7b", 1, 8⟩ :: (red.tokens
            ++ ⟨.comma, ",", 1, 31⟩ :: (green.tokens
              ++ [⟨.comma, ",", 3, 6⟩]) ++ ⟨.closeBrace, "\x7d", 3, 8⟩
          :: [⟨.semicolon, ";", 3, 9⟩, ⟨.endOfInput, "", 3, 10⟩])
      ∧ ∃ cases, enumCases.result (⟨.openBrace, "\x7b", 1, 8⟩
            :: (red.tokens ++ ⟨.comma, ",", 1, 31⟩ :: (green.tokens
              ++ [⟨.comma, ",", 3, 6⟩]) ++ ⟨.closeBrace, "\x7d", 3, 8⟩
            :: [⟨.semicolon, ";", 3, 9⟩, ⟨.endOfInput, "", 3, 10⟩]))
          = (.ok cases, [⟨.semicolon, ";", 3, 9⟩, ⟨.endOfInput, "", 3, 10⟩])
        ∧ List.Forall₂ (Enumerator.IsKept {}) [red, green] cases := by
  have hrow : EnumRow [red, green] (red.tokens ++ ⟨.comma, ",", 1, 31⟩
      :: (green.tokens ++ [⟨.comma, ",", 3, 6⟩])) :=
    .cons red rfl (.cons green rfl (.nil (by simp)))
  have htext : tokenize {}
      "enum E \x7b Red = ~(1u << 2) | -8,\n#if A\nGreen, \x7d;"
        = [⟨.kwEnum, "enum", 1, 1⟩, ⟨.identifier, "E", 1, 6⟩]
          ++ ⟨.openBrace, "\x7b", 1, 8⟩ :: (red.tokens
            ++ ⟨.comma, ",", 1, 31⟩ :: (green.tokens
              ++ [⟨.comma, ",", 3, 6⟩]) ++ ⟨.closeBrace, "\x7d", 3, 8⟩
          :: [⟨.semicolon, ";", 3, 9⟩, ⟨.endOfInput, "", 3, 10⟩]) := by
    decide +kernel
  exact ⟨htext, enumCases_kept hrow htext rfl rfl⟩

/-- What is read of an enumerator keeps all of its value, with directives
and quoted tokens. -/
def Enumerator.IsVerbatim (rules : MacroRules) (e : Enumerator)
    (c : EnumCase) : Prop :=
  c.name = e.name.value ∧ c.value?.isSome = e.value?.isSome
    ∧ ∀ v ∈ e.value?, ∀ text ∈ c.value?,
      (tokenize rules text).map Token.face
        = v.expression.map Token.face ++ [(.endOfInput, "")]

/-- A value with a directive in its parentheses. -/
def guarded : Enumerator where
  name := ⟨.identifier, "A", 1, 10⟩
  value? := some {
    equals := ⟨.equals, "=", 1, 12⟩
    expression := [⟨.openParen, "(", 1, 14⟩, ⟨.number, "1", 1, 15⟩,
      ⟨.directive, "#if B", 2, 1⟩, ⟨.closeParen, ")", 3, 1⟩] }

/-- A value that is a character. -/
def letter : Enumerator where
  name := ⟨.identifier, "A", 1, 10⟩
  value? := some {
    equals := ⟨.equals, "=", 1, 12⟩
    expression := [⟨.char, "x", 1, 14⟩] }

/-- A directive is left out of a value, and a character loses its
quotes. -/
theorem not_isVerbatim_guarded_letter :
    ((tokenize {} "enum E \x7b A = (1\n#if B\n) \x7d;").drop 2
          = ⟨.openBrace, "\x7b", 1, 8⟩ :: (guarded.tokens
            ++ ⟨.closeBrace, "\x7d", 3, 3⟩
              :: [⟨.semicolon, ";", 3, 4⟩, ⟨.endOfInput, "", 3, 5⟩])
        ∧ enumCases.result
            ((tokenize {} "enum E \x7b A = (1\n#if B\n) \x7d;").drop 2)
          = (.ok [⟨"A", some "(1)"⟩],
            [⟨.semicolon, ";", 3, 4⟩, ⟨.endOfInput, "", 3, 5⟩])
        ∧ ¬ guarded.IsVerbatim {} ⟨"A", some "(1)"⟩)
      ∧ (tokenize {} "enum E \x7b A = 'x' \x7d;").drop 2
          = ⟨.openBrace, "\x7b", 1, 8⟩ :: (letter.tokens
            ++ ⟨.closeBrace, "\x7d", 1, 18⟩
              :: [⟨.semicolon, ";", 1, 19⟩, ⟨.endOfInput, "", 1, 20⟩])
        ∧ enumCases.result ((tokenize {} "enum E \x7b A = 'x' \x7d;").drop 2)
          = (.ok [⟨"A", some "x"⟩],
            [⟨.semicolon, ";", 1, 19⟩, ⟨.endOfInput, "", 1, 20⟩])
        ∧ ¬ letter.IsVerbatim {} ⟨"A", some "x"⟩ := by
  have hguarded : guarded.case = ⟨"A", some "(1)"⟩ := by decide +kernel
  have hletter : letter.case = ⟨"A", some "x"⟩ := by decide +kernel
  refine ⟨?_, ?_⟩
  · have htext : (tokenize {} "enum E \x7b A = (1\n#if B\n) \x7d;").drop 2
        = ⟨.openBrace, "\x7b", 1, 8⟩ :: (guarded.tokens
          ++ ⟨.closeBrace, "\x7d", 3, 3⟩
            :: [⟨.semicolon, ";", 3, 4⟩, ⟨.endOfInput, "", 3, 5⟩]) := by
      decide +kernel
    refine ⟨htext, ?_, fun h => ?_⟩
    · rw [htext, (EnumRow.last guarded).result_enumCases rfl rfl, ← hguarded]
      rfl
    · exact absurd (h.2.2 _ rfl _ rfl) (by decide +kernel)
  · have htext : (tokenize {} "enum E \x7b A = 'x' \x7d;").drop 2
        = ⟨.openBrace, "\x7b", 1, 8⟩ :: (letter.tokens
          ++ ⟨.closeBrace, "\x7d", 1, 18⟩
            :: [⟨.semicolon, ";", 1, 19⟩, ⟨.endOfInput, "", 1, 20⟩]) := by
      decide +kernel
    refine ⟨htext, ?_, fun h => ?_⟩
    · rw [htext, (EnumRow.last letter).result_enumCases rfl rfl, ← hletter]
      rfl
    · exact absurd (h.2.2 _ rfl _ rfl) (by decide +kernel)

end HeaderBinding
