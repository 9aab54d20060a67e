/-
Cutting a header text into lexemes.  A lexeme is a stretch of the text
that is read in one step: white space, a comment, a word that is left out,
or a token.  Nothing is lost, and each step reads at least one character.

* `readLexeme`: the first lexeme of a non-empty text and what follows it;
* `readLexeme_append`: the two make up the text;
* `readLexeme_raw_ne_nil`: the lexeme is not empty;
* `lexemes`: all lexemes of a text;
* `lexemes_flatMap`: together they are the text.
-/
import HeaderBinding.Token.Basic
import HeaderBinding.Token.MacroRules

namespace HeaderBinding

/-- A stretch of text read in one step, with the token it makes, if
any. -/
structure Lexeme where
  raw : List Char
  token? : Option (TokenKind × String) := none
deriving DecidableEq, Repr

/-! ### Comments -/

/-- The rest of a block comment, up to and with its end, and what
follows. -/
def readBlockComment : List Char → List Char × List Char
  | [] => ([], [])
  | '*' :: '/' :: cs => (['*', '/'], cs)
  | c :: cs =>
    let r := readBlockComment cs
    (c :: r.1, r.2)

theorem readBlockComment_append (cs : List Char) :
    (readBlockComment cs).1 ++ (readBlockComment cs).2 = cs := by
  fun_induction readBlockComment cs <;> simp_all +zetaDelta

/-! ### Quoted text -/

/-- Quoted text after its opening quote. -/
structure QuotedRest where
  /-- What stands before the closing quote. -/
  body : List Char
  /-- The closing quote, unless the text ends first. -/
  close : List Char
  rest : List Char

/-- Quoted text is read up to the next quote that no backslash
precedes. -/
def readQuoted (quote : Char) : List Char → QuotedRest
  | [] => ⟨[], [], []⟩
  | [c] => if c = quote then ⟨[], [c], []⟩ else ⟨[c], [], []⟩
  | c :: d :: cs =>
    if c = quote then ⟨[], [c], d :: cs⟩
    else if c = '\\' then
      let r := readQuoted quote cs
      { r with body := c :: d :: r.body }
    else
      let r := readQuoted quote (d :: cs)
      { r with body := c :: r.body }

theorem readQuoted_append (quote : Char) (cs : List Char) :
    (readQuoted quote cs).body ++ (readQuoted quote cs).close
      ++ (readQuoted quote cs).rest = cs := by
  fun_induction readQuoted quote cs <;> simp_all +zetaDelta

/-! ### Directives -/

/-- A directive: the text it spans, the text it carries, and the rest. -/
structure DirectiveRest where
  raw : List Char
  body : List Char
  rest : List Char

/-- A directive goes to the end of its line; a backslash before the line
break continues it and both are left out. -/
def readDirective : List Char → DirectiveRest
  | [] => ⟨[], [], []⟩
  | '\n' :: cs => ⟨[], [], '\n' :: cs⟩
  | '\\' :: '\n' :: cs =>
    let r := readDirective cs
    { r with raw := '\\' :: '\n' :: r.raw }
  | '\\' :: '\r' :: '\n' :: cs =>
    let r := readDirective cs
    { r with raw := '\\' :: '\r' :: '\n' :: r.raw }
  | c :: cs =>
    let r := readDirective cs
    { r with raw := c :: r.raw, body := c :: r.body }

theorem readDirective_append (cs : List Char) :
    (readDirective cs).raw ++ (readDirective cs).rest = cs := by
  fun_induction readDirective cs <;> simp_all +zetaDelta

/-- The text of a directive without the carriage returns at its end. -/
def directiveText (body : List Char) : String :=
  String.ofList (body.reverse.dropWhile (· == '\r')).reverse

/-! ### Numbers -/

/-- A suffix letter of a number. -/
def isNumberSuffix (c : Char) : Bool :=
  ['u', 'U', 'l', 'L', 'f', 'F'].contains c

/-- A hexadecimal digit. -/
def isHexDigit (c : Char) : Bool :=
  c.isDigit || ('a' ≤ c && c ≤ 'f') || ('A' ≤ c && c ≤ 'F')

/-- A digit, or a point between digits. -/
def isNumberPart (c : Char) : Bool :=
  isDigit c || c == '.'

/-- The digits of a number with the points between them, or a hexadecimal
number, without its suffix. -/
def readDigits : List Char → List Char × List Char
  | '0' :: x :: cs =>
    if x = 'x' ∨ x = 'X' then
      ('0' :: x :: cs.takeWhile isHexDigit, cs.dropWhile isHexDigit)
    else
      (('0' :: x :: cs).takeWhile isNumberPart,
        ('0' :: x :: cs).dropWhile isNumberPart)
  | cs => (cs.takeWhile isNumberPart, cs.dropWhile isNumberPart)

theorem readDigits_append (cs : List Char) :
    (readDigits cs).1 ++ (readDigits cs).2 = cs := by
  fun_cases readDigits cs <;> simp_all

/-- A number with its suffix letters. -/
def readNumber (cs : List Char) : List Char × List Char :=
  let r := readDigits cs
  (r.1 ++ r.2.takeWhile isNumberSuffix, r.2.dropWhile isNumberSuffix)

theorem readNumber_append (cs : List Char) :
    (readNumber cs).1 ++ (readNumber cs).2 = cs := by
  simp [readNumber, readDigits_append]

/-! ### Macro arguments -/

/-- The rest of a parenthesised group, `depth` parentheses deep. -/
def readGroup : Nat → List Char → List Char × List Char
  | 0, cs => ([], cs)
  | _ + 1, [] => ([], [])
  | depth + 1, c :: cs =>
    let r := readGroup
      (if c = '(' then depth + 2 else if c = ')' then depth else depth + 1)
      cs
    (c :: r.1, r.2)

theorem readGroup_append (depth : Nat) (cs : List Char) :
    (readGroup depth cs).1 ++ (readGroup depth cs).2 = cs := by
  fun_induction readGroup depth cs <;> simp_all +zetaDelta

/-- The arguments of a macro, if a parenthesis follows, with the blanks
before it. -/
def readArguments (cs : List Char) : List Char × List Char :=
  match cs.dropWhile isBlank with
  | '(' :: rest =>
    let r := readGroup 1 rest
    (cs.takeWhile isBlank ++ '(' :: r.1, r.2)
  | _ => ([], cs)

theorem readArguments_append (cs : List Char) :
    (readArguments cs).1 ++ (readArguments cs).2 = cs := by
  unfold readArguments
  split
  · rename_i rest h
    rw [List.append_assoc, List.cons_append, readGroup_append, ← h,
      List.takeWhile_append_dropWhile]
  · simp

/-! ### Words -/

/-- The word is left out together with its arguments. -/
def skipsArguments (rules : MacroRules) (word : String) : Bool :=
  rules.skipNames.contains word || word == "__attribute__"

/-- What a word is: kept as a token, left out, or left out with the
arguments that follow. -/
inductive WordRole
  | keep (kind : TokenKind)
  | drop
  | dropWithArguments
deriving DecidableEq, Repr

/-- The first rule that applies decides. -/
def wordRole (rules : MacroRules) (word : String) : WordRole :=
  if skipsArguments rules word then .dropWithArguments
  else if droppedWords.contains word then .drop
  else if rules.isExternMacro word then .keep .kwExtern
  else if saysInitUnavailable word then .keep .identifier
  else if rules.isLikelyMacro word then .dropWithArguments
  else .keep (wordKind word)

/-- A word and, if it is left out with them, its arguments. -/
def readWord (rules : MacroRules) (cs : List Char) :
    Lexeme × List Char :=
  let raw := cs.takeWhile isWordChar
  let rest := cs.dropWhile isWordChar
  let word := String.ofList raw
  match wordRole rules word with
  | .keep kind => (⟨raw, some (kind, word)⟩, rest)
  | .drop => (⟨raw, none⟩, rest)
  | .dropWithArguments =>
    let args := readArguments rest
    (⟨raw ++ args.1, none⟩, args.2)

theorem readWord_append (rules : MacroRules) (cs : List Char) :
    (readWord rules cs).1.raw ++ (readWord rules cs).2 = cs := by
  simp only [readWord]
  split <;> simp [readArguments_append]

/-! ### One lexeme -/

/-- Quoted text with its opening quote, which `before` precedes. -/
def quotedLexeme (kind : TokenKind) (before : List Char) (quote : Char)
    (cs : List Char) : Lexeme × List Char :=
  let r := readQuoted quote cs
  (⟨before ++ quote :: (r.body ++ r.close),
    some (kind, String.ofList r.body)⟩, r.rest)

/-- What an at sign starts: a string, a keyword or a marked identifier,
or nothing. -/
def readAt (cs : List Char) : Lexeme × List Char :=
  match cs with
  | [] => (⟨['@'], some (.unknown, "@")⟩, [])
  | d :: ds =>
    if d = '"' then quotedLexeme .string ['@'] '"' ds
    else if isNameStart d then
      let word := (d :: ds).takeWhile isWordChar
      let kind := (atKeyword? (String.ofList word)).getD .identifier
      (⟨'@' :: word, some (kind, String.ofList ('@' :: word))⟩,
        (d :: ds).dropWhile isWordChar)
    else (⟨['@'], some (.unknown, "@")⟩, d :: ds)

/-- Three points, or one character that stands alone. -/
def readPunctuation (c : Char) (cs : List Char) : Lexeme × List Char :=
  match c, cs with
  | '.', '.' :: '.' :: rest =>
    (⟨['.', '.', '.'], some (.ellipsis, "...")⟩, rest)
  | _, _ =>
    (⟨[c], some (punctuationKind c, String.singleton c)⟩, cs)

/-- The first lexeme of the text `c :: cs`, and what follows it. -/
def readLexeme (rules : MacroRules) (c : Char) (cs : List Char) :
    Lexeme × List Char :=
  if isBlank c then (⟨c :: cs.takeWhile isBlank, none⟩, cs.dropWhile isBlank)
  else if c = '/' ∧ cs.head? = some '/' then
    (⟨c :: cs.takeWhile (· ≠ '\n'), none⟩, cs.dropWhile (· ≠ '\n'))
  else if c = '/' ∧ cs.head? = some '*' then
    let r := readBlockComment cs.tail
    (⟨'/' :: '*' :: r.1, none⟩, r.2)
  else if c = '#' then
    let r := readDirective (c :: cs)
    (⟨r.raw, some (.directive, directiveText r.body)⟩, r.rest)
  else if c = '@' then readAt cs
  else if c = '"' then quotedLexeme .string [] '"' cs
  else if c = '\'' ∧ 2 ≤ cs.length then quotedLexeme .char [] '\'' cs
  else if isDigit c ∨ (c = '.' ∧ cs.head?.any isDigit) then
    let r := readNumber (c :: cs)
    (⟨r.1, some (.number, String.ofList r.1)⟩, r.2)
  else if isNameStart c then readWord rules (c :: cs)
  else readPunctuation c cs

theorem readLexeme_blank (rules : MacroRules) {c : Char}
    (hc : isBlank c = true) (cs : List Char) :
    readLexeme rules c cs
      = (⟨c :: cs.takeWhile isBlank, none⟩, cs.dropWhile isBlank) :=
  if_pos hc

theorem readAt_append (cs : List Char) :
    (readAt cs).1.raw ++ (readAt cs).2 = '@' :: cs := by
  cases cs with
  | nil => rfl
  | cons d ds =>
    simp only [readAt]
    split
    · rename_i h
      subst h
      have := readQuoted_append '"' ds
      simp only [quotedLexeme]
      simp_all
    · split <;> simp

theorem readPunctuation_append (c : Char) (cs : List Char) :
    (readPunctuation c cs).1.raw ++ (readPunctuation c cs).2 = c :: cs := by
  fun_cases readPunctuation c cs <;> simp_all

theorem quotedLexeme_append (kind : TokenKind) (quote : Char)
    (cs : List Char) :
    (quotedLexeme kind [] quote cs).1.raw
      ++ (quotedLexeme kind [] quote cs).2 = quote :: cs := by
  have := readQuoted_append quote cs
  simp only [quotedLexeme]
  simp_all

/-- The lexeme and what follows it make up the text. -/
theorem readLexeme_append (rules : MacroRules) (c : Char)
    (cs : List Char) :
    (readLexeme rules c cs).1.raw ++ (readLexeme rules c cs).2
      = c :: cs := by
  simp only [readLexeme]
  split
  · simp
  split
  · simp
  split
  · rename_i h
    obtain ⟨hc, hd⟩ := h
    cases cs with
    | nil => simp at hd
    | cons d ds =>
      have := readBlockComment_append ds
      simp_all
  split
  · exact readDirective_append (c :: cs)
  split
  · rename_i h
    exact h ▸ readAt_append cs
  split
  · rename_i h
    exact h ▸ quotedLexeme_append .string '"' cs
  split
  · rename_i h
    exact h.1 ▸ quotedLexeme_append .char '\'' cs
  split
  · exact readNumber_append (c :: cs)
  split
  · exact readWord_append rules (c :: cs)
  · exact readPunctuation_append c cs

theorem takeWhile_cons_ne_nil {p : Char → Bool} {c : Char}
    (cs : List Char) (h : p c = true) : (c :: cs).takeWhile p ≠ [] := by
  simp [h]

theorem readDigits_ne_nil {c : Char} (cs : List Char)
    (h : isDigit c = true ∨ c = '.') : (readDigits (c :: cs)).1 ≠ [] := by
  unfold readDigits
  split
  · split
    · simp
    · simp [show isNumberPart '0' = true by decide]
  · exact takeWhile_cons_ne_nil _ (by simpa [isNumberPart] using h)

theorem readDirective_raw_ne_nil (cs : List Char) :
    (readDirective ('#' :: cs)).raw ≠ [] := by
  simp [readDirective]

theorem isWordChar_of_isNameStart {c : Char} (h : isNameStart c = true) :
    isWordChar c = true := by
  simp [isNameStart, isWordChar] at *
  simp [h]

theorem readWord_raw_ne_nil (rules : MacroRules) {c : Char}
    (cs : List Char) (h : isNameStart c = true) :
    (readWord rules (c :: cs)).1.raw ≠ [] := by
  have := takeWhile_cons_ne_nil cs (isWordChar_of_isNameStart h)
  simp only [readWord]
  split <;> simp [isWordChar_of_isNameStart h]

theorem readAt_raw_ne_nil (cs : List Char) : (readAt cs).1.raw ≠ [] := by
  cases cs with
  | nil => simp [readAt]
  | cons d ds =>
    simp only [readAt]
    split
    · simp [quotedLexeme]
    · split <;> simp

theorem readPunctuation_raw_ne_nil (c : Char) (cs : List Char) :
    (readPunctuation c cs).1.raw ≠ [] := by
  fun_cases readPunctuation c cs <;> simp

/-- A lexeme is never empty. -/
theorem readLexeme_raw_ne_nil (rules : MacroRules) (c : Char)
    (cs : List Char) : (readLexeme rules c cs).1.raw ≠ [] := by
  simp only [readLexeme]
  split
  · simp
  split
  · simp
  split
  · simp
  split
  · rename_i h
    exact h ▸ readDirective_raw_ne_nil cs
  split
  · exact readAt_raw_ne_nil cs
  split
  · simp [quotedLexeme]
  split
  · simp [quotedLexeme]
  split
  · rename_i h
    have hc : isDigit c = true ∨ c = '.' := h.imp_right And.left
    simp [readNumber, readDigits_ne_nil cs hc]
  split
  · rename_i h
    exact readWord_raw_ne_nil rules cs h
  · exact readPunctuation_raw_ne_nil c cs

/-- What follows a lexeme is shorter than the text. -/
theorem length_readLexeme_lt (rules : MacroRules) (c : Char)
    (cs : List Char) : (readLexeme rules c cs).2.length < cs.length + 1 := by
  have happ := congrArg List.length (readLexeme_append rules c cs)
  have hne := List.length_pos_iff.mpr (readLexeme_raw_ne_nil rules c cs)
  simp only [List.length_append, List.length_cons] at happ
  omega

/-! ### The whole text -/

/-- The lexemes of a text, from left to right. -/
def lexemes (rules : MacroRules) : List Char → List Lexeme
  | [] => []
  | c :: cs =>
    (readLexeme rules c cs).1 :: lexemes rules (readLexeme rules c cs).2
termination_by cs => cs.length
decreasing_by exact length_readLexeme_lt rules c cs

/-- The lexemes of a text, put together, are the text. -/
theorem lexemes_flatMap (rules : MacroRules) (cs : List Char) :
    (lexemes rules cs).flatMap Lexeme.raw = cs := by
  fun_induction lexemes rules cs with
  | case1 => rfl
  | case2 c cs ih =>
    rw [List.flatMap_cons, ih, readLexeme_append]

end HeaderBinding
