/-
The tokens of a text that is written behind another one.

* `readLexeme_followed`: where a lexeme leaves a semicolon over, it is the
  same lexeme when more text follows;
* `lexemes_append`: a text that ends in a semicolon of its own is cut as if
  nothing followed, and what follows as if nothing came before;
* `Position.after_injective`: two offsets of a text have different places;
* `Token.behind`: a token in a text that another one comes before;
* `EndsInSemicolon`: the last token is the semicolon at the end of the text;
* `tokenize_append`: behind such a text the tokens of another one are its
  own, moved on.
-/
import Mathlib.Data.List.Basic
import HeaderBinding.Proofs.Token.Seam

namespace HeaderBinding

/-! ### Lexemes that leave something over -/

/-- What follows a text with a semicolon in it does not matter to a lexeme
in front of it. -/
lemma seam_of_semicolon {rest : List Char} (h : ';' ∈ rest)
    (bs : List Char) : Seam rest (rest ++ bs) where
  ne_nil := List.ne_nil_of_mem h
  head := .inl (by
    obtain ⟨r, rest, rfl⟩ := List.exists_cons_of_ne_nil (List.ne_nil_of_mem h)
    rfl)
  group := by
    have hne : rest.dropWhile isBlank ≠ [] := by
      intro hnil
      exact absurd (List.dropWhile_eq_nil_iff.mp hnil _ h) (by decide)
    rw [List.dropWhile_append, if_neg (by simpa using hne)]
    obtain ⟨r, rs, hrs⟩ := List.exists_cons_of_ne_nil hne
    rw [hrs]
    exact id
  points := by
    rcases rest with - | ⟨r, - | ⟨s, rest⟩⟩
    · cases h
    · obtain rfl := List.mem_singleton.mp h
      exact fun hp => absurd (List.cons_prefix_cons.mp hp).1 (by decide)
    · intro hp
      simpa using hp

/-- A lexeme that leaves a semicolon over is the same where more text
follows.  A quote that stands alone has to be ruled out: with more text
behind it, it opens a character. -/
theorem readLexeme_followed {rules : MacroRules} {c : Char} {cs : List Char}
    (hend : ';' ∈ (readLexeme rules c cs).2)
    (hquote : (readLexeme rules c cs).1.token? ≠ some (.unknown, "'"))
    (bs : List Char) :
    readLexeme rules c (cs ++ bs)
      = ((readLexeme rules c cs).1, (readLexeme rules c cs).2 ++ bs) := by
  have hs := seam_of_semicolon hend bs
  obtain ⟨d, ds, hraw⟩ :=
    List.exists_cons_of_ne_nil (readLexeme_raw_ne_nil rules c cs)
  have happ := readLexeme_append rules c cs
  rw [hraw, List.cons_append, List.cons.injEq] at happ
  generalize hrest : (readLexeme rules c cs).2 = rest at hs happ
  obtain ⟨rfl, rfl⟩ := happ
  have hhead : (rest ++ bs).head? = rest.head? := by
    rw [List.head?_append_of_ne_nil _ hs.ne_nil]
  rw [List.append_assoc]
  exact readLexeme_seam hs (.inr hhead) hrest hquote

/-! ### Texts that end in a semicolon -/

/-- The semicolon, read by itself. -/
def semicolon : Lexeme :=
  ⟨[';'], some (.semicolon, ";")⟩

/-- A text whose last lexeme is a semicolon is cut as if nothing followed,
and what follows as if nothing came before. -/
theorem lexemes_append {rules : MacroRules} {as : List Char}
    (hlast : (lexemes rules as).getLast? = some semicolon)
    (hquotes : ∀ l ∈ lexemes rules as, l.token? ≠ some (.unknown, "'"))
    (bs : List Char) :
    lexemes rules (as ++ bs) = lexemes rules as ++ lexemes rules bs := by
  fun_induction lexemes rules as with
  | case1 => cases hlast
  | case2 c cs ih =>
      obtain ⟨hquote, hquotes⟩ := List.forall_mem_cons.mp hquotes
      have happ := readLexeme_append rules c cs
      have hrest := lexemes_flatMap rules (readLexeme rules c cs).2
      rw [List.cons_append, lexemes]
      cases hmore : lexemes rules (readLexeme rules c cs).2 with
      | nil =>
          -- the semicolon is all of the text
          rw [hmore, List.flatMap_nil] at hrest
          rw [hmore, List.getLast?_singleton, Option.some.injEq] at hlast
          rw [← hrest, hlast, List.append_nil] at happ
          obtain ⟨rfl, rfl⟩ := List.cons.inj happ
          rw [readLexeme_mark (by decide), readLexeme_mark (by decide)]
          rfl
      | cons l ls =>
          rw [hmore, List.getLast?_cons_cons, ← hmore] at hlast
          have hend : ';' ∈ (readLexeme rules c cs).2 := by
            rw [← hrest]
            exact List.mem_flatMap_of_mem
              (List.mem_of_mem_getLast? (Option.mem_def.mpr hlast))
              (List.mem_singleton_self _)
          rw [readLexeme_followed hend hquote bs, ih hlast hquotes, hmore]
          rfl

/-- What a lexeme of a text stands for, with the lexemes behind it. -/
lemma right_of_lexemes_eq {rules : MacroRules} {cs : List Char}
    {before after : List Lexeme} {l : Lexeme}
    (h : lexemes rules cs = before ++ l :: after) :
    l.raw ≠ [] ∧ l.Right rules (after.flatMap Lexeme.raw) := by
  fun_induction lexemes rules cs generalizing before with
  | case1 => exact absurd h.symm (by simp)
  | case2 c cs ih =>
      cases before with
      | nil =>
          obtain ⟨rfl, rfl⟩ := List.cons.inj h
          rw [lexemes_flatMap]
          exact ⟨readLexeme_raw_ne_nil rules c cs,
            right_readLexeme rules c cs⟩
      | cons b before => exact ih (List.cons.inj h).2

/-! ### Places -/

/-- Some text leads to a later line, or on in the same one. -/
lemma Position.after_cases (p : Position) (cs : List Char) :
    p.line < (p.after cs).line
      ∨ p.after cs = ⟨p.line, p.column + cs.length⟩ := by
  induction cs generalizing p with
  | nil => exact .inr rfl
  | cons c cs ih =>
      have hcons : p.after (c :: cs) = (p.next c).after cs := rfl
      rw [hcons, List.length_cons]
      rcases ih (p.next c) with h | h <;> by_cases hc : c = '\n' <;>
        simp only [Position.next, hc, if_true, if_false] at h ⊢
      · omega
      · omega
      · rw [h]
        exact .inl (Nat.lt_succ_self _)
      · rw [h, Nat.add_assoc, Nat.add_comm 1]
        exact .inr rfl

/-- Two offsets of a text have different places. -/
lemma Position.after_injective (p : Position) (cs : List Char) {m n : Nat}
    (hmn : m ≤ n) (hn : n ≤ cs.length)
    (h : p.after (cs.take m) = p.after (cs.take n)) : m = n := by
  have hsplit : cs.take m ++ slice cs m n = cs.take n := by
    have := List.take_append_drop m (cs.take n)
    rwa [List.take_take, Nat.min_eq_left hmn] at this
  rw [← hsplit, Position.after_append] at h
  have hlen : (slice cs m n).length = n - m := by
    rw [slice, List.length_drop, List.length_take, Nat.min_eq_left hn]
  rcases (p.after (cs.take m)).after_cases (slice cs m n) with hlt | heq
  · rw [← h] at hlt
    exact absurd hlt (Nat.lt_irrefl _)
  · rw [heq] at h
    have := congrArg Position.column h
    simp only at this
    omega

/-- A token of a row of lexemes is its end, or stands for one of them and
is where the lexemes before it lead. -/
lemma exists_of_mem_placeTokens {p : Position} {ls : List Lexeme} {t : Token}
    (h : t ∈ placeTokens p ls) : t = endToken (p.after (ls.flatMap Lexeme.raw))
      ∨ ∃ before l after, ls = before ++ l :: after
        ∧ l.token? = some t.face
        ∧ p.after (before.flatMap Lexeme.raw) = ⟨t.line, t.column⟩ := by
  induction ls generalizing p with
  | nil => exact .inl (List.mem_singleton.mp h)
  | cons l ls ih =>
      rw [placeTokens, List.mem_append] at h
      rcases h with h | h
      · unfold Lexeme.placed at h
        split at h
        · rename_i kind value hface
          rw [List.mem_singleton] at h
          subst h
          exact .inr ⟨[], l, ls, rfl, hface, rfl⟩
        · cases h
      · rw [List.flatMap_cons, Position.after_append]
        refine (ih h).imp_right ?_
        rintro ⟨before, m, after, rfl, hface, hplace⟩
        refine ⟨l :: before, m, after, rfl, hface, ?_⟩
        rw [List.flatMap_cons, Position.after_append, hplace]

/-- A token that is at some offset, the end excepted, stands for the lexeme
that begins there. -/
lemma exists_lexemes_of_at {rules : MacroRules} {text : String} {t : Token}
    {s : Nat} (ht : t ∈ tokenize rules text) (hend : t.kind ≠ .endOfInput)
    (hat : t.At text.toList s) (hs : s ≤ text.toList.length) :
    ∃ before l after, lexemes rules text.toList = before ++ l :: after
      ∧ l.token? = some t.face
      ∧ (before.flatMap Lexeme.raw).length = s := by
  rcases exists_of_mem_placeTokens ht with rfl | hsplit
  · exact absurd rfl hend
  obtain ⟨before, l, after, hlexemes, hface, hplace⟩ := hsplit
  refine ⟨before, l, after, hlexemes, hface, ?_⟩
  have hall := lexemes_flatMap rules text.toList
  rw [hlexemes, List.flatMap_append] at hall
  have htake : text.toList.take (before.flatMap Lexeme.raw).length
      = before.flatMap Lexeme.raw := by
    rw [← hall, List.take_left]
  have hlen : (before.flatMap Lexeme.raw).length ≤ text.toList.length := by
    rw [← hall]
    exact (List.prefix_append _ _).length_le
  have hsame : Position.after {} (text.toList.take
      (before.flatMap Lexeme.raw).length)
        = Position.after {} (text.toList.take s) := by
    rw [htake, hplace, after_start, hat.line, hat.column]
  rcases Nat.le_total (before.flatMap Lexeme.raw).length s with hle | hle
  · exact Position.after_injective {} text.toList hle hs hsame
  · exact (Position.after_injective {} text.toList hle hlen hsame.symm).symm

/-- The tokens of two rows, one behind the other. -/
lemma placeTokens_append (p : Position) (ls ms : List Lexeme) :
    placeTokens p (ls ++ ms) = (placeTokens p ls).dropLast
      ++ placeTokens (p.after (ls.flatMap Lexeme.raw)) ms := by
  induction ls generalizing p with
  | nil => rfl
  | cons l ls ih =>
      rw [List.cons_append, placeTokens, placeTokens, ih,
        List.dropLast_append_of_ne_nil (placeTokens_ne_nil _ _),
        List.flatMap_cons, Position.after_append, List.append_assoc]

/-! ### Behind another text -/

/-- A place in a text that another one comes before: its line is lower by
the line breaks of that one, and in the first line the place is further
right by what that one has behind the last of them. -/
def Position.behind (before : List Char) (p : Position) : Position where
  line := p.line + before.count '\n'
  column := if p.line = 1 then
      p.column + (before.reverse.takeWhile (· ≠ '\n')).length
    else p.column

/-- A token of a text that another one comes before. -/
def Token.behind (before : List Char) (t : Token) : Token :=
  { t with
    line := (Position.behind before ⟨t.line, t.column⟩).line
    column := (Position.behind before ⟨t.line, t.column⟩).column }

lemma Position.start_behind (before : List Char) :
    Position.behind before {} = Position.after {} before := by
  rw [after_start, Position.behind, if_pos rfl]

/-- Reading on moves a place in the same way behind another text. -/
lemma Position.next_behind (before : List Char) {p : Position}
    (hp : 1 ≤ p.line) (c : Char) :
    (p.behind before).next c = (p.next c).behind before := by
  by_cases hc : c = '\n'
  · simp only [Position.next, Position.behind, hc, if_true,
      if_neg (show p.line + 1 ≠ 1 by omega), Position.mk.injEq, and_true]
    omega
  · simp only [Position.next, Position.behind, hc, if_false,
      Position.mk.injEq, true_and]
    split <;> omega

lemma Position.one_le_next {p : Position} (hp : 1 ≤ p.line) (c : Char) :
    1 ≤ (p.next c).line := by
  unfold Position.next
  split
  · exact Nat.le_add_left 1 _
  · exact hp

lemma Position.after_behind (before : List Char) {p : Position}
    (hp : 1 ≤ p.line) (cs : List Char) :
    (p.behind before).after cs = (p.after cs).behind before
      ∧ 1 ≤ (p.after cs).line := by
  induction cs generalizing p with
  | nil => exact ⟨rfl, hp⟩
  | cons c cs ih =>
      show ((p.behind before).next c).after cs = _ ∧ _
      rw [Position.next_behind before hp]
      exact ih (Position.one_le_next hp c)

/-- The tokens of a row of lexemes that is placed behind another text. -/
lemma placeTokens_behind (before : List Char) {p : Position}
    (hp : 1 ≤ p.line) (ls : List Lexeme) :
    placeTokens (p.behind before) ls
      = (placeTokens p ls).map (Token.behind before) := by
  induction ls generalizing p with
  | nil => rfl
  | cons l ls ih =>
      obtain ⟨hafter, hline⟩ := Position.after_behind before hp l.raw
      have hplaced : l.placed (p.behind before)
          = (l.placed p).map (Token.behind before) := by
        unfold Lexeme.placed
        split <;> rfl
      rw [placeTokens, placeTokens, hafter, ih hline, hplaced,
        List.map_append]

/-! ### Any two texts -/

/-- The last token of a text, its end excepted, is the semicolon that is
its last character. -/
def EndsInSemicolon (rules : MacroRules) (text : String) : Prop :=
  ∃ front t, text.toList = front ++ [';']
    ∧ (tokenize rules text).dropLast.getLast? = some t
    ∧ t.kind = .semicolon ∧ t.At text.toList front.length

/-- No token of the text is a quote that no character stands in. -/
def NoOpenQuote (rules : MacroRules) (text : String) : Prop :=
  ∀ t ∈ tokenize rules text, t.face ≠ (.unknown, "'")

instance (rules : MacroRules) (text : String) :
    Decidable (NoOpenQuote rules text) :=
  inferInstanceAs (Decidable (∀ t ∈ _, _))

lemma NoOpenQuote.token?_ne {rules : MacroRules} {text : String}
    (h : NoOpenQuote rules text) :
    ∀ l ∈ lexemes rules text.toList, l.token? ≠ some (.unknown, "'") := by
  intro l hl htoken
  have hface : (.unknown, "'") ∈ (tokenize rules text).map Token.face := by
    rw [map_face_tokenize]
    exact List.mem_append_left _ (List.mem_filterMap.mpr ⟨l, hl, htoken⟩)
  obtain ⟨t, ht, heq⟩ := List.mem_map.mp hface
  exact h t ht heq

/-- The semicolon that the last token is, is the last lexeme. -/
lemma EndsInSemicolon.getLast?_lexemes {rules : MacroRules} {text : String}
    (h : EndsInSemicolon rules text) :
    (lexemes rules text.toList).getLast? = some semicolon := by
  obtain ⟨front, t, htext, hlast, hkind, hat⟩ := h
  have hmem : t ∈ tokenize rules text :=
    (List.dropLast_subset _) (List.mem_of_mem_getLast? hlast)
  obtain ⟨before, l, after, hlexemes, hface, hoffset⟩ :=
    exists_lexemes_of_at hmem (by simp [hkind]) hat (by simp [htext])
  obtain ⟨hne, hright⟩ := right_of_lexemes_eq hlexemes
  have hall := lexemes_flatMap rules text.toList
  rw [hlexemes, List.flatMap_append, List.flatMap_cons] at hall
  have hraw : l.raw ++ after.flatMap Lexeme.raw = [';'] := by
    rw [htext] at hall
    exact (List.append_inj hall hoffset).2
  obtain ⟨c, cs, hcons⟩ := List.exists_cons_of_ne_nil hne
  rw [hcons, List.cons_append, List.cons.injEq, List.append_eq_nil_iff] at hraw
  obtain ⟨rfl, rfl, hnone⟩ := hraw
  have hafter : after = [] := by
    cases after with
    | nil => rfl
    | cons m after =>
        rw [List.append_cons] at hlexemes
        have hm := (right_of_lexemes_eq hlexemes).1
        rw [List.flatMap_cons, List.append_eq_nil_iff] at hnone
        exact absurd hnone.1 hm
  have hface : l.token? = some (.semicolon, t.value) := by
    rw [hface, Token.face, hkind]
  have hvalue : t.value = ";" := by
    rw [Lexeme.Right, hface, hcons] at hright
    generalize t.value = value at hright
    cases hright with
    | plain => rfl
  rw [hlexemes, hafter, List.getLast?_append, List.getLast?_singleton,
    Option.some_or, Option.some.injEq]
  cases l with
  | mk raw token? =>
      rw [show raw = [';'] from hcons, show token? = _ from hface, hvalue]
      rfl

/-- **Tokens behind a semicolon.**  Where a text ends in a semicolon of its
own and has no quote that stands alone, whatever follows it leaves its
tokens as they are, its end excepted; and the tokens of the text that
follows are its own, moved behind it. -/
theorem tokenize_append {rules : MacroRules} {a : String}
    (hend : EndsInSemicolon rules a) (hquote : NoOpenQuote rules a)
    (b : String) :
    tokenize rules (a ++ b) = (tokenize rules a).dropLast
      ++ (tokenize rules b).map (Token.behind a.toList) := by
  rw [tokenize, String.toList_append,
    lexemes_append hend.getLast?_lexemes hquote.token?_ne, placeTokens_append,
    lexemes_flatMap, ← Position.start_behind,
    placeTokens_behind _ (Nat.le_refl 1)]
  rfl

/-- A comment, a macro group, a string and a character, each with a
semicolon in it, before the one that ends the text. -/
theorem tokenize_append_declaration :
    tokenize {} ("/* ; */ NS_NAME(f;)\nint s = \";\", c = ';';"
        ++ "id x'\n y")
      = (tokenize {} "/* ; */ NS_NAME(f;)\nint s = \";\", c = ';';").dropLast
        ++ (tokenize {} "id x'\n y").map (Token.behind
          "/* ; */ NS_NAME(f;)\nint s = \";\", c = ';';".toList) :=
  tokenize_append
    ⟨"/* ; */ NS_NAME(f;)\nint s = \";\", c = ';'".toList,
      ⟨.semicolon, ";", 2, 21⟩, by decide +kernel, by decide +kernel, rfl,
      by decide +kernel, by decide +kernel⟩
    (by decide +kernel) _

/-- A quote that stands alone opens a character when more text follows. -/
example : tokenize {} ("';" ++ "x") ≠ (tokenize {} "';").dropLast
    ++ (tokenize {} "x").map (Token.behind "';".toList) := by
  decide +kernel

end HeaderBinding
