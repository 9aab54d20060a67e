/-
Templates: texts that stand for the text to be put in place of another.

* `readEscape`: a backslash starts an escape, which stands for a character
  or, as a mark with the number zero, for the whole text that gives way;
* `fillTemplate`: what a template stands for;
* `fillTemplate_of_not_mem`: without a backslash, that is the template
  itself.
-/
import HeaderBinding.Text.Identifier
import HeaderBinding.Text.Search

namespace HeaderBinding

/-- Why a template stands for no text. -/
inductive TemplateFault
  /-- A backslash starts no escape. -/
  | badEscape
  /-- A mark has a name and not a number. -/
  | namedMark
deriving DecidableEq, Repr

/-! ### Marks -/

/-- White space around a number, the information separators apart. -/
def isNumberBlank (c : Char) : Bool :=
  isBlank c && !(0x1c ≤ c.toNat && c.toNat ≤ 0x1f)

/-- The digits of a number, without the blanks and the sign around
them. -/
def numberDigits (cs : List Char) : List Char :=
  let left := cs.dropWhile isNumberBlank
  match (left.reverse.dropWhile isNumberBlank).reverse with
  | '+' :: digits | '-' :: digits => digits
  | digits => digits

/-- The text reads as the number zero, in at most 4300 digits of any
script.  Single underscores may stand between them. -/
def readsAsZero (cs : List Char) : Bool :=
  let rows := splitAtChar '_' (numberDigits cs)
  rows.all (fun row => !row.isEmpty && row.all isZero)
    && rows.flatten.length ≤ 4300

/-- A mark behind its letter: a number between angle brackets, where zero
stands for the whole text that gives way.  A last backslash behind the mark
is found before its name. -/
def readMark (whole cs : List Char) :
    Except TemplateFault (List Char × List Char) :=
  match cs with
  | '<' :: inner =>
    match inner.dropWhile (· ≠ '>') with
    | [] => .error .badEscape
    | _ :: rest =>
      let name := inner.takeWhile (· ≠ '>')
      if readsAsZero name then .ok (whole, rest)
      else if isIdentifier name && rest ≠ ['\\'] then .error .namedMark
      else .error .badEscape
  | _ => .error .badEscape

/-! ### Escapes -/

/-- An octal digit. -/
def isOctal (c : Char) : Bool :=
  '0' ≤ c && c ≤ '7'

/-- The number that octal digits stand for. -/
def octalValue (digits : List Char) : Nat :=
  digits.foldl (fun n c => 8 * n + (c.toNat - 48)) 0

/-- A character by its number in octal digits: a zero and up to two more,
or three that stay below 256. -/
def readOctal (cs : List Char) :
    Except TemplateFault (List Char × List Char) :=
  let digits := (cs.take 3).takeWhile isOctal
  if cs.head? = some '0'
      || (digits.length = 3 && octalValue digits < 256) then
    .ok ([Char.ofNat (octalValue digits)], cs.drop digits.length)
  else .error .badEscape

/-- The characters that have an escape of one character. -/
def shortEscapes : List (Char × Char) :=
  [('a', Char.ofNat 7), ('b', Char.ofNat 8), ('f', Char.ofNat 12),
    ('n', '\n'), ('r', '\r'), ('t', '\t'), ('v', Char.ofNat 11),
    ('\\', '\\')]

/-- What an escape stands for, read behind its backslash, and what follows
it.  In front of a character that is no letter of ASCII a backslash can
stand for itself. -/
def readEscape (whole : List Char) :
    List Char → Except TemplateFault (List Char × List Char)
  | [] => .error .badEscape
  | c :: cs =>
    if c = 'g' then readMark whole cs
    else if c.isDigit then readOctal (c :: cs)
    else
      match shortEscapes.lookup c with
      | some d => .ok ([d], cs)
      | none =>
        if c.isAlpha then .error .badEscape else .ok (['\\', c], cs)

theorem length_readMark_le {whole cs text rest : List Char}
    (h : readMark whole cs = .ok (text, rest)) :
    rest.length ≤ cs.length := by
  unfold readMark at h
  split at h
  · rename_i inner
    split at h
    · simp at h
    · rename_i c after hd
      have hl :=
        (List.dropWhile_sublist (p := (· ≠ '>')) (l := inner)).length_le
      rw [hd, List.length_cons] at hl
      simp only at h
      split at h
      · simp only [Except.ok.injEq, Prod.mk.injEq] at h
        rw [← h.2, List.length_cons]
        omega
      · split at h <;> simp at h
  · simp at h

theorem length_readEscape_le {whole cs text rest : List Char}
    (h : readEscape whole cs = .ok (text, rest)) :
    rest.length ≤ cs.length := by
  cases cs with
  | nil => simp [readEscape] at h
  | cons c cs =>
    simp only [readEscape] at h
    split at h
    · have := length_readMark_le h
      rw [List.length_cons]
      omega
    · split at h
      · simp only [readOctal] at h
        split at h
        · simp only [Except.ok.injEq, Prod.mk.injEq] at h
          rw [← h.2, List.length_drop]
          omega
        · simp at h
      · split at h
        · simp only [Except.ok.injEq, Prod.mk.injEq] at h
          rw [← h.2, List.length_cons]
          omega
        · split at h
          · simp at h
          · simp only [Except.ok.injEq, Prod.mk.injEq] at h
            rw [← h.2, List.length_cons]
            omega

/-! ### Templates -/

/-- The text that a template stands for, in place of `whole`. -/
def fillTemplate (whole : List Char) :
    List Char → Except TemplateFault (List Char)
  | [] => .ok []
  | c :: cs =>
    if c = '\\' then
      match h : readEscape whole cs with
      | .ok (text, rest) =>
        have := length_readEscape_le h
        (fillTemplate whole rest).map (text ++ ·)
      | .error f => .error f
    else (fillTemplate whole cs).map (c :: ·)
termination_by cs => cs.length
decreasing_by
  · simp only [List.length_cons]
    omega
  · simp

theorem fillTemplate_of_not_mem {whole cs : List Char}
    (h : '\\' ∉ cs) : fillTemplate whole cs = .ok cs := by
  induction cs with
  | nil => simp [fillTemplate]
  | cons c cs ih =>
    rw [List.mem_cons, not_or] at h
    rw [fillTemplate, if_neg (Ne.symm h.1), ih h.2]
    rfl

end HeaderBinding
