/-
The words of a name in mixed case.  Letters and digits are those of
ASCII; other characters belong to no word.

* `camelWordAt`: the word at the start of a text, if one starts there;
* `camelWords`: the words of a text, from left to right;
* `length_camelWordAt_le`: a word is part of its text.
-/

namespace HeaderBinding

/-- A small letter or a digit. -/
def isCamelTail (c : Char) : Bool :=
  c.isLower || c.isDigit

/-- The word at the start of `c :: cs`: a run of capitals, of which the
last belongs to the small letter behind it; a capital with the small
letters and digits behind it; or a run of these.  It is empty if no word
starts here. -/
def camelWordAt (c : Char) (cs : List Char) : List Char :=
  if c.isUpper then
    let more := cs.takeWhile Char.isUpper
    if (cs.drop more.length).head?.any Char.isLower then
      if more.isEmpty then c :: cs.takeWhile isCamelTail
      else c :: more.dropLast
    else c :: more
  else if isCamelTail c then c :: cs.takeWhile isCamelTail
  else []

/-- The words of a text. -/
def camelWords : List Char → List (List Char)
  | [] => []
  | c :: cs =>
    let word := camelWordAt c cs
    if word.isEmpty then camelWords cs
    else word :: camelWords (cs.drop (word.length - 1))
termination_by cs => cs.length
decreasing_by
  · simp only [List.length_cons, Nat.lt_add_one]
  · simp only [List.length_drop, List.length_cons]
    omega

theorem length_takeWhile_le {α : Type} (p : α → Bool) (l : List α) :
    (l.takeWhile p).length ≤ l.length :=
  (List.takeWhile_sublist p).length_le

theorem length_camelWordAt_le (c : Char) (cs : List Char) :
    (camelWordAt c cs).length ≤ cs.length + 1 := by
  have hu := length_takeWhile_le Char.isUpper cs
  have ht := length_takeWhile_le isCamelTail cs
  unfold camelWordAt
  simp only
  split
  · split
    · split
      · simpa using ht
      · simp
        omega
    · simpa using hu
  · split
    · simpa using ht
    · simp

/-- The words of a name. -/
def splitCamelWords (name : String) : List String :=
  (camelWords name.toList).map String.ofList

end HeaderBinding
