/-
The letters, digits and underscores of ASCII.

* `forall_ascii`: what is checked for each of the 128 codes holds of every
  ASCII character;
* `isPlainChar`: a letter, a digit or an underscore;
* `capitalize_cons`, `uncapitalize_cons`: the case of the first letter of a
  text, and `capitalize_uncapitalize`: a capital comes back.
-/
import Mathlib.Tactic.Lemma
import HeaderBinding.Text.Case

namespace HeaderBinding

variable {c : Char} {cs : List Char}

/-- What is checked for every code holds of the characters. -/
lemma forall_ascii {P : Char → Prop} (h : ∀ n < 128, P (Char.ofNat n))
    (hc : c.toNat < 128) : P c := by
  rw [← Char.ofNat_toNat c]
  exact h c.toNat hc

/-! ### Letters, digits and underscores -/

lemma toNat_of_isUpper (h : c.isUpper = true) :
    65 ≤ c.toNat ∧ c.toNat ≤ 90 := by
  obtain ⟨hA, hZ⟩ : c.val ≥ 'A'.val ∧ c.val ≤ 'Z'.val := of_decide_eq_true h
  exact ⟨UInt32.le_iff_toNat_le.mp hA, UInt32.le_iff_toNat_le.mp hZ⟩

lemma toNat_of_isLower (h : c.isLower = true) :
    97 ≤ c.toNat ∧ c.toNat ≤ 122 := by
  obtain ⟨ha, hz⟩ := (Bool.and_eq_true _ _).mp h
  exact ⟨UInt32.le_iff_toNat_le.mp (of_decide_eq_true ha),
    UInt32.le_iff_toNat_le.mp (of_decide_eq_true hz)⟩

/-- No letter is both a capital and a small one. -/
lemma isLower_eq_false_of_isUpper (h : c.isUpper = true) :
    c.isLower = false := by
  rw [Bool.eq_false_iff]
  intro hlower
  have := toNat_of_isUpper h
  have := toNat_of_isLower hlower
  omega

/-- No letter is a digit. -/
lemma isDigit_eq_false_of_isUpper (h : c.isUpper = true) :
    c.isDigit = false := by
  rw [Bool.eq_false_iff]
  intro hdigit
  have hlast : c.toNat ≤ 57 := (Char.isDigit_iff_toNat.mp hdigit).2
  have := toNat_of_isUpper h
  omega

/-- A letter, a digit or an underscore of ASCII. -/
def isPlainChar (c : Char) : Bool :=
  c.isAlphanum || c == '_'

lemma toNat_lt_of_isPlainChar (h : isPlainChar c = true) :
    c.toNat < 128 := by
  rcases (Bool.or_eq_true _ _).mp h with halnum | hunderscore
  · rcases (Bool.or_eq_true _ _).mp halnum with halpha | hdigit
    · rcases (Bool.or_eq_true _ _).mp halpha with hupper | hlower
      · exact Nat.lt_of_le_of_lt (toNat_of_isUpper hupper).2 (by decide)
      · exact Nat.lt_of_le_of_lt (toNat_of_isLower hlower).2 (by decide)
    · exact Nat.lt_of_le_of_lt (Char.isDigit_iff_toNat.mp hdigit).2
        (by decide)
  · exact beq_iff_eq.mp hunderscore ▸ by decide

/-! ### The case of the first letter -/

lemma capitalize_cons (h : isPlainChar c = true) (cs : List Char) :
    capitalize (c :: cs) = c.toUpper :: cs := by
  rw [capitalize, upperChar, if_pos (toNat_lt_of_isPlainChar h)]
  rfl

lemma uncapitalize_cons (h : isPlainChar c = true) (cs : List Char) :
    uncapitalize (c :: cs) = c.toLower :: cs := by
  have hlt := toNat_lt_of_isPlainChar h
  rw [uncapitalize, lowerAfter, if_neg (by omega), lowerChar, if_pos hlt]
  rfl

/-- A character that is no digit is put into upper case. -/
lemma toUpper_of_isPlainChar (h : isPlainChar c = true)
    (hdigit : c.isDigit = false) :
    isPlainChar c.toUpper = true
      ∧ (c.toUpper.isUpper = true ∨ c.toUpper = '_') :=
  forall_ascii (P := fun c => isPlainChar c = true → c.isDigit = false →
      isPlainChar c.toUpper = true
        ∧ (c.toUpper.isUpper = true ∨ c.toUpper = '_'))
    (by decide +kernel) (toNat_lt_of_isPlainChar h) h hdigit

/-- Lower case makes no digit, and no other character than these. -/
lemma toLower_of_isPlainChar (h : isPlainChar c = true) :
    isPlainChar c.toLower = true ∧ c.toLower.isDigit = c.isDigit :=
  forall_ascii (P := fun c => isPlainChar c = true →
      isPlainChar c.toLower = true ∧ c.toLower.isDigit = c.isDigit)
    (by decide +kernel) (toNat_lt_of_isPlainChar h) h

/-- A text that starts with a capital or with no letter gets its first
character back. -/
lemma capitalize_uncapitalize (h : isPlainChar c = true)
    (hupper : c.isUpper = true ∨ c = '_') (cs : List Char) :
    capitalize (uncapitalize (c :: cs)) = c :: cs := by
  have hback : c.toLower.toUpper = c :=
    forall_ascii (P := fun c => c.isUpper = true ∨ c = '_' →
        c.toLower.toUpper = c)
      (by decide +kernel) (toNat_lt_of_isPlainChar h) hupper
  rw [uncapitalize_cons h, capitalize_cons (toLower_of_isPlainChar h).1, hback]

end HeaderBinding
