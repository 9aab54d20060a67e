/-
Texts in which halves of surrogate pairs can stand alone, as escapes can
put them there.

* `TextUnit`: a character, or such a half;
* `LooseText`: a row of these.  A text of characters is one; and
  `LooseText.plain?` is that text, if no half stands alone;
* `LooseText.before`: the order of such texts;
* `LooseText.escaped`: the text as it is shown where a half cannot be
  written.
-/

namespace HeaderBinding

/-! ### Numbers in escapes -/

/-- A hexadecimal digit in lower case. -/
def lowerHexDigit (n : Nat) : Char :=
  if n < 10 then Char.ofNat (48 + n) else Char.ofNat (87 + n)

/-- The last `width` hexadecimal digits of a number. -/
def fixedHex : Nat → Nat → List Char
  | 0, _ => []
  | width + 1, n => fixedHex width (n / 16) ++ [lowerHexDigit (n % 16)]

/-- The escape of a sixteen-bit unit. -/
def escapeUnit (n : Nat) : List Char :=
  '\\' :: 'u' :: fixedHex 4 n

/-! ### Units -/

/-- A character, or half of a surrogate pair that stands alone. -/
inductive TextUnit
  | char (c : Char)
  | half (offset : Fin 0x800)
deriving DecidableEq, Repr

/-- The number of the unit. -/
def TextUnit.code : TextUnit → Nat
  | char c => c.toNat
  | half offset => 0xd800 + offset

/-- The character that the unit is, unless it is a half. -/
def TextUnit.char? : TextUnit → Option Char
  | char c => some c
  | half _ => none

/-- The unit as it is shown.  A half is shown by its escape. -/
def TextUnit.escaped : TextUnit → List Char
  | char c => [c]
  | half offset => escapeUnit (0xd800 + offset)

/-! ### Texts -/

/-- A text in which halves of surrogate pairs can stand alone. -/
structure LooseText where
  units : List TextUnit
deriving DecidableEq, Repr, Inhabited

namespace LooseText

/-- A text of characters. -/
def ofString (s : String) : LooseText :=
  ⟨s.toList.map .char⟩

instance : Coe String LooseText :=
  ⟨ofString⟩

/-- The text has no unit. -/
def isEmpty (t : LooseText) : Bool :=
  t.units.isEmpty

/-- The text, unless a half stands alone in it. -/
def plain? (t : LooseText) : Option String :=
  (t.units.mapM TextUnit.char?).map String.ofList

/-- The text as it is shown, with the escapes of the halves. -/
def escaped (t : LooseText) : String :=
  String.ofList (t.units.flatMap TextUnit.escaped)

/-- The first text does not come after the second, by the numbers of
their units. -/
def before (t u : LooseText) : Bool :=
  !(u.units.map TextUnit.code).lex (t.units.map TextUnit.code)

theorem units_ofString (s : String) :
    (ofString s).units = s.toList.map .char := rfl

theorem mapM_char?_map (cs : List Char) :
    (cs.map TextUnit.char).mapM TextUnit.char? = some cs := by
  induction cs with
  | nil => rfl
  | cons c cs ih => simp [TextUnit.char?, ih]

/-- A text of characters is read as it is. -/
@[simp] theorem plain?_ofString (s : String) :
    (ofString s).plain? = some s := by
  rw [plain?, units_ofString, mapM_char?_map, Option.map_some,
    String.ofList_toList]

theorem ofString_injective {s t : String} (h : ofString s = ofString t) :
    s = t := by
  have hplain := congrArg plain? h
  rwa [plain?_ofString, plain?_ofString, Option.some.injEq] at hplain

@[simp] theorem ofString_inj {s t : String} :
    ofString s = ofString t ↔ s = t :=
  ⟨ofString_injective, congrArg ofString⟩

@[simp] theorem isEmpty_ofString (s : String) :
    (ofString s).isEmpty = decide (s = "") := by
  rw [isEmpty, units_ofString, List.isEmpty_map, Bool.eq_iff_iff,
    List.isEmpty_iff, String.toList_eq_nil_iff, decide_eq_true_eq]

end LooseText

end HeaderBinding
