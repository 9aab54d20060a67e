/-
JSON values.  Objects keep the order of their fields.

* `Json`: the values; a number with a fraction or an exponent is kept as
  it is written, since nothing here computes with it;
* `putField`: an entry of a list is set: an old value of the key gives way
  in its place;
* `Json.field?`: the value of a field of an object.

The texts in a value can hold halves of surrogate pairs.
-/
import HeaderBinding.Text.Loose

namespace HeaderBinding

/-- A JSON value. -/
inductive Json
  | null
  | bool (b : Bool)
  | int (n : Int)
  | real (text : String)
  | str (text : LooseText)
  | arr (items : List Json)
  | obj (fields : List (LooseText × Json))
deriving Inhabited, Repr

/-- The entries with `key` set to `value`: in place of the old value, or
at the end. -/
def putField {κ α : Type} [BEq κ] (key : κ) (value : α) :
    List (κ × α) → List (κ × α)
  | [] => [(key, value)]
  | f :: fs =>
    if f.1 == key then (key, value) :: fs else f :: putField key value fs

theorem lookup_putField {κ α : Type} [BEq κ] [LawfulBEq κ] (key : κ)
    (value : α) (fs : List (κ × α)) :
    (putField key value fs).lookup key = some value := by
  induction fs with
  | nil => simp [putField]
  | cons f fs ih =>
    obtain ⟨k, v⟩ := f
    by_cases h : k = key
    · simp [putField, h]
    · have hb : (key == k) = false := by simpa using Ne.symm h
      simp [putField, h, List.lookup_cons, hb, ih]

/-- The value of a field, if there is one. -/
def Json.field? (name : String) : Json → Option Json
  | .obj fields => fields.lookup (LooseText.ofString name)
  | _ => none

/-- An object of named values. -/
def Json.ofFields (fields : List (String × Json)) : Json :=
  .obj (fields.map fun f => (LooseText.ofString f.1, f.2))

/-- An array of texts. -/
def Json.ofTexts (texts : List LooseText) : Json :=
  .arr (texts.map .str)

/-- An array of strings. -/
def Json.ofStrings (ss : List String) : Json :=
  .ofTexts (ss.map LooseText.ofString)

end HeaderBinding
