/-
The characters of JSON texts.

* `Printed`: a text of the printed ASCII characters and line feeds;
* `Json.IsWhole`: a value without a number that is kept as it is written;
* `Json.printed_compact`, `Json.printed_spread`: the texts of such a value
  are printed;
* `Header.isWhole_toJson`, `isWhole_ofListOrOne`: headers are such values.
-/
import Mathlib.Tactic.Lemma
import HeaderBinding.Binding.Output
import HeaderBinding.Json.Writer

namespace HeaderBinding

/-! ### Printed characters -/

/-- A printed ASCII character or a line feed. -/
def IsPrinted (c : Char) : Prop :=
  (0x20 ≤ c.toNat ∧ c.toNat < 0x7f) ∨ c = '\n'

instance (c : Char) : Decidable (IsPrinted c) :=
  inferInstanceAs (Decidable (_ ∨ _))

/-- The text has printed characters only. -/
def Printed (s : String) : Prop :=
  ∀ c ∈ s.toList, IsPrinted c

instance (s : String) : Decidable (Printed s) :=
  List.decidableBAll _ s.toList

lemma Printed.append {s t : String} (hs : Printed s) (ht : Printed t) :
    Printed (s ++ t) := by
  intro c hc
  rw [String.toList_append] at hc
  exact (List.mem_append.mp hc).elim (hs c) (ht c)

lemma printed_ofList {cs : List Char} (h : ∀ c ∈ cs, IsPrinted c) :
    Printed (String.ofList cs) := by
  rwa [Printed, String.toList_ofList]

lemma isPrinted_fixedHex (width n : Nat) :
    ∀ c ∈ fixedHex width n, IsPrinted c := by
  have hdigit : ∀ k < 16, IsPrinted (lowerHexDigit k) := by decide
  induction width generalizing n with
  | zero => exact fun _ hc => nomatch hc
  | succ width ih =>
      refine List.forall_mem_append.mpr ⟨ih _, ?_⟩
      exact List.forall_mem_singleton.mpr
        (hdigit _ (Nat.mod_lt n (by decide)))

lemma isPrinted_escapeUnit (n : Nat) :
    ∀ c ∈ escapeUnit n, IsPrinted c :=
  List.forall_mem_cons.mpr ⟨by decide, List.forall_mem_cons.mpr
    ⟨by decide, isPrinted_fixedHex 4 n⟩⟩

lemma isPrinted_pair {c d : Char} (hc : IsPrinted c) (hd : IsPrinted d) :
    ∀ e ∈ [c, d], IsPrinted e :=
  List.forall_mem_cons.mpr ⟨hc, List.forall_mem_singleton.mpr hd⟩

/-- What is not printed is escaped. -/
lemma isPrinted_escapeJsonChar (c : Char) :
    ∀ d ∈ escapeJsonChar c, IsPrinted d := by
  unfold escapeJsonChar
  -- the seven characters that have an escape of two characters
  iterate 7
    split
    · exact isPrinted_pair (by decide) (by decide)
  split
  · rename_i hprinted
    exact List.forall_mem_singleton.mpr (.inl hprinted)
  split
  · exact isPrinted_escapeUnit _
  · exact List.forall_mem_append.mpr
      ⟨isPrinted_escapeUnit _, isPrinted_escapeUnit _⟩

lemma isPrinted_escapeJsonUnit :
    ∀ u : TextUnit, ∀ c ∈ escapeJsonUnit u, IsPrinted c
  | .char c => isPrinted_escapeJsonChar c
  | .half _ => isPrinted_escapeUnit _

lemma printed_writeString (t : LooseText) : Printed (writeString t) := by
  refine (Printed.append (by decide) (printed_ofList ?_)).append (by decide)
  exact List.forall_mem_flatMap.mpr fun u _ => isPrinted_escapeJsonUnit u

lemma printed_nat (n : Nat) : Printed n.repr := by
  refine printed_ofList fun c hc => .inl ?_
  have hdigit := Nat.isDigit_of_mem_toDigits (by decide) (by decide) hc
  simp only [Char.isDigit, Bool.and_eq_true, decide_eq_true_eq,
    ge_iff_le, UInt32.le_iff_toNat_le] at hdigit
  have hzero : '0'.val.toNat = 48 := rfl
  have hnine : '9'.val.toNat = 57 := rfl
  have hcode : c.toNat = c.val.toNat := rfl
  omega

lemma printed_int (n : Int) : Printed (toString n) := by
  cases n with
  | ofNat n => exact printed_nat n
  | negSucc n => exact Printed.append (by decide) (printed_nat n.succ)

lemma printed_breakLine (level : Nat) : Printed (breakLine level) := by
  refine Printed.append (by decide) (printed_ofList fun c hc => ?_)
  rw [List.eq_of_mem_replicate hc]
  decide

/-! ### Values -/

mutual

/-- No number in the value is kept as it is written. -/
def Json.IsWhole : Json → Prop
  | .real _ => False
  | .arr items => ItemsWhole items
  | .obj fields => FieldsWhole fields
  | _ => True

/-- So it is for the items of an array. -/
def ItemsWhole : List Json → Prop
  | [] => True
  | v :: vs => v.IsWhole ∧ ItemsWhole vs

/-- So it is for the fields of an object. -/
def FieldsWhole : List (LooseText × Json) → Prop
  | [] => True
  | (_, v) :: fs => v.IsWhole ∧ FieldsWhole fs

end

mutual

theorem Json.printed_compact : ∀ v : Json, v.IsWhole → Printed v.compact
  | .null, _ => by
    rw [Json.compact]
    decide
  | .bool b, _ => by
    rw [Json.compact]
    cases b <;> decide
  | .int n, _ => by
    rw [Json.compact]
    exact printed_int n
  | .real _, h => by
    rw [Json.IsWhole] at h
    exact h.elim
  | .str s, _ => by
    rw [Json.compact]
    exact printed_writeString s
  | .arr items, h => by
    rw [Json.IsWhole] at h
    rw [Json.compact]
    exact (Printed.append (by decide) (printed_compactItems items h)).append
      (by decide)
  | .obj fields, h => by
    rw [Json.IsWhole] at h
    rw [Json.compact]
    exact (Printed.append (by decide)
      (printed_compactFields fields h)).append (by decide)

theorem printed_compactItems :
    ∀ vs : List Json, ItemsWhole vs → Printed (compactItems vs)
  | [], _ => by decide
  | [v], h => by
    rw [ItemsWhole] at h
    rw [compactItems]
    exact v.printed_compact h.1
  | v :: w :: vs, h => by
    rw [ItemsWhole] at h
    simp only [compactItems]
    exact ((v.printed_compact h.1).append (by decide)).append
      (printed_compactItems (w :: vs) h.2)

theorem printed_compactFields : ∀ fs : List (LooseText × Json),
    FieldsWhole fs → Printed (compactFields fs)
  | [], _ => by decide
  | [(k, v)], h => by
    rw [FieldsWhole] at h
    rw [compactFields]
    exact ((printed_writeString k).append (by decide)).append
      (v.printed_compact h.1)
  | (k, v) :: f :: fs, h => by
    rw [FieldsWhole] at h
    simp only [compactFields]
    exact ((((printed_writeString k).append (by decide)).append
      (v.printed_compact h.1)).append (by decide)).append
        (printed_compactFields (f :: fs) h.2)

end

mutual

theorem Json.printed_spread :
    ∀ (v : Json) (level : Nat), v.IsWhole → Printed (v.spread level)
  | .null, _, _ => by
    rw [Json.spread]
    decide
  | .bool b, _, _ => by
    rw [Json.spread]
    cases b <;> decide
  | .int n, _, _ => by
    rw [Json.spread]
    exact printed_int n
  | .real _, _, h => by
    rw [Json.IsWhole] at h
    exact h.elim
  | .str s, _, _ => by
    rw [Json.spread]
    exact printed_writeString s
  | .arr [], _, _ => by
    rw [Json.spread]
    decide
  | .arr (v :: vs), level, h => by
    rw [Json.IsWhole] at h
    simp only [Json.spread]
    exact ((Printed.append (by decide)
      (printed_spreadItems (v :: vs) _ h)).append
        (printed_breakLine level)).append (by decide)
  | .obj [], _, _ => by
    rw [Json.spread]
    decide
  | .obj (f :: fs), level, h => by
    rw [Json.IsWhole] at h
    simp only [Json.spread]
    exact ((Printed.append (by decide)
      (printed_spreadFields (f :: fs) _ h)).append
        (printed_breakLine level)).append (by decide)

theorem printed_spreadItems : ∀ (vs : List Json) (level : Nat),
    ItemsWhole vs → Printed (spreadItems level vs)
  | [], _, _ => by
    rw [spreadItems]
    decide
  | [v], level, h => by
    rw [ItemsWhole] at h
    rw [spreadItems]
    exact (printed_breakLine level).append (v.printed_spread level h.1)
  | v :: w :: vs, level, h => by
    rw [ItemsWhole] at h
    simp only [spreadItems]
    exact (((printed_breakLine level).append
      (v.printed_spread level h.1)).append (by decide)).append
        (printed_spreadItems (w :: vs) level h.2)

theorem printed_spreadFields :
    ∀ (fs : List (LooseText × Json)) (level : Nat),
      FieldsWhole fs → Printed (spreadFields level fs)
  | [], _, _ => by
    rw [spreadFields]
    decide
  | [(k, v)], level, h => by
    rw [FieldsWhole] at h
    rw [spreadFields]
    exact (((printed_breakLine level).append (printed_writeString k)).append
      (by decide)).append (v.printed_spread level h.1)
  | (k, v) :: f :: fs, level, h => by
    rw [FieldsWhole] at h
    simp only [spreadFields]
    exact (((((printed_breakLine level).append
      (printed_writeString k)).append (by decide)).append
        (v.printed_spread level h.1)).append (by decide)).append
          (printed_spreadFields (f :: fs) level h.2)

end

theorem Json.printed_pretty {v : Json} (h : v.IsWhole) : Printed v.pretty :=
  (v.printed_spread 0 h).append (by decide)

/-! ### Headers -/

@[simp] lemma Json.isWhole_str (t : LooseText) :
    (Json.str t).IsWhole := by
  simp only [Json.IsWhole]

@[simp] lemma Json.isWhole_int (n : Int) : (Json.int n).IsWhole := by
  simp only [Json.IsWhole]

@[simp] lemma Json.isWhole_bool (b : Bool) : (Json.bool b).IsWhole := by
  simp only [Json.IsWhole]

@[simp] lemma Json.isWhole_arr (vs : List Json) :
    (Json.arr vs).IsWhole ↔ ∀ v ∈ vs, v.IsWhole := by
  rw [Json.IsWhole]
  induction vs with
  | nil => exact iff_of_true trivial fun _ hv => nomatch hv
  | cons v vs ih => rw [ItemsWhole, ih, List.forall_mem_cons]

@[simp] lemma Json.isWhole_ofFields_nil : (Json.ofFields []).IsWhole := by
  rw [Json.ofFields, Json.IsWhole]
  trivial

@[simp] lemma Json.isWhole_ofFields_cons (f : String × Json)
    (fs : List (String × Json)) :
    (Json.ofFields (f :: fs)).IsWhole ↔
      f.2.IsWhole ∧ (Json.ofFields fs).IsWhole := by
  simp only [Json.ofFields, Json.IsWhole, List.map_cons, FieldsWhole]

@[simp] lemma Json.isWhole_ofFields_append (fs gs : List (String × Json)) :
    (Json.ofFields (fs ++ gs)).IsWhole ↔
      (Json.ofFields fs).IsWhole ∧ (Json.ofFields gs).IsWhole := by
  induction fs with
  | nil => exact (and_iff_right isWhole_ofFields_nil).symm
  | cons f fs ih =>
      rw [List.cons_append, isWhole_ofFields_cons, isWhole_ofFields_cons,
        ih, and_assoc]

@[simp] lemma Json.isWhole_ofStrings (ss : List String) :
    (Json.ofStrings ss).IsWhole := by
  simp [Json.ofStrings, Json.ofTexts]

@[simp] lemma Json.isWhole_ofList {α : Type} (f : α → Json) (as : List α) :
    (Json.ofList f as).IsWhole ↔ ∀ a ∈ as, (f a).IsWhole := by
  simp [Json.ofList]

@[simp] lemma isWhole_textField (name : String) (text? : Option String) :
    (Json.ofFields (textField name text?)).IsWhole := by
  cases text? <;> simp [textField]

@[simp] lemma Diagnostic.isWhole_toJson (d : Diagnostic) :
    d.toJson.IsWhole := by
  simp [Diagnostic.toJson]

@[simp] lemma Parameter.isWhole_toJson (p : Parameter) :
    p.toJson.IsWhole := by
  simp [Parameter.toJson]

@[simp] lemma Property.isWhole_toJson (p : Property) :
    p.toJson.IsWhole := by
  simp [Property.toJson]

@[simp] lemma Method.isWhole_toJson (m : Method) : m.toJson.IsWhole := by
  simp [Method.toJson]

@[simp] lemma Interface.isWhole_toJson (i : Interface) :
    i.toJson.IsWhole := by
  simp [Interface.toJson]

@[simp] lemma Protocol.isWhole_toJson (p : Protocol) :
    p.toJson.IsWhole := by
  simp [Protocol.toJson]

@[simp] lemma EnumDef.isWhole_toJson (e : EnumDef) : e.toJson.IsWhole := by
  simp [EnumDef.toJson, EnumCase.toJson]

@[simp] lemma StructDef.isWhole_toJson (s : StructDef) :
    s.toJson.IsWhole := by
  simp [StructDef.toJson, StructField.toJson]

@[simp] lemma Alias.isWhole_toJson (a : Alias) : a.toJson.IsWhole := by
  simp [Alias.toJson]

@[simp] lemma Function.isWhole_toJson (f : Function) :
    f.toJson.IsWhole := by
  simp [Function.toJson]

@[simp] lemma Header.isWhole_toJson (h : Header) : h.toJson.IsWhole := by
  simp [Header.toJson, ForwardNames.toJson]

lemma isWhole_ofListOrOne (hs : List Header) :
    (Json.ofListOrOne (hs.map Header.toJson)).IsWhole := by
  unfold Json.ofListOrOne
  split
  · rename_i v heq
    obtain ⟨h, -, rfl⟩ := List.mem_map.mp (heq ▸ List.mem_singleton_self v)
    exact h.isWhole_toJson
  · simp

end HeaderBinding
