/-
Which structures are read with the fields that they have.

* `StructText`, `StructDeclaration`: a structure made of declarations of
  fields, and one that is declared in a header;
* `StructText.readStruct_eq`, `StructText.readFields_eq_iff`: what is read
  of a structure, wherever it stands, and when that is what it says;
* `StructDeclaration.readAll_tokens_iff`, `readTokens_struct_iff`: a
  structure is read as it stands exactly if no first name with stars has
  others behind it.
-/
import HeaderBinding.Proofs.Cursor.Declarators
import HeaderBinding.Proofs.Header.Single

namespace HeaderBinding

open Production

/-! ### Structures -/

/-- A structure with its fields, up to the closing brace. -/
structure StructText where
  keyword : Token
  name? : Option Token := none
  opening : Token
  declarations : List FieldDeclaration
  closing : Token
  keyword_kind : keyword.kind = .kwStruct := by decide
  name_kind : ∀ t ∈ name?, t.kind = .identifier := by decide
  opening_kind : opening.kind = .openBrace := by decide
  closing_kind : closing.kind = .closeBrace := by decide

/-- The fields of declarations are read one declaration after the
other. -/
lemma readFieldGroups_append (ds : List FieldDeclaration) {closing : Token}
    (hclosing : closing.kind = .closeBrace) (rest : List Token) :
    readFieldGroups (ds.flatMap FieldDeclaration.tokens ++ closing :: rest)
      = ⟨[], .ok (ds.flatMap FieldDeclaration.readFields),
          closing :: rest⟩ := by
  induction ds with
  | nil =>
      rw [List.flatMap_nil, List.nil_append, readFieldGroups,
        if_pos (.inl (by simp [hclosing]))]
      rfl
  | cons d ds ih =>
      have hnext := d.headIn_tokens
        (ds.flatMap FieldDeclaration.tokens ++ closing :: rest)
      have hclose : headIs .closeBrace (d.tokens
          ++ (ds.flatMap FieldDeclaration.tokens ++ closing :: rest))
            = false := headIs_eq_false hnext (by decide)
      have hend := atEnd_eq_false_of_headIn hnext (by decide)
      have hlt : (ds.flatMap FieldDeclaration.tokens
          ++ closing :: rest).length < (d.tokens
            ++ (ds.flatMap FieldDeclaration.tokens
              ++ closing :: rest)).length := by
        simp only [FieldDeclaration.tokens, List.length_append,
          List.length_cons]
        omega
      rw [List.flatMap_cons, List.append_assoc, readFieldGroups,
        if_neg (by simp [hclose, hend]), d.readFieldGroup_eq]
      simp only [if_pos hlt, ih]
      rfl

namespace StructText

variable (d : StructText)

/-- The tokens of a structure. -/
def tokens : List Token :=
  d.keyword :: (d.name?.toList ++ d.opening
    :: (d.declarations.flatMap FieldDeclaration.tokens ++ [d.closing]))

/-- The name of a structure, or nothing. -/
def name : String :=
  (d.name?.map (·.value)).getD ""

/-- The fields that are declared. -/
def fields : List StructField :=
  d.declarations.flatMap FieldDeclaration.fields

/-- The fields that are read. -/
def readFields : List StructField :=
  d.declarations.flatMap FieldDeclaration.readFields

/-- A structure is read with the fields of all declarations, wherever it
stands. -/
theorem readStruct_eq (rest : List Token) :
    readStruct (d.tokens ++ rest)
      = ⟨[], .ok ⟨d.name, d.readFields⟩, rest⟩ := by
  have hbody := readFieldGroups_append d.declarations d.closing_kind rest
  have hclose : (expect .closeBrace .structBodyClose).run
      (d.closing :: rest) = (.ok d.closing, rest) :=
    result_expect_cons d.closing_kind (by decide) _ _
  have htokens : d.tokens ++ rest = d.keyword :: (d.name?.toList
      ++ d.opening :: (d.declarations.flatMap FieldDeclaration.tokens
        ++ d.closing :: rest)) := by
    simp [tokens]
  rw [htokens, readStruct, name, readFields]
  cases hname : d.name? with
  | none =>
      simp only [Option.toList_none, List.nil_append, headIs, List.head?_cons,
        Option.any_some, d.opening_kind, reduceCtorEq, decide_false,
        Bool.false_eq_true, decide_true, ↓reduceIte, List.tail_cons, hbody,
        hclose]
      rfl
  | some t =>
      simp only [Option.toList_some, List.singleton_append, headIs,
        List.head?_cons, Option.any_some, d.name_kind t hname, decide_true,
        ↓reduceIte, d.opening_kind, List.tail_cons, hbody, hclose]
      rfl

/-- A structure is defined where it stands. -/
lemma definesInPlace_tokens (rest : List Token) :
    definesInPlace (d.tokens ++ rest) = true := by
  cases hname : d.name? with
  | none => simp [definesInPlace, tokens, hname, kindAt, tokenAt,
      d.opening_kind]
  | some t => simp [definesInPlace, tokens, hname, kindAt, tokenAt,
      d.opening_kind, d.name_kind t hname]

/-- The fields are read as they stand exactly if in no declaration a first
name with stars has others behind it. -/
theorem readFields_eq_iff :
    d.readFields = d.fields
      ↔ ∀ f ∈ d.declarations, f.first.stars = [] ∨ f.others = [] := by
  rw [readFields, fields]
  induction d.declarations with
  | nil => simp
  | cons f fs ih =>
      rw [List.flatMap_cons, List.flatMap_cons, List.forall_mem_cons, ← ih,
        ← f.readFields_eq_iff]
      refine ⟨fun h => List.append_inj h f.length_readFields,
        fun ⟨hf, hfs⟩ => by rw [hf, hfs]⟩

end StructText

/-! ### Structures in a header -/

/-- What is made of a structure that was read. -/
lemma RecordReading.reading_of_ok {σ : Type} {d : StructDef}
    {rest last : List Token} {own : StructDef → Production (List Item)}
    {items : List Item} (h : (own d).result rest = (.ok items, last)) (s : σ) :
    RecordReading.reading ⟨[], .ok d, rest⟩ own s
      = ⟨items, s, last, none⟩ := by
  rw [RecordReading.reading]
  simp only [Production.reading_of_ok s h]
  rfl

/-- A structure that is declared alone, or with a second name that takes
the place of its own. -/
structure StructDeclaration where
  body : StructText
  /-- The keyword of a type definition and the second name. -/
  alias? : Option (Token × Token) := none
  ending : Token
  declarations_ne_nil : body.declarations ≠ [] := by decide
  alias_kind : ∀ a ∈ alias?,
    a.1.kind = .kwTypedef ∧ a.2.kind = .identifier := by decide
  ending_kind : ending.kind = .semicolon := by decide

namespace StructDeclaration

variable (d : StructDeclaration)

/-- The tokens of a declared structure. -/
def tokens : List Token :=
  (d.alias?.map (·.1)).toList ++ (d.body.tokens
    ++ ((d.alias?.map (·.2)).toList ++ [d.ending]))

/-- The name that a structure is declared with. -/
def name : String :=
  (d.alias?.map (·.2.value)).getD d.body.name

/-- The structure that is declared. -/
def struct : StructDef :=
  ⟨d.name, d.body.fields⟩

lemma readFields_ne_nil : d.body.readFields ≠ [] := by
  obtain ⟨f, fs, hfs⟩ := List.exists_cons_of_ne_nil d.declarations_ne_nil
  rw [StructText.readFields, hfs, List.flatMap_cons]
  exact List.append_ne_nil_of_left_ne_nil f.readFields_ne_nil _

/-- A structure that is declared alone. -/
lemma readItem_alone (ha : d.alias? = none) (s : Bool) (rest : List Token) :
    readItem s (d.tokens ++ rest)
      = ⟨[.structure_ ⟨d.name, d.body.readFields⟩], s, rest, none⟩ := by
  have htokens : d.tokens ++ rest = d.body.tokens ++ d.ending :: rest := by
    simp [tokens, ha]
  have hitem : readItem s (d.body.tokens ++ d.ending :: rest)
      = structItems s (d.body.tokens ++ d.ending :: rest) := by
    rw [StructText.tokens, List.cons_append, readItem]
    simp only [d.body.keyword_kind]
  rw [htokens, hitem, structItems, d.body.readStruct_eq, name, ha]
  refine RecordReading.reading_of_ok ?_ s
  rw [result_bind_of_ok (result_accept_of_headIs
    (by simp [d.ending_kind])), if_pos (.inr d.readFields_ne_nil)]
  rfl

/-- A structure with a second name. -/
lemma readItem_named {mark second : Token}
    (ha : d.alias? = some (mark, second)) (s : Bool) (rest : List Token) :
    readItem s (d.tokens ++ rest)
      = ⟨[.structure_ ⟨d.name, d.body.readFields⟩], s, rest, none⟩ := by
  have hmark : mark.kind = .kwTypedef := (d.alias_kind _ ha).1
  have hsecond : second.kind = .identifier := (d.alias_kind _ ha).2
  have htokens : d.tokens ++ rest
      = mark :: (d.body.tokens ++ second :: d.ending :: rest) := by
    simp [tokens, ha]
  have hplace := d.body.definesInPlace_tokens (second :: d.ending :: rest)
  have hitem : readItem s (mark :: (d.body.tokens
      ++ second :: d.ending :: rest))
      = (readStruct (d.body.tokens ++ second :: d.ending :: rest)).reading
        structAlias s := by
    have hkeyword := d.body.keyword_kind
    rw [readItem]
    simp only [hmark]
    rw [typedefItems, step_cons (by simp [hmark])]
    simp only [hplace]
    simp [StructText.tokens, hkeyword]
  rw [htokens, hitem, d.body.readStruct_eq, name, ha]
  refine RecordReading.reading_of_ok ?_ s
  rw [structAlias, result_bind_of_ok (result_identifier?_cons hsecond _),
    result_bind_of_ok (result_skip _ _), skipStatement,
    if_neg (by simp [d.ending_kind]), if_pos d.ending_kind]
  rfl

/-- A declared structure is one item. -/
theorem readItem_tokens (s : Bool) (rest : List Token) :
    readItem s (d.tokens ++ rest)
      = ⟨[.structure_ ⟨d.name, d.body.readFields⟩], s, rest, none⟩ := by
  cases ha : d.alias? with
  | none => exact d.readItem_alone ha s rest
  | some a => exact d.readItem_named ha s rest

/-- Among other declarations, a structure is read as it stands exactly if
in no declaration of fields a first name with stars has others behind
it. -/
theorem readAll_tokens_iff (s : Bool) (rest : List Token) :
    (readAll [] readItem Item.ofFailure s (d.tokens ++ rest)).1
        = .structure_ d.struct
          :: (readAll [] readItem Item.ofFailure s rest).1
      ↔ ∀ f ∈ d.body.declarations, f.first.stars = [] ∨ f.others = [] := by
  have hend : atEnd (d.tokens ++ rest) = false := by
    cases ha : d.alias? with
    | none => simp [tokens, StructText.tokens, ha, d.body.keyword_kind]
    | some a => simp [tokens, ha, (d.alias_kind a ha).1]
  have hlt : rest.length < (d.tokens ++ rest).length := by
    simp only [tokens, StructText.tokens, List.length_append,
      List.length_cons]
    omega
  rw [← d.body.readFields_eq_iff,
    readAll_of_item hend (d.readItem_tokens s rest) hlt, struct]
  simp

end StructDeclaration

/-- The header of a structure has that structure, with a field for each
declared name, and nothing else, exactly if in no declaration of fields a
first name with stars has others behind it. -/
theorem readTokens_struct_iff (d : StructDeclaration) (file : String)
    {e : Token} (he : e.kind = .endOfInput) :
    readTokens file (d.tokens ++ [e])
        = Header.ofItems file [.structure_ d.struct]
      ↔ ∀ f ∈ d.body.declarations, f.first.stars = [] ∨ f.others = [] := by
  have hclosed : Closed (d.tokens ++ [e]) := ⟨e, List.getLast?_concat, he⟩
  rw [readTokens_eq_iff hclosed, ← d.readAll_tokens_iff false [e],
    readAll_end he]

/-- A structure with a pointer to another one, and with a number, a row of
pointers and a bit field in one declaration. -/
def cellStruct : StructDeclaration where
  body := {
    keyword := ⟨.kwStruct, "struct", 1, 9⟩
    opening := ⟨.openBrace, "\x7b", 1, 16⟩
    declarations := [
      { base := {
          keywords := [⟨.kwStruct, "struct", 1, 18⟩]
          words := [⟨.identifier, "Node", 1, 25⟩] }
        first := {
          stars := [⟨.asterisk, "*", 1, 30⟩]
          name := ⟨.identifier, "next", 1, 31⟩ }
        ending := ⟨.semicolon, ";", 1, 35⟩ },
      { base := { words := [⟨.identifier, "int", 1, 37⟩] }
        first := { name := ⟨.identifier, "x", 1, 41⟩ }
        others := [
          (⟨.comma, ",", 1, 42⟩,
            { stars := [⟨.asterisk, "*", 1, 44⟩]
              name := ⟨.identifier, "y", 1, 45⟩
              sizes := [{
                opening := ⟨.openBracket, "[", 1, 46⟩
                size := [⟨.number, "2", 1, 47⟩]
                closing := ⟨.closeBracket, "]", 1, 48⟩ }] }),
          (⟨.comma, ",", 1, 49⟩,
            { name := ⟨.identifier, "w", 1, 51⟩
              width? := some {
                mark := ⟨.colon, ":", 1, 53⟩
                width := [⟨.number, "3", 1, 55⟩] } })]
        ending := ⟨.semicolon, ";", 1, 56⟩ }]
    closing := ⟨.closeBrace, "\x7d", 1, 58⟩ }
  alias? := some (⟨.kwTypedef, "typedef", 1, 1⟩, ⟨.identifier, "Cell", 1, 60⟩)
  ending := ⟨.semicolon, ";", 1, 64⟩

/-- The text of that structure. -/
def cellText : String :=
  "typedef struct \x7b struct Node *next; int x, *y[2], w : 3; \x7d Cell;\n"

/-- Its fields have their own stars. -/
theorem readHeader_cellText :
    readHeader {} "" cellText = Header.ofItems "" [.structure_ ⟨"Cell", [
      ⟨"next", "struct Node *"⟩, ⟨"x", "int"⟩, ⟨"y", "int * [2]"⟩,
      ⟨"w", "int"⟩]⟩] := by
  have htokens : tokenize {} cellText
      = cellStruct.tokens ++ [⟨.endOfInput, "", 2, 1⟩] := by
    decide +kernel
  have hstruct : cellStruct.struct = ⟨"Cell", [⟨"next", "struct Node *"⟩,
      ⟨"x", "int"⟩, ⟨"y", "int * [2]"⟩, ⟨"w", "int"⟩]⟩ := by
    decide +kernel
  rw [readHeader, htokens, ← hstruct]
  refine (readTokens_struct_iff cellStruct "" rfl).mpr ?_
  simp [cellStruct]

/-- A structure with a pointer and a number in one declaration. -/
def pairStruct : StructDeclaration where
  body := {
    keyword := ⟨.kwStruct, "struct", 1, 1⟩
    name? := some ⟨.identifier, "S", 1, 8⟩
    opening := ⟨.openBrace, "\x7b", 1, 10⟩
    declarations := [
      { base := { words := [⟨.identifier, "int", 1, 12⟩] }
        first := {
          stars := [⟨.asterisk, "*", 1, 16⟩]
          name := ⟨.identifier, "a", 1, 17⟩ }
        others := [
          (⟨.comma, ",", 1, 18⟩, { name := ⟨.identifier, "b", 1, 20⟩ })]
        ending := ⟨.semicolon, ";", 1, 21⟩ }]
    closing := ⟨.closeBrace, "\x7d", 1, 23⟩ }
  ending := ⟨.semicolon, ";", 1, 24⟩

/-- The number is read as a pointer. -/
theorem not_readTokens_pairStruct :
    tokenize {} "struct S \x7b int *a, b; \x7d;\n"
        = pairStruct.tokens ++ [⟨.endOfInput, "", 2, 1⟩]
      ∧ readTokens "" (pairStruct.tokens ++ [⟨.endOfInput, "", 2, 1⟩])
        ≠ Header.ofItems "" [.structure_ pairStruct.struct] := by
  refine ⟨by decide +kernel, fun h => ?_⟩
  have hread := (readTokens_eq_iff ⟨_, List.getLast?_concat, rfl⟩).mp h
  have hfirst := (pairStruct.readAll_tokens_iff false
    [⟨.endOfInput, "", 2, 1⟩]).mp (by rw [hread, readAll_end rfl])
  simp [pairStruct] at hfirst

end HeaderBinding
