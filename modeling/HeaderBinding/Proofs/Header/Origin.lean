/-
The tokens that the members of a class were read from.

* `mem_readClassPart`: what a part of a class that is a member was read
  from;
* `Method.ReadFrom`, `Property.ReadFrom`: a member was read from tokens of
  a row;
* `exists_readFrom_of_mem_methods`, `exists_readFrom_of_mem_properties`:
  so was each member of a header from tokens of its text;
* `readable_of_mem_tokenize`: plain tokens of a text can be read again.
-/
import HeaderBinding.Proofs.Header.Spans
import HeaderBinding.Proofs.Header.Writable

namespace HeaderBinding

open Production

variable {rules : MacroRules}

/-! ### Members as parts of a class -/

/-- The kind of the sign of a method. -/
def signKind (onClass : Bool) : TokenKind :=
  if onClass then .plus else .minus

/-- A method as a part of a class. -/
def methodPart (onClass : Bool) (m : Method) : ClassPart :=
  if onClass then .classMethod m else .instanceMethod m

/-- The methods of the class itself, or those of its instances. -/
def Interface.methods (i : Interface) (onClass : Bool) : List Method :=
  if onClass then i.classMethods else i.instanceMethods

lemma readClassPart_of_sign (s : Bool) {onClass : Bool} {t : Token}
    (hk : t.kind = signKind onClass) (ts : List Token) :
    readClassPart s (t :: ts)
      = Production.reading (do return [methodPart onClass (← methodBody s)])
          s ts := by
  cases onClass with
  | false =>
      have hk : t.kind = .minus := hk
      rw [readClassPart, hk]
      rfl
  | true =>
      have hk : t.kind = .plus := hk
      rw [readClassPart, hk]
      rfl

lemma readClassPart_of_atProperty (s : Bool) {t : Token}
    (hk : t.kind = .atProperty) (ts : List Token) :
    readClassPart s (t :: ts)
      = Production.reading (do return [.property (← propertyBody s)]) s ts := by
  rw [readClassPart, hk]

/-- A production that is read as one part. -/
lemma reading_onePart {α : Type} {p : Production α} {f : α → ClassPart}
    {ts rest : List Token} {a : α} (h : p.result ts = (.ok a, rest))
    (s : Bool) :
    Production.reading (do return [f (← p)]) s ts
      = ⟨[f a], s, rest, none⟩ :=
  reading_of_ok s (by rw [result_bind_of_ok h, result_pure])

/-! ### Tokens of a text -/

/-- A plain token of a text that is not the end can be read again. -/
lemma readable_of_mem_tokenize {text : String} {t : Token}
    (h : t ∈ tokenize rules text) (hk : t.kind ≠ .endOfInput)
    (hp : t.face.Plain) : Readable rules t.face := by
  have hface : t.face ∈ facesOf rules text.toList ++ [(.endOfInput, "")] :=
    map_face_tokenize rules text ▸ List.mem_map_of_mem h
  rcases List.mem_append.mp hface with hface | hface
  · exact readable_of_mem_facesOf hp hface
  · exact absurd (congrArg Prod.fst (List.mem_singleton.mp hface)) hk

lemma readable_of_identifier {text : String} {t : Token}
    (h : t ∈ tokenize rules text) (hk : t.kind = .identifier) :
    Readable rules (.identifier, t.value) := by
  have hface : t.face = (.identifier, t.value) := by rw [Token.face, hk]
  rw [← hface]
  exact readable_of_mem_tokenize h (by simp [hk])
    (by simp [hface, Face.Plain])

lemma passed_of_mem_tokenize {text : String} {us rest : List Token}
    (hr : Reaches (us ++ rest) rest)
    (hmem : ∀ u ∈ us, u ∈ tokenize rules text)
    (hp : ∀ u ∈ us, u.face.Plain) : Passed rules (us ++ rest) rest :=
  ⟨us, rfl, fun u hu =>
    readable_of_mem_tokenize (hmem u hu) (hr.forall_ne u hu) (hp u hu)⟩

/-! ### The tokens of members -/

/-- The method is read of the tokens, which stand behind its sign. -/
def Method.ReadFrom (m : Method) (ts : List Token) (onClass : Bool)
    (span : List Token) : Prop :=
  ∃ before sign after inScope, ts = before ++ sign :: (span ++ after)
    ∧ sign.kind = signKind onClass
    ∧ (methodBody inScope).result (span ++ after) = (.ok m, after)

/-- The type of the property is read of the tokens, which stand behind its
attributes. -/
def Property.ReadFrom (p : Property) (ts type : List Token) : Prop :=
  ∃ before keyword attributes row rest inScope,
    ts = before ++ keyword :: (attributes ++ (type ++ row))
    ∧ keyword.kind = .atProperty
    ∧ (propertyBody inScope).result (attributes ++ (type ++ row))
      = (.ok p, rest)
    ∧ propertyAttributes.result (attributes ++ (type ++ row))
      = (.ok p.attributes, type ++ row)
    ∧ (typeText (type ++ row)).2 = row

/-! ### Where members stand -/

/-- The places of a class in its header: that of its name, and that of its
body. -/
lemma exists_body_of_mem_interfaces {file text : String} {i : Interface}
    (h : i ∈ (readHeader rules file text).interfaces) :
    ∃ head name us s row,
      Reaches (tokenize rules text) (name :: us) ∧ name.kind = .identifier
        ∧ i.name = name.value ∧ Reaches (tokenize rules text) row
        ∧ i = Interface.ofParts head
          (readAll bodyStops readClassPart ClassPart.ofFailure s row).1 := by
  have hitems : i ∈ ((readAll [] readItem Item.ofFailure false
      (closeTokens (tokenize rules text))).1).filterMap Item.interface? := h
  rw [(endsOnce_tokenize rules text).closeTokens_eq, readAll_fst,
    List.filterMap_flatMap, List.mem_flatMap] at hitems
  obtain ⟨⟨s, place⟩, hplace, hmem⟩ := hitems
  obtain ⟨hreach, hend, -⟩ := allOrderly_readItem.reaches_place _ _ hplace
  obtain ⟨t, rest, rfl, hk⟩ := exists_cons_of_atEnd_eq_false hend
  have hreport : ((readItem s (t :: rest)).failure?.map
      Item.ofFailure).toList.filterMap Item.interface? = [] := by
    cases (readItem s (t :: rest)).failure? <;> rfl
  rw [Reading.found, List.filterMap_append, hreport, List.append_nil] at hmem
  by_cases hclass : t.kind = .atInterface
  · have hread : readItem s (t :: rest) = readInterface s rest := by
      rw [readItem, hclass]
    rw [hread] at hmem
    rcases hres : interfaceHead.result rest with ⟨f | head, row⟩
    · rw [readInterface_of_error hres] at hmem
      exact absurd hmem List.not_mem_nil
    · rw [readInterface_of_ok hres] at hmem
      dsimp only at hmem
      rw [items_closeContainer, filterMap_interface?_classItems,
        List.mem_singleton] at hmem
      obtain ⟨name, us, rfl, hname, hvalue⟩ :=
        exists_cons_of_interfaceHead hres
      have hbehind := hreach.trans (.pass hk (.refl _))
      exact ⟨head, name, us, s, row, hbehind, hname, hmem ▸ hvalue,
        hbehind.trans (onward_interfaceHead.reaches hres), hmem⟩
  · rw [interface?_readItem hclass] at hmem
    exact absurd hmem List.not_mem_nil

/-- A part that is no remark is read at a place of the body. -/
lemma exists_place_of_mem_parts {s : Bool} {row : List Token}
    {part : ClassPart}
    (h : part ∈ (readAll bodyStops readClassPart ClassPart.ofFailure s row).1)
    (hremark : part.remark? = none) :
    ∃ s' t rest, Reaches row (t :: rest) ∧ t.kind ≠ .endOfInput
      ∧ part ∈ (readClassPart s' (t :: rest)).items := by
  rw [readAll_fst, List.mem_flatMap] at h
  obtain ⟨⟨s', place⟩, hplace, hmem⟩ := h
  obtain ⟨hreach, hend, -⟩ := allOrderly_readClassPart.reaches_place _ _ hplace
  obtain ⟨t, rest, rfl, hk⟩ := exists_cons_of_atEnd_eq_false hend
  refine ⟨s', t, rest, hreach, hk, ?_⟩
  rcases List.mem_append.mp hmem with hmem | hmem
  · exact hmem
  · obtain ⟨f, -, rfl⟩ :=
      Option.map_eq_some_iff.mp (Option.mem_toList.mp hmem)
    cases hremark

/-- The one part that a production is read as. -/
lemma exists_of_mem_onePart {α : Type} {p : Production α}
    {f : α → ClassPart} {s : Bool} {ts : List Token} {part : ClassPart}
    (h : part ∈ (Production.reading (do return [f (← p)]) s ts).items) :
    ∃ a rest, p.result ts = (.ok a, rest) ∧ part = f a := by
  rcases hres : p.result ts with ⟨g | a, rest⟩
  · have hfail : (do return [f (← p)] : Production (List ClassPart)).result ts
        = (.error g, rest) := by
      rw [result_bind, hres]
    rw [reading_of_error s hfail] at h
    exact absurd h List.not_mem_nil
  · rw [reading_onePart hres] at h
    exact ⟨a, rest, rfl, List.mem_singleton.mp h⟩

/-- A part of a class that is a member is read behind the mark of its
kind. -/
lemma mem_readClassPart {s : Bool} {t : Token} {ts : List Token}
    {part : ClassPart} (h : part ∈ (readClassPart s (t :: ts)).items) :
    (t.kind = .atProperty ∧ ∃ p rest,
        (propertyBody s).result ts = (.ok p, rest) ∧ part = .property p)
      ∨ (∃ onClass m rest, t.kind = signKind onClass
        ∧ (methodBody s).result ts = (.ok m, rest)
        ∧ part = methodPart onClass m)
      ∨ part = .initUnavailable := by
  rw [readClassPart] at h
  split at h
  · rename_i hk
    exact .inl ⟨hk, exists_of_mem_onePart h⟩
  · rename_i hk
    obtain ⟨m, rest, hm, rfl⟩ := exists_of_mem_onePart h
    exact .inr (.inl ⟨false, m, rest, hk, hm, rfl⟩)
  · rename_i hk
    obtain ⟨m, rest, hm, rfl⟩ := exists_of_mem_onePart h
    exact .inr (.inl ⟨true, m, rest, hk, hm, rfl⟩)
  · exact absurd h List.not_mem_nil
  · split at h
    · exact .inr (.inr (List.mem_singleton.mp h))
    · exact absurd h List.not_mem_nil
  · exact absurd h List.not_mem_nil

lemma Interface.methods_ofParts (head : Interface)
    (parts : List ClassPart) (onClass : Bool) {m : Method}
    (h : m ∈ (head.ofParts parts).methods onClass) :
    methodPart onClass m ∈ parts := by
  cases onClass with
  | false =>
      obtain ⟨part, hpart, hm⟩ := List.mem_filterMap.mp h
      cases part <;> simp_all [ClassPart.instanceMethod?, methodPart]
  | true =>
      obtain ⟨part, hpart, hm⟩ := List.mem_filterMap.mp h
      cases part <;> simp_all [ClassPart.classMethod?, methodPart]

lemma Interface.properties_ofParts (head : Interface)
    (parts : List ClassPart) {p : Property}
    (h : p ∈ (head.ofParts parts).properties) : .property p ∈ parts := by
  obtain ⟨part, hpart, hp⟩ := List.mem_filterMap.mp h
  cases part <;> simp_all [ClassPart.property?]

/-- Each method of a class is read of tokens of the text. -/
lemma exists_readFrom_of_mem_methods {file text : String} {i : Interface}
    (hi : i ∈ (readHeader rules file text).interfaces) {onClass : Bool}
    {m : Method} (hm : m ∈ i.methods onClass) :
    ∃ span, m.ReadFrom (tokenize rules text) onClass span := by
  obtain ⟨head, -, -, s, row, -, -, -, hrow, rfl⟩ :=
    exists_body_of_mem_interfaces hi
  have hpart := Interface.methods_ofParts head _ onClass hm
  obtain ⟨s', t, rest, hreach, -, hmem⟩ :=
    exists_place_of_mem_parts hpart (by cases onClass <;> rfl)
  obtain ⟨before, hbefore⟩ := (hrow.trans hreach).suffix
  rcases mem_readClassPart hmem with ⟨-, p, -, -, hp⟩ | hmethod | hunavailable
  · cases onClass <;> cases hp
  · obtain ⟨onClass', m', after, hk, hread, heq⟩ := hmethod
    obtain ⟨rfl, rfl⟩ : onClass = onClass' ∧ m = m' := by
      cases onClass <;> cases onClass' <;> simp_all [methodPart]
    obtain ⟨span, rfl⟩ := ((onward_methodBody s').reaches hread).suffix
    exact ⟨span, before, t, after, s', hbefore.symm, hk, hread⟩
  · cases onClass <;> cases hunavailable

/-- So is the type of each property. -/
lemma exists_readFrom_of_mem_properties {file text : String} {i : Interface}
    (hi : i ∈ (readHeader rules file text).interfaces) {p : Property}
    (hp : p ∈ i.properties) :
    ∃ type, p.ReadFrom (tokenize rules text) type := by
  obtain ⟨head, -, -, s, row, -, -, -, hrow, rfl⟩ :=
    exists_body_of_mem_interfaces hi
  have hpart := Interface.properties_ofParts head _ hp
  obtain ⟨s', t, rest, hreach, -, hmem⟩ :=
    exists_place_of_mem_parts hpart rfl
  obtain ⟨before, hbefore⟩ := (hrow.trans hreach).suffix
  rcases mem_readClassPart hmem with hproperty | hmethod | hunavailable
  · obtain ⟨hk, p', last, hread, heq⟩ := hproperty
    obtain rfl := ClassPart.property.inj heq
    obtain ⟨mid, -, -, hattributes, -⟩ := exists_of_propertyBody hread
    obtain ⟨attributes, rfl⟩ :=
      (onward_propertyAttributes.reaches hattributes).suffix
    obtain ⟨type, htype⟩ := (reaches_typeText mid).suffix
    refine ⟨type, before, t, attributes, _, last, s', ?_, hk, ?_, ?_,
      congrArg (typeText ·|>.2) htype⟩
    · rw [htype]
      exact hbefore.symm
    · rwa [htype]
    · rwa [htype]
  · obtain ⟨onClass, m, -, -, -, heq⟩ := hmethod
    cases onClass <;> cases heq
  · cases hunavailable

end HeaderBinding
