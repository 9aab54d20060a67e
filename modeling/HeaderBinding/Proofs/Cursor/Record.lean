/-
Structures and their fields keep their place.

* `length_typeText_lt`: a type that is not empty was read from tokens;
* `RecordReading.Keeps`: reading part of a structure reaches what it
  leaves, and its failure names the token where it stopped;
* `keeps_readStruct`, `keeps_readFieldGroups`, `keeps_readFieldGroup`: the
  three readings that call each other, by induction on the number of
  tokens.
-/
import HeaderBinding.Proofs.Cursor.Orderly

namespace HeaderBinding

open Production

/-! ### Types that are not empty -/

/-- Pieces were read from tokens, if there are any. -/
def Consumes (r : List String × List Token) (ts : List Token) : Prop :=
  r.1 ≠ [] → r.2.length < ts.length

lemma consumes_takeKinds (kinds : List TokenKind) (ts : List Token)
    (hk : .endOfInput ∉ kinds) : Consumes (takeKinds kinds ts) ts := by
  fun_cases takeKinds kinds ts with
  | case1 => exact fun h => absurd rfl h
  | case2 t ts ht r =>
      exact fun _ => (reaches_takeKinds kinds ts hk).length_lt_cons
  | case3 t ts ht => exact fun h => absurd rfl h

lemma consumes_typeWords (ts : List Token) : Consumes (typeWords ts) ts := by
  fun_cases typeWords ts with
  | case1 => exact fun h => absurd rfl h
  | case2 t rest ht g hn =>
      exact fun _ => (reaches_anglesHere rest).length_lt_cons
  | case3 t rest ht g hn r =>
      exact fun _ => ((reaches_anglesHere rest).trans
        (reaches_typeWords g.2)).length_lt_cons
  | case4 t rest ht => exact fun h => absurd rfl h

lemma consumes_pointerMarks (prev : Option String) (ts : List Token) :
    Consumes (pointerMarks prev ts) ts := by
  fun_cases pointerMarks prev ts with
  | case1 => exact fun h => absurd rfl h
  | case2 t ts ht r =>
      exact fun _ => (reaches_pointerMarks _ ts).length_lt_cons
  | case3 t ts ht => exact fun h => absurd rfl h

/-- A type that is not empty was read from tokens. -/
lemma length_typeText_lt {ts : List Token} (h : (typeText ts).1 ≠ "") :
    (typeText ts).2.length < ts.length := by
  have hk := reaches_takeKinds typeKeywords ts (by decide)
  have hck := consumes_takeKinds typeKeywords ts (by decide)
  have hpieces : (typePieces ts).1 ≠ [] := by
    intro hnil
    exact h (by rw [typeText, hnil]; rfl)
  show (typePieces ts).2.length < ts.length
  revert hpieces
  rw [typePieces]
  dsimp only
  generalize takeKinds typeKeywords ts = k at hk hck ⊢
  have hw := reaches_typeWords k.2
  have hcw := consumes_typeWords k.2
  generalize typeWords k.2 = w at hw hcw ⊢
  have hp := reaches_pointerMarks (k.1 ++ w.1).getLast? w.2
  have hcp := consumes_pointerMarks (k.1 ++ w.1).getLast? w.2
  generalize pointerMarks (k.1 ++ w.1).getLast? w.2 = p at hp hcp ⊢
  have h1 := hk.length_le
  have h2 := hw.length_le
  have h3 := hp.length_le
  intro hpieces
  by_cases hn : headIsWord nullabilityWords p.2 = true
  · obtain ⟨t, rest, hcons, -⟩ := exists_cons_of_headIsWord hn
    rw [if_pos hn]
    simp only [hcons, List.length_cons, List.tail_cons] at h3 ⊢
    omega
  · rw [if_neg hn] at hpieces ⊢
    simp only [List.append_nil, List.append_eq_nil_iff, ne_eq,
      not_and_or] at hpieces
    show p.2.length < ts.length
    unfold Consumes at hck hcw hcp
    rcases hpieces with (h' | h') | h'
    · have := hck h'
      omega
    · have := hcw h'
      omega
    · have := hcp h'
      omega

/-! ### Structures -/

/-- Reading part of a structure reaches what it leaves, and its failure
names the token where it stopped. -/
def RecordReading.Keeps {α : Type} (r : RecordReading α) (ts : List Token) :
    Prop :=
  Reaches ts r.rest ∧ ∀ f, r.result = .error f → f.found = nextToken r.rest

lemma keeps_fieldsOf (nested : List StructDef) (base : String)
    (ts : List Token) : (fieldsOf nested base ts).Keeps ts :=
  onward_declarators base ts

/-- Where reading did not fail, it need only reach what it leaves. -/
lemma RecordReading.Keeps.of_ok {α : Type} {r : RecordReading α}
    {ts : List Token} {a : α} (h : Reaches ts r.rest)
    (hr : r.result = .ok a) : r.Keeps ts := by
  refine ⟨h, fun f hf => ?_⟩
  rw [hr] at hf
  cases hf

/-- Reading goes on from what another reading reached. -/
lemma RecordReading.Keeps.of_reaches {α : Type} {r : RecordReading α}
    {ts us : List Token} (h : Reaches ts us) (hr : r.Keeps us) :
    r.Keeps ts :=
  ⟨h.trans hr.1, hr.2⟩

/-- The brace behind the fields of a structure. -/
lemma RecordReading.Keeps.close {body : RecordReading (List StructField)}
    {ts : List Token} (h : body.Keeps ts) (name : String) :
    RecordReading.Keeps (match body.result with
      | .error f => ⟨body.nested, .error f, body.rest⟩
      | .ok fields =>
        let close := (expect .closeBrace .structBodyClose).run body.rest
        ⟨body.nested, (fun _ => StructDef.mk name fields) <$> close.1,
          close.2⟩) ts := by
  obtain ⟨nested, result, rest⟩ := body
  cases result with
  | error f => exact ⟨h.1, fun g hg => h.2 g (congrArg _ (Except.error.inj hg))⟩
  | ok fields =>
      have hclose := onward_expect .closeBrace .structBodyClose rest
      refine ⟨h.1.trans hclose.1, fun f hf => hclose.2 f ?_⟩
      show (Production.result _ rest).1 = _
      revert hf
      show (fun _ => StructDef.mk name fields) <$>
        (Production.result _ rest).1 = _ → _
      cases (Production.result (expect .closeBrace .structBodyClose)
          rest).1 with
      | ok t =>
          intro hf
          cases hf
      | error g => exact fun hf => congrArg _ (Except.error.inj hf)

/-- A structure keeps its place if the fields on every shorter row do. -/
lemma keeps_readStruct_of_shorter {ts : List Token}
    (hend : atEnd ts = false)
    (ih : ∀ us : List Token, us.length < ts.length →
      (readFieldGroups us).Keeps us) :
    (readStruct ts).Keeps ts ∧ (readStruct ts).rest.length < ts.length := by
  obtain ⟨t, rest, rfl, hk⟩ := exists_cons_of_atEnd_eq_false hend
  suffices h : (readStruct (t :: rest)).Keeps rest from
    ⟨h.of_reaches (.pass hk (.refl rest)), h.1.length_lt_cons⟩
  rw [readStruct]
  dsimp only
  have hbehind : Reaches rest
      (if headIs .identifier rest then rest.tail else rest) := by
    split
    · rename_i h
      exact reaches_tail_of_headIs (by decide) h
    · exact .refl _
  generalize (if headIs .identifier rest then rest.tail else rest)
    = behind at hbehind ⊢
  by_cases hopen : headIs .openBrace behind = true
  · have hbody := hbehind.trans (reaches_tail_of_headIs (by decide) hopen)
    rw [if_pos hopen]
    exact ((ih _ hbody.length_lt_cons).of_reaches hbody).close _
  · rw [if_neg hopen]
    exact .of_ok hbehind rfl

/-- A declaration of fields keeps its place and moves unless it fails, if
a structure on the same row does. -/
lemma keeps_readFieldGroup_of_struct {ts : List Token}
    (hend : atEnd ts = false)
    (hs : (readStruct ts).Keeps ts ∧ (readStruct ts).rest.length < ts.length) :
    (readFieldGroup ts).Keeps ts ∧
      ∀ fields, (readFieldGroup ts).result = .ok fields →
        (readFieldGroup ts).rest.length < ts.length := by
  rw [readFieldGroup]
  split
  · -- a directive
    rename_i hd
    obtain ⟨t, rest, rfl, hk⟩ := exists_cons_of_headIs hd
    exact ⟨.of_ok (reaches_tail_of_headIs (by decide) hd) rfl,
      fun _ _ => Nat.lt_succ_self _⟩
  split
  · -- a structure inside
    dsimp only
    split
    · rename_i f hf
      refine ⟨⟨hs.1.1, fun g hg =>
        hs.1.2 g (hf.trans (congrArg _ (Except.error.inj hg)))⟩,
        fun _ h => ?_⟩
      cases h
    · have hfields := fun nested base =>
        keeps_fieldsOf nested base (readStruct ts).rest
      exact ⟨(hfields _ _).of_reaches hs.1.1, fun _ _ =>
        Nat.lt_of_le_of_lt (hfields _ _).1.length_le hs.2⟩
  · -- a type and names
    dsimp only
    have htype := reaches_typeText ts
    split
    · refine ⟨.of_ok (htype.trans (reaches_step _)) rfl, fun _ _ => ?_⟩
      rcases Nat.lt_or_eq_of_le htype.length_le with hlt | heq
      · exact Nat.lt_of_le_of_lt (length_step_le _) hlt
      · rw [htype.suffix.eq_of_length heq]
        exact length_step_lt hend
    · rename_i hbase
      have hfields := keeps_fieldsOf [] (typeText ts).1 (typeText ts).2
      refine ⟨hfields.of_reaches htype, fun _ _ =>
        Nat.lt_of_le_of_lt hfields.1.length_le (length_typeText_lt ?_)⟩
      intro hempty
      exact hbase (by rw [hempty]; rfl)

/-- The structures inside a structure, its fields and its declarations
keep their place. -/
lemma keeps_readFieldGroups (ts : List Token) :
    (readFieldGroups ts).Keeps ts := by
  -- on the number of tokens: a structure inside a declaration is read
  -- from a row that is shorter than the one around it
  induction hn : ts.length using Nat.strongRecOn generalizing ts with
  | ind n ih =>
      subst hn
      rw [readFieldGroups]
      split
      · exact .of_ok (.refl ts) rfl
      · rename_i hgo
        rw [not_or, Bool.not_eq_true, Bool.not_eq_true] at hgo
        have hgroup := (keeps_readFieldGroup_of_struct hgo.2
          (keeps_readStruct_of_shorter hgo.2
            fun us hus => ih us.length hus us rfl)).1
        dsimp only
        split
        · rename_i f hf
          exact ⟨hgroup.1, fun g hg =>
            hgroup.2 g (hf.trans (congrArg _ (Except.error.inj hg)))⟩
        · split
          · rename_i hlt
            have hrest := ih _ hlt (readFieldGroup ts).rest rfl
            refine ⟨hgroup.1.trans hrest.1, fun f hf => hrest.2 f ?_⟩
            revert hf
            cases (readFieldGroups (readFieldGroup ts).rest).result with
            | error g => exact fun hf => congrArg _ (Except.error.inj hf)
            | ok fields =>
                intro hf
                cases hf
          · exact .of_ok hgroup.1 rfl

lemma keeps_readStruct {ts : List Token} (hend : atEnd ts = false) :
    (readStruct ts).Keeps ts ∧ (readStruct ts).rest.length < ts.length :=
  keeps_readStruct_of_shorter hend fun us _ => keeps_readFieldGroups us

/-- A declaration of fields keeps its place, and is passed over unless it
fails. -/
lemma keeps_readFieldGroup {ts : List Token} (hend : atEnd ts = false) :
    (readFieldGroup ts).Keeps ts ∧
      ∀ fields, (readFieldGroup ts).result = .ok fields →
        (readFieldGroup ts).rest.length < ts.length :=
  keeps_readFieldGroup_of_struct hend (keeps_readStruct hend)

end HeaderBinding
