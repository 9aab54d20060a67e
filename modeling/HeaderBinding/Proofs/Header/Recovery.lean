/-
The body of a class is read part by part: what stands behind a member does
not change how it is read, nor that it cannot be read.

* `MemberReader`: properties and methods, as parts of the body of a class;
* `exists_readsPart`: a part of a class stays within the tokens of its
  statement, or it takes the end of the class with it;
* `ReadsRun`: tokens that are read without a remark, and as the same
  whatever comes behind them; `readsRun_of_alone` has it for all that are
  read so in front of the end of a class;
* `OnlyRemark`: tokens that leave a remark and nothing else;
* `MemberRun.read_or_dropped`: a member whose brackets are nested is read
  or dropped, and the same wherever it stands.
-/
import HeaderBinding.Proofs.Cursor.Members
import HeaderBinding.Proofs.Header.Single
import HeaderBinding.Proofs.Header.RoundTrip

namespace HeaderBinding

open Production

/-! ### Members and the nonnull scope -/

lemma result_map {α β : Type} (f : α → β) (p : Production α)
    (ts : List Token) :
    (f <$> p).result ts = ((p.result ts).1.map f, (p.result ts).2) := by
  show (p >>= fun a => pure (f a)).result ts = _
  rw [result_bind]
  rcases p.result ts with ⟨g | a, rest⟩ <;> rfl

/-- The scope is noted in a property, and does nothing else to it. -/
lemma propertyBody_scope (s s' : Bool) :
    propertyBody s'
      = (fun p => { p with inNonnullScope := s' }) <$> propertyBody s := by
  simp only [propertyBody, map_bind, map_pure]

lemma methodBody_scope (s s' : Bool) :
    methodBody s'
      = (fun m => { m with inNonnullScope := s' }) <$> methodBody s := by
  simp only [methodBody, map_bind, apply_ite, map_pure]

/-- The part is a property or a method. -/
def ClassPart.IsMember (part : ClassPart) : Prop :=
  (part.property?.isSome || part.instanceMethod?.isSome
    || part.classMethod?.isSome) = true

/-- Members that begin with a mark: what is read of them behind it, and the
parts of the class that they become. -/
structure MemberReader (kind : TokenKind) {α : Type}
    (body : Bool → Production α) (part : α → ClassPart) : Prop where
  reads : ∀ {t}, t.kind = kind → ∀ s ts, readClassPart s (t :: ts)
    = Production.reading (do return [part (← body s)]) s ts
  scope : ∀ s s', ∃ f, body s' = f <$> body s
  onward : ∀ s, (body s).Onward
  stays : ∀ s {as}, Terminated as → (body s).Stays .past true as
  isMember : ∀ a, (part a).IsMember
  silent : ∀ a, (part a).remark? = none

lemma memberReader_property :
    MemberReader .atProperty propertyBody ClassPart.property where
  reads := fun ht s ts => by rw [readClassPart, ht]
  scope := fun s s' => ⟨_, propertyBody_scope s s'⟩
  onward := onward_propertyBody
  stays := fun s _ has =>
    grounds_past.stays_propertyBody has (stays_propertyAttributes has).2 s
  isMember := fun _ => rfl
  silent := fun _ => rfl

lemma memberReader_minus :
    MemberReader .minus methodBody ClassPart.instanceMethod where
  reads := fun ht s ts => by rw [readClassPart, ht]
  scope := fun s s' => ⟨_, methodBody_scope s s'⟩
  onward := onward_methodBody
  stays := fun s _ has => grounds_past.stays_methodBody has s
  isMember := fun _ => rfl
  silent := fun _ => rfl

lemma memberReader_plus :
    MemberReader .plus methodBody ClassPart.classMethod where
  reads := fun ht s ts => by rw [readClassPart, ht]
  scope := fun s s' => ⟨_, methodBody_scope s s'⟩
  onward := onward_methodBody
  stays := fun s _ has => grounds_past.stays_methodBody has s
  isMember := fun _ => rfl
  silent := fun _ => rfl

section MemberReader

variable {kind : TokenKind} {α : Type} {body : Bool → Production α}
  {part : α → ClassPart} (h : MemberReader kind body part) {t : Token}
  (ht : t.kind = kind)
include h ht

lemma MemberReader.readClassPart_of_ok {s : Bool} {ts rest : List Token}
    {a : α} (hres : (body s).result ts = (.ok a, rest)) :
    readClassPart s (t :: ts) = ⟨[part a], s, rest, none⟩ := by
  rw [h.reads ht]
  exact reading_of_ok s (result_bind_of_ok hres)

lemma MemberReader.readClassPart_of_error {s : Bool} {ts rest : List Token}
    {f : Failure} (hres : (body s).result ts = (.error f, rest)) :
    readClassPart s (t :: ts) = ⟨[], s, rest, some f⟩ := by
  rw [h.reads ht]
  refine reading_of_error s ?_
  rw [result_bind, hres]

omit ht in
/-- Whether a member can be read does not depend on the scope. -/
lemma MemberReader.exists_result (s s' : Bool) :
    ∃ f : α → α, ∀ ts, (body s').result ts
      = (((body s).result ts).1.map f, ((body s).result ts).2) := by
  obtain ⟨f, hf⟩ := h.scope s s'
  exact ⟨f, fun ts => by rw [hf, result_map]⟩

end MemberReader

/-! ### Parts that are read within some tokens -/

/-- From the tokens a part is read without a remark, and the same whatever
comes behind them; the others are left. -/
def ReadsPart (as rest : List Token) : Prop :=
  ∀ s, ∃ parts s', parts.filterMap ClassPart.remark? = []
    ∧ ∀ behind, readClassPart s (as ++ behind) = ⟨parts, s', rest ++ behind,
      none⟩

/-- A member of a statement is read within its tokens, or it takes the end
of the class with it. -/
lemma MemberReader.readsPart {kind : TokenKind} {α : Type}
    {body : Bool → Production α} {part : α → ClassPart}
    (h : MemberReader kind body part) {t : Token} (ht : t.kind = kind)
    {as behind : List Token} (has : Terminated as)
    (hbehind : headIs .atEnd behind = true) {s : Bool}
    (hfail : (readClassPart s (t :: as ++ behind)).failure? = none)
    (hle : behind.length
      ≤ (readClassPart s (t :: as ++ behind)).rest.length) :
    ∃ rest, rest <:+ as ∧ ReadsPart (t :: as) rest := by
  rcases h.stays s has with ⟨r, rest, -, hs, heq⟩ | hall
  · rcases r with f | a
    · rw [List.cons_append, h.readClassPart_of_error ht (heq behind)] at hfail
      cases hfail
    · refine ⟨rest, hs, fun s' => ?_⟩
      obtain ⟨g, hg⟩ := h.exists_result s s'
      refine ⟨[part (g a)], s', List.filterMap_cons_none (h.silent _),
        fun behind => ?_⟩
      rw [List.cons_append, h.readClassPart_of_ok ht]
      rw [hg, heq]
      rfl
  · have hpast := hall behind hbehind
    rcases hres : (body s).result (as ++ behind) with ⟨f | a, rest⟩
    · rw [List.cons_append, h.readClassPart_of_error ht hres] at hfail
      cases hfail
    · rw [hres] at hpast
      rw [List.cons_append, h.readClassPart_of_ok ht hres] at hle
      exact absurd (hpast.resolve_left Bool.false_ne_true) (Nat.not_lt.mpr hle)

/-- The ivars of a class in braces are read within the tokens, or they take
the end of the class with them. -/
lemma readsPart_braces {t : Token} (ht : t.kind = .openBrace)
    {as behind : List Token} (has : Terminated as)
    (hbehind : headIs .atEnd behind = true) {s : Bool}
    (hle : behind.length
      ≤ (readClassPart s (t :: as ++ behind)).rest.length) :
    ∃ rest, rest <:+ as ∧ ReadsPart (t :: as) rest := by
  have hread : ∀ s ts, readClassPart s (t :: ts)
      = ⟨[], s, skipGroup .openBrace .closeBrace 1 ts, none⟩ := fun s ts => by
    rw [readClassPart, ht]
  rw [List.cons_append, hread] at hle
  rcases (readsGroup_skipGroup .openBrace .closeBrace).within (by decide)
    (.inr has) 0 with ⟨b, rest, -, hs, heq⟩ | hall
  · refine ⟨rest, hs, fun s => ⟨[], s, rfl, fun behind => ?_⟩⟩
    have hskip : skipGroup .openBrace .closeBrace 1 (as ++ behind)
        = rest ++ behind := congrArg Prod.snd (heq behind)
    rw [List.cons_append, hread, hskip]
  · exact absurd ((hall behind hbehind).resolve_left Bool.false_ne_true)
      (Nat.not_lt.mpr hle)

/-- Any other token is a part of its own. -/
lemma readsPart_token {t : Token}
    (ht : t.kind ∉ .openBrace :: memberMarks) (as : List Token) :
    ReadsPart (t :: as) as := by
  simp only [memberMarks, List.mem_cons, List.not_mem_nil, or_false, not_or]
    at ht
  intro s
  by_cases hword : t.kind = .identifier
  · refine ⟨if saysInitUnavailable t.value then [.initUnavailable] else [], s,
      ?_, fun behind => ?_⟩
    · split <;> rfl
    · rw [List.cons_append, readClassPart, hword]
  · refine ⟨[], (scopeMarker? t.kind).getD s, rfl, fun behind => ?_⟩
    rw [List.cons_append, readClassPart]
    split
    · rename_i hk
      exact absurd hk ht.2.1
    · rename_i hk
      exact absurd hk ht.2.2.1
    · rename_i hk
      exact absurd hk ht.2.2.2
    · rename_i hk
      exact absurd hk ht.1
    · rename_i hk
      exact absurd hk hword
    · rfl

/-- Every part of a class is read within the tokens of a statement, or it
takes the end of the class with it. -/
theorem exists_readsPart {t : Token} {as behind : List Token}
    (has : Terminated (t :: as)) (hbehind : headIs .atEnd behind = true)
    {s : Bool} (hfail : (readClassPart s (t :: as ++ behind)).failure? = none)
    (hle : behind.length
      ≤ (readClassPart s (t :: as ++ behind)).rest.length) :
    ∃ rest, rest <:+ as ∧ ReadsPart (t :: as) rest := by
  by_cases ht : t.kind ∈ .openBrace :: memberMarks
  · have hrest := has.of_cons fun h => by
      rw [h] at ht
      revert ht
      decide
    simp only [memberMarks, List.mem_cons, List.not_mem_nil, or_false] at ht
    rcases ht with ht | ht | ht | ht
    · exact readsPart_braces ht hrest hbehind hle
    · exact memberReader_property.readsPart ht hrest hbehind hfail hle
    · exact memberReader_minus.readsPart ht hrest hbehind hfail hle
    · exact memberReader_plus.readsPart ht hrest hbehind hfail hle
  · exact ⟨as, List.suffix_refl as, readsPart_token ht as⟩

/-! ### Runs of members -/

/-- The body of a class: its parts, the scope behind them and the tokens
that are left. -/
def readBody (s : Bool) (ts : List Token) :
    List ClassPart × Bool × List Token :=
  readAll bodyStops readClassPart ClassPart.ofFailure s ts

/-- The token ends neither the body nor the header. -/
def Token.GoesOn (t : Token) : Prop :=
  t.kind ∉ .endOfInput :: bodyStops

instance : DecidablePred Token.GoesOn :=
  fun t => inferInstanceAs (Decidable (t.kind ∉ _))

lemma Token.GoesOn.stops_eq_false {t : Token} (ht : t.GoesOn)
    (ts : List Token) :
    atEnd (t :: ts) = false ∧ headIn bodyStops (t :: ts) = false := by
  obtain ⟨hend, hstop⟩ := not_or.mp (mt List.mem_cons.mpr ht)
  exact ⟨atEnd_cons_eq_false.mpr hend, by simpa using hstop⟩

/-- The first part of a body, and those behind it. -/
lemma readBody_cons {s : Bool} {t : Token} {ts : List Token}
    (ht : t.GoesOn) :
    readBody s (t :: ts)
      = let r := readClassPart s (t :: ts)
        let q := readBody r.state (r.next (t :: ts))
        (r.found ClassPart.ofFailure ++ q.1, q.2) := by
  obtain ⟨hend, hstop⟩ := ht.stops_eq_false ts
  rw [readBody, readAll, dif_neg (by simp [hend, hstop])]
  rfl

/-- A part of the body that is read, and the parts behind it. -/
lemma readBody_of_ok {s s' : Bool} {t : Token} {ts rest : List Token}
    {parts : List ClassPart} (ht : t.GoesOn)
    (h : readClassPart s (t :: ts) = ⟨parts, s', rest, none⟩)
    (hle : rest.length ≤ ts.length) :
    readBody s (t :: ts)
      = (parts ++ (readBody s' rest).1, (readBody s' rest).2) := by
  simp [readBody_cons ht, h, Reading.next, Reading.found,
    Nat.lt_succ_of_le hle]

/-- A part of the body that fails, and the parts behind the place where
reading goes on. -/
lemma readBody_of_error {s : Bool} {t : Token} {ts rest : List Token}
    {f : Failure} (ht : t.GoesOn)
    (h : readClassPart s (t :: ts) = ⟨[], s, rest, some f⟩)
    (hle : rest.length ≤ ts.length) :
    readBody s (t :: ts)
      = (.remark f.diagnostic :: (readBody s (recover rest)).1,
        (readBody s (recover rest)).2) := by
  simp [readBody_cons ht, h, Reading.next, Reading.found, ClassPart.ofFailure,
    Nat.lt_succ_of_le hle]

lemma reaches_readBody (s : Bool) (ts : List Token) :
    Reaches ts (readBody s ts).2.2 := by
  have hremarked : Remarked ts (readBody s ts).2.2
      ((readBody s ts).1.filterMap ClassPart.remark?) :=
    allOrderly_readClassPart.remarked (fun _ => rfl) s ts
  exact hremarked.reaches

/-- The tokens are read as parts of a class without a remark, and as the
same whatever comes behind them. -/
def ReadsRun (as : List Token) : Prop :=
  ∀ s, ∃ parts s', parts.filterMap ClassPart.remark? = []
    ∧ ∀ behind, readBody s (as ++ behind)
      = (parts ++ (readBody s' behind).1, (readBody s' behind).2)

lemma readsRun_nil : ReadsRun [] :=
  fun s => ⟨[], s, rfl, fun _ => rfl⟩

lemma ReadsPart.readBody_eq {t : Token} {as rest : List Token}
    (h : ReadsPart (t :: as) rest) (hs : rest <:+ as) (ht : t.GoesOn)
    (s : Bool) :
    ∃ parts s', parts.filterMap ClassPart.remark? = []
      ∧ ∀ behind, readBody s (t :: as ++ behind)
        = (parts ++ (readBody s' (rest ++ behind)).1,
          (readBody s' (rest ++ behind)).2) := by
  obtain ⟨parts, s', hparts, hread⟩ := h s
  refine ⟨parts, s', hparts, fun behind => readBody_of_ok ht (hread behind) ?_⟩
  simpa using hs.length_le

lemma ReadsPart.readsRun {t : Token} {as rest : List Token}
    (h : ReadsPart (t :: as) rest) (hs : rest <:+ as) (ht : t.GoesOn)
    (hrest : ReadsRun rest) : ReadsRun (t :: as) := by
  intro s
  obtain ⟨parts, s', hparts, hpart⟩ := h.readBody_eq hs ht s
  obtain ⟨more, s'', hmore, hread⟩ := hrest s'
  refine ⟨parts ++ more, s'', ?_, fun behind => ?_⟩
  · rw [List.filterMap_append, hparts, hmore, List.nil_append]
  · rw [hpart, hread, List.append_assoc]

/-- Without a remark, reading did not fail. -/
lemma Reading.of_found_eq_nil {σ α : Type} {remark? : α → Option Diagnostic}
    {report : Failure → α} {r : Reading σ α}
    (h : (r.found report).filterMap remark? = [])
    (hrep : ∀ f, remark? (report f) = some f.diagnostic) :
    r.failure? = none ∧ r.items.filterMap remark? = [] := by
  rw [Reading.found, List.filterMap_append, List.append_eq_nil_iff] at h
  refine ⟨?_, h.1⟩
  cases hf : r.failure? with
  | none => rfl
  | some f =>
      have hfail := h.2
      rw [hf, Option.map_some, Option.toList_some,
        List.filterMap_cons_some (hrep f)] at hfail
      exact absurd hfail (List.cons_ne_nil _ _)

/-- Without a remark the first part of a body is read, and what is left of
the body is left of the part. -/
lemma readClassPart_of_clean {s : Bool} {t : Token} {ts : List Token}
    (ht : t.GoesOn)
    (hclean : (readBody s (t :: ts)).1.filterMap ClassPart.remark? = []) :
    (readClassPart s (t :: ts)).failure? = none
      ∧ (readBody s (t :: ts)).2.2.length
        ≤ (readClassPart s (t :: ts)).rest.length := by
  obtain ⟨hend, hstop⟩ := ht.stops_eq_false ts
  rw [readBody_cons ht] at hclean ⊢
  dsimp only at hclean ⊢
  rw [List.filterMap_append, List.append_eq_nil_iff] at hclean
  exact ⟨(Reading.of_found_eq_nil hclean.1 fun _ => rfl).1,
    ((allOrderly_readClassPart s (t :: ts) hend hstop).reaches_next
      hend |>.trans (reaches_readBody _ _)).length_le⟩

/-- What is read without a remark in front of the end of a class is read so
in front of anything. -/
theorem readsRun_of_alone {as behind : List Token}
    (has : as = [] ∨ Terminated as) (hmarks : ∀ t ∈ as, t.GoesOn)
    (hbehind : headIs .atEnd behind = true) {s : Bool}
    (hclean : (readBody s (as ++ behind)).1.filterMap ClassPart.remark? = [])
    (hle : behind.length ≤ (readBody s (as ++ behind)).2.2.length) :
    ReadsRun as := by
  induction hlength : as.length using Nat.strongRecOn
    generalizing as s with
  | _ n ih =>
      rcases as with _ | ⟨t, as⟩
      · exact readsRun_nil
      replace has := has.resolve_left (List.cons_ne_nil t as)
      rw [List.forall_mem_cons] at hmarks
      -- the first part does not fail, and stays in front of the end
      obtain ⟨hfail, hpassed⟩ := readClassPart_of_clean hmarks.1 hclean
      obtain ⟨rest, hs, hpart⟩ :=
        exists_readsPart has hbehind hfail (Nat.le_trans hle hpassed)
      obtain ⟨parts, s', hparts, hread⟩ := hpart.readBody_eq hs hmarks.1 s
      rw [hread] at hclean hle
      rw [List.filterMap_append, hparts, List.nil_append] at hclean
      have hrest := has.rest (hs.trans (List.suffix_cons t as))
      exact hpart.readsRun hs hmarks.1
        (ih _ (hlength ▸ Nat.lt_succ_of_le hs.length_le) hrest
          (fun u hu => hmarks.2 u (hs.subset hu)) hclean hle rfl)

/-! ### Members that fail -/

/-- One statement: its last token is its only semicolon, and none ends the
body around it. -/
def IsStatement (as : List Token) : Prop :=
  ∃ init s, as = init ++ [s] ∧ s.kind = .semicolon
    ∧ ∀ t ∈ init, t.kind ≠ .semicolon ∧ t.GoesOn

lemma IsStatement.endsInSemicolon {as : List Token} (h : IsStatement as) :
    Terminated as := by
  obtain ⟨init, s, has, hs, -⟩ := h
  exact ⟨init, s, has, hs⟩

lemma IsStatement.of_suffix {as bs : List Token} (h : IsStatement as)
    (hs : bs <:+ as) (hne : bs ≠ []) : IsStatement bs := by
  obtain ⟨init, s, rfl, hk, hall⟩ := h
  obtain ⟨init', rfl, hinit⟩ :=
    (List.suffix_concat_iff.mp hs).resolve_left hne
  exact ⟨init', s, rfl, hk, fun t ht => hall t (hinit.subset ht)⟩

/-- Reading goes on behind the statement. -/
lemma IsStatement.recover_append {as : List Token} (h : IsStatement as)
    (behind : List Token) : recover (as ++ behind) = behind := by
  obtain ⟨init, s, rfl, hk, hall⟩ := h
  rw [List.append_assoc]
  induction init with
  | nil =>
      rw [List.nil_append, List.singleton_append, recover,
        if_neg (by rw [hk]; decide), if_pos hk]
  | cons t init ih =>
      rw [List.forall_mem_cons] at hall
      have hgo : ¬(t.kind = .endOfInput ∨ containerMarks.contains t.kind) := by
        simpa [Token.GoesOn, bodyStops, containerMarks] using hall.1.2
      rw [List.cons_append, recover, if_neg hgo, if_neg hall.1.1]
      exact ih hall.2

/-- Wherever they stand in the body of a class, the tokens leave the remark
and nothing else. -/
def OnlyRemark (d : Diagnostic) (as : List Token) : Prop :=
  ∀ s behind, readBody s (as ++ behind)
    = (.remark d :: (readBody s behind).1, (readBody s behind).2)

/-- The remark stands at one of the tokens. -/
def Diagnostic.Among (d : Diagnostic) (as : List Token) : Prop :=
  ∃ t ∈ as, d.line = t.line ∧ d.column = t.column

/-- The first part of the body is a member. -/
def StartsWithMember (parts : List ClassPart) : Prop :=
  ∃ part more, parts = part :: more ∧ part.IsMember

/-- A member that is read within its statement is read wherever it stands,
or it is dropped there. -/
lemma MemberReader.read_or_dropped {kind : TokenKind} {α : Type}
    {body : Bool → Production α} {part : α → ClassPart}
    (h : MemberReader kind body part) {t : Token} (ht : t.kind = kind)
    (hmark : kind ∈ memberMarks) {as : List Token} (has : IsStatement as)
    (hstays : (body false).Stays .never true as) :
    (∀ s behind, StartsWithMember (readBody s (t :: as ++ behind)).1)
      ∨ ∃ d, d.Among as ∧ OnlyRemark d (t :: as) := by
  have hgo : t.GoesOn := by
    rw [← ht] at hmark
    simp only [memberMarks, List.mem_cons, List.not_mem_nil, or_false] at hmark
    rcases hmark with hk | hk | hk <;> rw [Token.GoesOn, hk] <;> decide
  rcases hstays with ⟨r, rest, hend, hs, heq⟩ | hall
  swap
  · exact (hall []).elim
  have hle : ∀ behind : List Token,
      (rest ++ behind).length ≤ (as ++ behind).length := fun behind => by
    simpa using hs.length_le
  have hres : ∀ s, ∃ g : α → α, ∀ behind, (body s).result (as ++ behind)
      = (r.map g, rest ++ behind) := fun s => by
    obtain ⟨g, hg⟩ := h.exists_result false s
    exact ⟨g, fun behind => by rw [hg, heq]⟩
  rcases r with f | a
  · have hne : rest ≠ [] := fun hnil =>
      Bool.false_ne_true (hend hnil).2
    refine .inr ⟨f.diagnostic, ?_, fun s behind => ?_⟩
    · have hfound := (h.onward false).found_eq (heq [])
      rw [List.append_nil] at hfound
      have hmem := List.mem_of_head? (head?_eq_nextToken hne)
      exact ⟨nextToken rest, hs.subset hmem, Failure.diagnostic_at hfound⟩
    · obtain ⟨g, hg⟩ := hres s
      rw [List.cons_append, readBody_of_error hgo
        (h.readClassPart_of_error ht (hg behind)) (hle behind),
        (has.of_suffix hs hne).recover_append]
  · refine .inl fun s behind => ?_
    obtain ⟨g, hg⟩ := hres s
    rw [List.cons_append, readBody_of_ok hgo
      (h.readClassPart_of_ok ht (hg behind)) (hle behind)]
    exact ⟨part (g a), _, rfl, h.isMember _⟩

/-- The tokens of one member: a mark and a statement, in which parentheses
and angle brackets are nested.  The semicolon is not taken for the value of
an attribute: the attributes of a property leave something. -/
structure MemberRun (mark : Token) (as : List Token) : Prop where
  mark_mem : mark.kind ∈ memberMarks
  statement : IsStatement as
  nested : isNested memberBrackets [] (mark :: as) = true
  attributes : mark.kind = .atProperty → (propertyAttributes.result as).2 ≠ []

/-- Attributes that leave something stay in the statement. -/
lemma stays_propertyAttributes_of_ne_nil {as : List Token}
    (has : Terminated as) (hne : (propertyAttributes.result as).2 ≠ []) :
    propertyAttributes.Stays .never false as := by
  rcases (stays_propertyAttributes has).1 with hin | hall
  · exact .inl hin
  · have hle := hall []
    rw [List.append_nil] at hle
    exact absurd (List.eq_nil_of_length_eq_zero (Nat.le_zero.mp hle)) hne

/-- A member is read wherever it stands, or it is dropped there. -/
theorem MemberRun.read_or_dropped {mark : Token} {as : List Token}
    (h : MemberRun mark as) :
    (∀ s behind, StartsWithMember (readBody s (mark :: as ++ behind)).1)
      ∨ ∃ d, d.Among as ∧ OnlyRemark d (mark :: as) := by
  have hends := h.statement.endsInSemicolon
  have hgrounds : Terminated as
      ∧ ∃ due, isNested memberBrackets due as = true :=
    ⟨hends, _, (Bool.and_eq_true_iff.mp h.nested).2⟩
  have hmark := h.mark_mem
  simp only [memberMarks, List.mem_cons, List.not_mem_nil, or_false] at hmark
  rcases hmark with hk | hk | hk
  · exact memberReader_property.read_or_dropped hk (by decide) h.statement
      (grounds_nested.stays_propertyBody hgrounds
        (stays_propertyAttributes_of_ne_nil hends (h.attributes hk)) false)
  · exact memberReader_minus.read_or_dropped hk (by decide) h.statement
      (grounds_nested.stays_methodBody hgrounds false)
  · exact memberReader_plus.read_or_dropped hk (by decide) h.statement
      (grounds_nested.stays_methodBody hgrounds false)

end HeaderBinding
