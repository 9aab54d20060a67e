/-
Reading within tokens that end in a semicolon: what stands behind them is
not looked at.

* `Terminated`: tokens that end in a semicolon;
* `Overrun`: what may be left where all of them are passed over;
* `StopsIn`, `Within`: a function stops at one of the tokens, whatever
  comes behind them, or it passes over them all;
* `Production.Stays`: so does a production, and it may end right behind
  them;
* `Stays.bind`, `stays_accept_ite`, `Stays.repeated`, ...: one rule for
  each way to build a production;
* `ReadsGroup.within`: a group that is not closed in the tokens takes the
  end of the container with it.
-/
import HeaderBinding.Proofs.Cursor.Grammar

namespace HeaderBinding

/-! ### Statements -/

/-- The last of the tokens is a semicolon. -/
def Terminated (as : List Token) : Prop :=
  ∃ init s, as = init ++ [s] ∧ s.kind = .semicolon

lemma Terminated.ne_nil {as : List Token} (h : Terminated as) :
    as ≠ [] := by
  obtain ⟨init, s, rfl, -⟩ := h
  exact List.concat_ne_nil s init

lemma Terminated.of_suffix {as bs : List Token} (h : Terminated as)
    (hs : bs <:+ as) (hne : bs ≠ []) : Terminated bs := by
  obtain ⟨init, s, rfl, hk⟩ := h
  obtain ⟨init', rfl, -⟩ := (List.suffix_concat_iff.mp hs).resolve_left hne
  exact ⟨init', s, rfl, hk⟩

lemma Terminated.rest {as bs : List Token} (h : Terminated as)
    (hs : bs <:+ as) : bs = [] ∨ Terminated bs := by
  by_cases hnil : bs = []
  · exact .inl hnil
  · exact .inr (h.of_suffix hs hnil)

/-- A token that is no semicolon is not the last one. -/
lemma Terminated.of_cons {t : Token} {as : List Token}
    (h : Terminated (t :: as)) (hk : t.kind ≠ .semicolon) :
    Terminated as := by
  refine h.of_suffix (List.suffix_cons t as) ?_
  rintro rfl
  obtain ⟨init, s, heq, hs⟩ := h
  rw [← List.nil_append [t]] at heq
  obtain ⟨-, hlast⟩ := List.append_inj' heq rfl
  exact hk (List.singleton_inj.mp hlast ▸ hs)

/-! ### What stands next -/

section Next

variable {as : List Token} (hne : as ≠ []) (behind : List Token)
include hne

lemma headIs_append (kind : TokenKind) :
    headIs kind (as ++ behind) = headIs kind as := by
  obtain ⟨t, as, rfl⟩ := List.exists_cons_of_ne_nil hne
  rfl

lemma headIn_append (kinds : List TokenKind) :
    headIn kinds (as ++ behind) = headIn kinds as := by
  obtain ⟨t, as, rfl⟩ := List.exists_cons_of_ne_nil hne
  rfl

lemma headIsWord_append (words : List String) :
    headIsWord words (as ++ behind) = headIsWord words as := by
  obtain ⟨t, as, rfl⟩ := List.exists_cons_of_ne_nil hne
  rfl

lemma nextToken_append : nextToken (as ++ behind) = nextToken as := by
  obtain ⟨t, as, rfl⟩ := List.exists_cons_of_ne_nil hne
  rfl

lemma startsLabel_append :
    startsLabel (as ++ behind) = startsLabel as := by
  rw [startsLabel, startsLabel, headIs_append hne, headIsWord_append hne,
    headIn_append hne]

end Next

/-- Behind a token that is no semicolon stands another one. -/
lemma kindAt_one_append {as : List Token} (has : Terminated as)
    {kinds : List TokenKind} (hk : .semicolon ∉ kinds)
    (hhead : headIn kinds as = true) (behind : List Token) :
    kindAt 1 (as ++ behind) = kindAt 1 as := by
  obtain ⟨t, as, rfl, ht⟩ := exists_cons_of_headIn hhead
  have hne : t.kind ≠ .semicolon := fun h => hk (h ▸ ht)
  obtain ⟨u, as, rfl⟩ := List.exists_cons_of_ne_nil (has.of_cons hne).ne_nil
  rfl

lemma headIn_of_headIs {kind : TokenKind} {ts : List Token}
    (h : headIs kind ts = true) : headIn [kind] ts = true := by
  obtain ⟨t, ts, rfl, rfl⟩ := exists_cons_of_headIs h
  exact headIn_of_mem List.mem_cons_self ts

/-- A token of a kind, and the kind of the one behind it. -/
lemma headIs_kindAt_append {as : List Token} (has : Terminated as)
    {kind : TokenKind} (hk : kind ≠ .semicolon) (q : TokenKind → Prop)
    (behind : List Token) :
    (headIs kind (as ++ behind) = true ∧ q (kindAt 1 (as ++ behind)))
      ↔ (headIs kind as = true ∧ q (kindAt 1 as)) := by
  rw [headIs_append has.ne_nil]
  refine and_congr_right fun hhead => ?_
  rw [kindAt_one_append has (by simpa using hk.symm)
    (headIn_of_headIs hhead)]

/-! ### Reading that stays within the tokens -/

/-- What may be left when all tokens of a statement have been passed over:
it depends on whether the production failed, and on the tokens that came
behind.  A production that goes on does not change that. -/
structure Overrun where
  allows : Bool → List Token → List Token → Prop
  onward : ∀ {failed : Bool} {rest last behind : List Token},
    allows false rest behind → Reaches rest last → allows failed last behind

/-- Not all tokens are passed over. -/
def Overrun.never : Overrun where
  allows := fun _ _ _ => False
  onward := fun h _ => h

/-- Nothing more is said about what is left. -/
def Overrun.loose : Overrun where
  allows := fun _ rest behind => rest.length ≤ behind.length
  onward := fun h hr => Nat.le_trans hr.length_le h

/-- The end of a container behind the tokens is passed over too, or the
production fails. -/
def Overrun.past : Overrun where
  allows := fun failed rest behind => headIs .atEnd behind = true →
    failed = true ∨ rest.length < behind.length
  onward := fun h hr hend => .inr (Nat.lt_of_le_of_lt hr.length_le
    ((h hend).resolve_left Bool.false_ne_true))

/-- The function stops at one of the tokens, whatever comes behind them. -/
def StopsIn {β : Type} (f : List Token → β × List Token)
    (as : List Token) : Prop :=
  ∃ b rest, rest ≠ [] ∧ rest <:+ as
    ∧ ∀ behind, f (as ++ behind) = (b, rest ++ behind)

/-- The function stops at one of the tokens, or it passes over them all. -/
def Within {β : Type} (X : Overrun) (f : List Token → β × List Token)
    (as : List Token) : Prop :=
  StopsIn f as ∨ ∀ behind, X.allows false (f (as ++ behind)).2 behind

section Functions

variable {β γ : Type} {X : Overrun} {as : List Token}
  {f g : List Token → β × List Token}

lemma stopsIn_here (b : β) (hne : as ≠ [])
    (h : ∀ behind, f (as ++ behind) = (b, as ++ behind)) : StopsIn f as :=
  ⟨b, as, hne, List.suffix_refl as, h⟩

/-- One token is passed over before. -/
lemma StopsIn.cons {t : Token} {e : β → β}
    (heq : ∀ ts, f (t :: ts) = (e (g ts).1, (g ts).2)) (h : StopsIn g as) :
    StopsIn f (t :: as) := by
  obtain ⟨b, rest, hne, hs, hg⟩ := h
  exact ⟨e b, rest, hne, hs.trans (List.suffix_cons t as), fun behind => by
    rw [List.cons_append, heq, hg]⟩

/-- Something is made of what is read behind some of the tokens. -/
lemma Within.of_step {e : List Token → γ × List Token} {m : β → γ}
    {bs : List Token} (hbs : bs <:+ as)
    (heq : ∀ behind, e (as ++ behind)
      = (m (f (bs ++ behind)).1, (f (bs ++ behind)).2))
    (h : Within X f bs) : Within X e as := by
  rcases h with ⟨b, rest, hne, hs, hf⟩ | hall
  · exact .inl ⟨m b, rest, hne, hs.trans hbs, fun behind => by
      rw [heq, hf]⟩
  · refine .inr fun behind => ?_
    rw [heq]
    exact hall behind

end Functions

namespace Production

variable {α β : Type} {X : Overrun} {as : List Token}

/-- The production stops at one of the tokens and does the same whatever
comes behind them, or it passes over them all.  If it may end, it may also
succeed with nothing of the tokens left. -/
def Stays (X : Overrun) (mayEnd : Bool) (p : Production α)
    (as : List Token) : Prop :=
  (∃ r rest, (rest = [] → mayEnd = true ∧ r.isOk = true) ∧ rest <:+ as
      ∧ ∀ behind, p.result (as ++ behind) = (r, rest ++ behind))
    ∨ ∀ behind, X.allows (!(p.result (as ++ behind)).1.isOk)
        (p.result (as ++ behind)).2 behind

variable {mayEnd : Bool}

lemma stays_of_stopsIn {p : Production α} (h : StopsIn p.result as) :
    p.Stays X mayEnd as := by
  obtain ⟨r, rest, hne, hs, heq⟩ := h
  exact .inl ⟨r, rest, fun hnil => absurd hnil hne, hs, heq⟩

lemma stopsIn_of_stays {p : Production α} (h : p.Stays .never false as) :
    StopsIn p.result as := by
  rcases h with ⟨r, rest, hne, hs, heq⟩ | hall
  · exact ⟨r, rest, fun hnil => absurd (hne hnil).1 Bool.false_ne_true, hs,
      heq⟩
  · exact (hall []).elim

/-! ### Rules -/

lemma stopsIn_scan {f : List Token → α × List Token} (h : StopsIn f as) :
    StopsIn (scan f).result as := by
  obtain ⟨b, rest, hne, hs, heq⟩ := h
  exact ⟨.ok b, rest, hne, hs, fun behind => by rw [result_scan, heq]⟩

lemma stays_scan {f : List Token → α × List Token} (h : Within X f as) :
    (scan f).Stays X mayEnd as := by
  rcases h with ⟨b, rest, hne, hs, heq⟩ | hall
  · exact stays_of_stopsIn (stopsIn_scan ⟨b, rest, hne, hs, heq⟩)
  · exact .inr hall

lemma stopsIn_pure (hne : as ≠ []) (a : α) :
    StopsIn (pure a : Production α).result as :=
  ⟨.ok a, as, hne, List.suffix_refl as, fun _ => rfl⟩

lemma isOk_map (g : α → β) (r : Except Failure α) :
    (r.map g).isOk = r.isOk := by
  cases r <;> rfl

/-- A production that makes something of what another one gives behind some
of the tokens. -/
lemma Stays.of_map {p : Production β} {q : Production α} {bs : List Token}
    {g : α → β} (hbs : bs <:+ as)
    (heq : ∀ behind, p.result (as ++ behind)
      = ((q.result (bs ++ behind)).1.map g, (q.result (bs ++ behind)).2))
    (h : q.Stays X mayEnd bs) : p.Stays X mayEnd as := by
  rcases h with ⟨r, rest, hend, hs, hq⟩ | hall
  · refine .inl ⟨r.map g, rest, ?_, hs.trans hbs, fun behind => by
      rw [heq, hq]⟩
    rwa [isOk_map]
  · refine .inr fun behind => ?_
    rw [heq]
    exact (isOk_map g _).symm ▸ hall behind

/-- A production that does what another one does behind some of the
tokens. -/
lemma Stays.of_result {p q : Production α} {bs : List Token}
    (hbs : bs <:+ as)
    (heq : ∀ behind, p.result (as ++ behind) = q.result (bs ++ behind))
    (h : q.Stays X mayEnd bs) : p.Stays X mayEnd as :=
  h.of_map hbs (fun behind => by rw [heq, Except.map_id]; rfl)

/-- One production behind another that stops. -/
lemma stays_bind_of_stopsIn {p : Production α} {k : α → Production β}
    (hp : StopsIn p.result as)
    (hk : ∀ a rest, rest ≠ [] → rest <:+ as → (k a).Stays X mayEnd rest) :
    (p >>= k).Stays X mayEnd as := by
  obtain ⟨r, rest, hne, hs, heq⟩ := hp
  cases r with
  | error f =>
      exact stays_of_stopsIn ⟨.error f, rest, hne, hs, fun behind => by
        rw [result_bind, heq]⟩
  | ok a =>
      exact (hk a rest hne hs).of_result hs fun behind =>
        result_bind_of_ok (heq behind)

/-- One production behind another.  What goes on behind the tokens keeps
its place. -/
theorem Stays.bind {p : Production α} {k : α → Production β}
    (hp : p.Stays X false as) (hon : ∀ a, (k a).Onward)
    (hk : ∀ a rest, rest ≠ [] → rest <:+ as → (k a).Stays X mayEnd rest) :
    (p >>= k).Stays X mayEnd as := by
  rcases hp with ⟨r, rest, hend, hs, heq⟩ | hall
  · exact stays_bind_of_stopsIn ⟨r, rest,
      fun hnil => absurd (hend hnil).1 Bool.false_ne_true, hs, heq⟩ hk
  · refine .inr fun behind => ?_
    have hbehind := hall behind
    rw [result_bind]
    rcases hres : p.result (as ++ behind) with ⟨f | a, mid⟩
    · rw [hres] at hbehind
      exact hbehind
    · rw [hres] at hbehind
      exact X.onward hbehind (hon a mid).1

lemma Stays.ite {c : Prop} [Decidable c] {p q : Production α}
    (hp : p.Stays X mayEnd as) (hq : q.Stays X mayEnd as) :
    (if c then p else q).Stays X mayEnd as := by
  split
  · exact hp
  · exact hq

/-- Something is seen at the first tokens. -/
lemma stays_look_bind {c : List Token → α} {k : α → Production β}
    (hc : ∀ behind, c (as ++ behind) = c as)
    (hk : (k (c as)).Stays X mayEnd as) :
    (look c >>= k).Stays X mayEnd as :=
  hk.of_result (List.suffix_refl as) fun behind => by
    rw [result_bind_of_ok (result_look _ _), hc]

lemma stays_skip_bind {f : List Token → List Token} {bs : List Token}
    {k : Unit → Production β} (hbs : bs <:+ as)
    (hf : ∀ behind, f (as ++ behind) = bs ++ behind)
    (hk : (k ()).Stays X mayEnd bs) : (skip f >>= k).Stays X mayEnd as :=
  hk.of_result hbs fun behind => by
    rw [result_bind_of_ok (result_skip _ _), hf]

lemma stays_advance_bind {t : Token} {k : Token → Production β}
    (ht : t.kind ≠ .endOfInput) (hk : (k t).Stays X mayEnd as) :
    (advance >>= k).Stays X mayEnd (t :: as) :=
  hk.of_result (List.suffix_cons t as) fun behind => by
    rw [result_bind_of_ok (result_advance _), List.cons_append, nextToken_cons,
      step_cons ht]

/-- A mark that is no semicolon may stand next. -/
lemma stopsIn_accept (has : Terminated as) {kind : TokenKind}
    (hk : kind ≠ .semicolon) : StopsIn (accept kind).result as := by
  cases hhead : headIs kind as with
  | false =>
      refine ⟨.ok false, as, has.ne_nil, List.suffix_refl as, fun behind => ?_⟩
      rw [result_accept_of_not_headIs (by rwa [headIs_append has.ne_nil])]
  | true =>
      obtain ⟨t, as, rfl, rfl⟩ := exists_cons_of_headIs hhead
      refine ⟨.ok true, as, (has.of_cons hk).ne_nil, List.suffix_cons t as,
        fun behind => ?_⟩
      rw [result_accept_of_headIs (by rwa [headIs_append has.ne_nil])]
      rfl

/-- One of two productions, behind a mark that may come next. -/
lemma stays_accept_ite (has : Terminated as) {kind : TokenKind}
    (hk : kind ≠ .semicolon) {p q : Production α}
    (hp : ∀ t rest, as = t :: rest → t.kind = kind → Terminated rest →
      p.Stays X mayEnd rest) (hq : q.Stays X mayEnd as) :
    (accept kind >>= fun b => if b = true then p else q).Stays X mayEnd
      as := by
  cases hhead : headIs kind as with
  | false =>
      refine hq.of_result (List.suffix_refl as) fun behind => ?_
      rw [result_bind_of_ok (result_accept_of_not_headIs
        (by rwa [headIs_append has.ne_nil])), if_neg Bool.false_ne_true]
  | true =>
      obtain ⟨t, rest, rfl, rfl⟩ := exists_cons_of_headIs hhead
      refine (hp t rest rfl rfl (has.of_cons hk)).of_result
        (List.suffix_cons t rest) fun behind => ?_
      rw [result_bind_of_ok (result_accept_of_headIs
        (by rwa [headIs_append has.ne_nil])), if_pos rfl]
      rfl

/-- A mark that is no semicolon is due. -/
lemma stopsIn_expect (has : Terminated as) {kind : TokenKind}
    (hk : kind ≠ .semicolon) (hend : kind ≠ .endOfInput)
    (due : Expectation) : StopsIn (expect kind due).result as := by
  cases hhead : headIs kind as with
  | false =>
      refine ⟨.error (.missing due (nextToken as)), as, has.ne_nil,
        List.suffix_refl as, fun behind => ?_⟩
      rw [expect, result_bind_of_ok (result_look _ _),
        headIs_append has.ne_nil, hhead, if_neg Bool.false_ne_true,
        result_bind_of_ok (result_look _ _), nextToken_append has.ne_nil]
      rfl
  | true =>
      obtain ⟨t, as, rfl, rfl⟩ := exists_cons_of_headIs hhead
      exact ⟨.ok t, as, (has.of_cons hk).ne_nil, List.suffix_cons t as,
        fun behind => result_expect_cons rfl hend due (as ++ behind)⟩

lemma stopsIn_expectIdentifier (has : Terminated as)
    (due : Expectation) : StopsIn (expectIdentifier due).result as :=
  stopsIn_of_stays (stays_bind_of_stopsIn
    (stopsIn_expect has (by decide) (by decide) due)
    fun _ _ hne _ => stays_of_stopsIn (stopsIn_pure hne _))

lemma stopsIn_identifierOrEmpty (has : Terminated as) :
    StopsIn identifierOrEmpty.result as := by
  refine stopsIn_of_stays (stays_bind_of_stopsIn (stopsIn_of_stays ?_)
    fun _ _ hne _ => stays_of_stopsIn (stopsIn_pure hne _))
  refine stays_look_bind (headIs_append has.ne_nil · .identifier) ?_
  cases hhead : headIs .identifier as with
  | false =>
      rw [if_neg Bool.false_ne_true]
      exact stays_of_stopsIn (stopsIn_pure has.ne_nil _)
  | true =>
      rw [if_pos rfl]
      obtain ⟨t, as, rfl, hk⟩ := exists_cons_of_headIs hhead
      exact stays_advance_bind (by simp [hk]) (stays_of_stopsIn
        (stopsIn_pure (has.of_cons (by simp [hk])).ne_nil _))

/-- The semicolon may end what is read, and nothing else is left to do. -/
lemma stays_semicolon (has : Terminated as) (a : α) :
    (accept .semicolon >>= fun _ => (pure a : Production α)).Stays X true
      as := by
  cases hhead : headIs .semicolon as with
  | false =>
      refine stays_of_stopsIn ⟨.ok a, as, has.ne_nil, List.suffix_refl as,
        fun behind => ?_⟩
      rw [result_bind_of_ok (result_accept_of_not_headIs
        (by rwa [headIs_append has.ne_nil])), result_pure]
  | true =>
      obtain ⟨t, as, rfl, hk⟩ := exists_cons_of_headIs hhead
      refine .inl ⟨.ok a, as, fun _ => ⟨rfl, rfl⟩, List.suffix_cons t as,
        fun behind => ?_⟩
      rw [result_bind_of_ok (result_accept_of_headIs
        (by rwa [headIs_append has.ne_nil])), result_pure]
      rfl

/-- A production over and over. -/
theorem Stays.repeated {p : Production (Option α)} (hon : p.Onward)
    (hne : as ≠ [])
    (h : ∀ bs, bs ≠ [] → bs <:+ as → p.Stays X false bs) :
    (repeated p).Stays X false as := by
  induction hlength : as.length using Nat.strongRecOn generalizing as with
  | _ n ih =>
      rcases h as hne (List.suffix_refl as) with
        ⟨r, rest, hend, hs, heq⟩ | hall
      · have hrest : rest ≠ [] := fun hnil =>
          absurd (hend hnil).1 Bool.false_ne_true
        have hlen : ∀ behind : List Token,
            (rest ++ behind).length < (as ++ behind).length
              ↔ rest.length < as.length := fun behind => by
          rw [List.length_append, List.length_append,
            Nat.add_lt_add_iff_right]
        rcases r with f | _ | a
        · exact stays_of_stopsIn ⟨.error f, rest, hrest, hs, fun behind =>
            result_repeated_of_error (heq behind)⟩
        · exact stays_of_stopsIn ⟨.ok [], rest, hrest, hs, fun behind =>
            result_repeated_of_none (heq behind)⟩
        by_cases hlt : rest.length < as.length
        · exact (ih _ (hlength ▸ hlt) hrest
            (fun bs hbs hsuffix => h bs hbs (hsuffix.trans hs)) rfl).of_map hs
            fun behind =>
              result_repeated_of_some (heq behind) ((hlen behind).mpr hlt)
        · exact stays_of_stopsIn ⟨.ok [a], rest, hrest, hs, fun behind =>
            result_repeated_of_stuck (heq behind) (mt (hlen behind).mp hlt)⟩
      · refine .inr fun behind => ?_
        have hbehind := hall behind
        rcases hres : p.result (as ++ behind) with ⟨f | a?, mid⟩
        · rw [hres] at hbehind
          rw [result_repeated_of_error hres]
          exact hbehind
        · rw [hres] at hbehind
          exact X.onward hbehind (reaches_repeated hon hres)

/-- What is yielded behind a comma. -/
lemma onward_behindComma {p : Production α} (hon : p.Onward) :
    (accept .comma >>= fun b =>
      if b = true then p >>= fun a => pure (some a) else pure none).Onward :=
  (onward_accept (by decide)).bind fun _ =>
    (hon.bind fun _ => onward_pure _).ite (onward_pure _)

/-- Productions with commas between them. -/
lemma Stays.commaSeparated {p : Production α} (hon : p.Onward)
    (has : Terminated as)
    (h : ∀ bs, Terminated bs → bs <:+ as → p.Stays X false bs) :
    (commaSeparated p).Stays X false as := by
  refine (h as has (List.suffix_refl as)).bind (fun _ => ?_)
    fun first bs hne hs => ?_
  · exact (onward_behindComma hon).repeated.bind fun _ => onward_pure _
  refine (Stays.repeated (onward_behindComma hon) hne fun cs hcs hsc => ?_).bind
    (fun _ => onward_pure _)
    fun others _ hne _ => stays_of_stopsIn (stopsIn_pure hne _)
  refine stays_bind_of_stopsIn
    (stopsIn_accept (has.of_suffix (hsc.trans hs) hcs) (by decide))
    fun hasComma ds hds hsd => Stays.ite ?_ (stays_of_stopsIn
      (stopsIn_pure hds _))
  have hsd' := hsd.trans (hsc.trans hs)
  exact (h ds (has.of_suffix hsd' hds) hsd').bind (fun _ => onward_pure _)
    fun _ _ hne _ => stays_of_stopsIn (stopsIn_pure hne _)

/-- A mark that is due right behind the tokens is not the end of a
container. -/
theorem Stays.expect_past {p : Production α} (hon : p.Onward)
    (hp : p.Stays .loose false as) (has : Terminated as)
    {kind : TokenKind} (hk : kind ∉ [.semicolon, .endOfInput, .atEnd])
    (due : Expectation) (g : α → β) :
    (p >>= fun a => expect kind due >>= fun _ => pure (g a)).Stays .past false
      as := by
  simp only [List.mem_cons, List.not_mem_nil, or_false, not_or] at hk
  have hexpect : ∀ a, (expect kind due >>= fun _ =>
      (pure (g a) : Production β)).Onward := fun a =>
    (onward_expect kind due).bind fun _ => onward_pure _
  rcases hp with ⟨r, rest, hne, hs, heq⟩ | hall
  · refine stays_bind_of_stopsIn ⟨r, rest,
      fun hnil => absurd (hne hnil).1 Bool.false_ne_true, hs, heq⟩
      fun a bs hbs hsb => ?_
    exact stays_bind_of_stopsIn
      (stopsIn_expect (has.of_suffix hsb hbs) hk.1 hk.2.1 due)
      fun _ _ hne _ => stays_of_stopsIn (stopsIn_pure hne _)
  refine .inr fun behind hend => ?_
  have hle := hall behind
  rw [result_bind]
  rcases hres : p.result (as ++ behind) with ⟨f | a, mid⟩
  · exact .inl rfl
  rw [hres] at hle
  have hsuffix : mid <:+ behind := List.suffix_of_suffix_length_le
    (hon.reaches hres).suffix (List.suffix_append as behind) hle
  rcases Nat.lt_or_ge mid.length behind.length with hlt | hge
  · exact .inr (Nat.lt_of_le_of_lt (hexpect a mid).1.length_le hlt)
  · -- nothing behind the tokens has been read, and the mark is missing
    obtain rfl := hsuffix.eq_of_length_le hge
    have hhead : headIs kind mid = false :=
      headIs_eq_false (headIn_of_headIs hend) (by simpa using hk.2.2)
    refine .inl ?_
    show (!((expect kind due >>= fun _ =>
      (pure (g a) : Production β)).result mid).1.isOk) = true
    rw [result_bind, expect, result_bind_of_ok (result_look _ mid), hhead,
      if_neg Bool.false_ne_true, result_bind_of_ok (result_look _ mid)]
    rfl

end Production

/-! ### Reading up to the semicolon -/

section Kinds

variable {as : List Token} (has : Terminated as)
include has

lemma stopsIn_takeKinds {kinds : List TokenKind}
    (hk : .semicolon ∉ kinds) : StopsIn (takeKinds kinds) as := by
  induction as with
  | nil => exact absurd rfl has.ne_nil
  | cons t as ih =>
      by_cases ht : kinds.contains t.kind = true
      · have hne : t.kind ≠ .semicolon := fun h =>
          hk (h ▸ List.contains_iff_mem.mp ht)
        refine (ih (has.of_cons hne)).cons (e := (t.value :: ·))
          fun ts => ?_
        rw [takeKinds, if_pos ht]
      · refine stopsIn_here [] has.ne_nil fun behind => ?_
        rw [List.cons_append, takeKinds, if_neg ht]

lemma stopsIn_pointerMarks (prev : Option String) :
    StopsIn (pointerMarks prev) as := by
  induction as generalizing prev with
  | nil => exact absurd rfl has.ne_nil
  | cons t as ih =>
      by_cases ht : t.kind = .asterisk ∨ (t.kind = .kwConst ∧ prev = some "*")
      · have hne : t.kind ≠ .semicolon := by
          rcases ht with ht | ht
          · simp [ht]
          · simp [ht.1]
        refine (ih (has.of_cons hne) (some t.value)).cons
          (e := (t.value :: ·)) fun ts => ?_
        rw [pointerMarks, if_pos ht]
      · refine stopsIn_here [] has.ne_nil fun behind => ?_
        rw [List.cons_append, pointerMarks, if_neg ht]

lemma stopsIn_trailingMacros : StopsIn trailingMacros as := by
  induction as with
  | nil => exact absurd rfl has.ne_nil
  | cons t as ih =>
      by_cases ht : t.kind = .identifier ∧ methodMacros.contains t.value
      · refine (ih (has.of_cons (by simp [ht.1]))).cons
          (e := (t.value :: ·)) fun ts => ?_
        rw [trailingMacros, if_pos ht]
      · refine stopsIn_here [] has.ne_nil fun behind => ?_
        rw [List.cons_append, trailingMacros, if_neg ht]

end Kinds

/-! ### Groups -/

/-- A function that reads a group in brackets, as deep as its first
argument says, and makes something of each token. -/
structure ReadsGroup {β : Type} (opener closer : TokenKind)
    (f : Nat → List Token → β × List Token) : Prop where
  closed : ∃ b, ∀ ts, f 0 ts = (b, ts)
  ended : ∃ b, ∀ depth t ts, t.kind = .endOfInput →
    f (depth + 1) (t :: ts) = (b, t :: ts)
  inside : ∀ t, ∃ e : β → β, ∀ depth ts, t.kind ≠ .endOfInput →
    f (depth + 1) (t :: ts)
      = (e (f (if t.kind = opener then depth + 2
          else if t.kind = closer then depth else depth + 1) ts).1,
        (f (if t.kind = opener then depth + 2
          else if t.kind = closer then depth else depth + 1) ts).2)
  reaches : ∀ depth ts, Reaches ts (f depth ts).2

lemma readsGroup_angleTail :
    ReadsGroup .openAngle .closeAngle angleTail where
  closed := ⟨[], fun ts => by rw [angleTail]⟩
  ended := ⟨[], fun depth t ts h => by rw [angleTail, if_pos h]⟩
  inside := fun t => ⟨(t.value :: ·), fun depth ts h => by
    rw [angleTail, if_neg h]⟩
  reaches := reaches_angleTail

lemma readsGroup_skipGroup (opener closer : TokenKind) :
    ReadsGroup opener closer
      fun depth ts => ((), skipGroup opener closer depth ts) where
  closed := ⟨(), fun ts => by rw [skipGroup]⟩
  ended := ⟨(), fun depth t ts h => by rw [skipGroup, if_pos h]⟩
  inside := fun t => ⟨id, fun depth ts h => by rw [skipGroup, if_neg h]⟩
  reaches := reaches_skipGroup opener closer

/-- A group that is not closed in the tokens takes the end of the container
with it. -/
theorem ReadsGroup.within {β : Type} {opener closer : TokenKind}
    {f : Nat → List Token → β × List Token}
    (h : ReadsGroup opener closer f) (hk : closer ≠ .semicolon)
    {as : List Token} (has : as = [] ∨ Terminated as) (depth : Nat) :
    Within .past (f (depth + 1)) as := by
  induction as generalizing depth with
  | nil =>
      refine .inr fun behind hend => .inr ?_
      obtain ⟨t, behind, rfl, ht⟩ := exists_cons_of_headIs hend
      obtain ⟨e, he⟩ := h.inside t
      rw [List.nil_append, he depth behind (by simp [ht])]
      exact (h.reaches _ behind).length_lt_cons
  | cons t as ih =>
      have has' := has.resolve_left (List.cons_ne_nil t as)
      by_cases ht : t.kind = .endOfInput
      · obtain ⟨b, hb⟩ := h.ended
        exact .inl (stopsIn_here b has'.ne_nil fun behind =>
          hb depth t (as ++ behind) ht)
      obtain ⟨e, he⟩ := h.inside t
      have hstep := fun ts => he depth ts ht
      have hzero : (if t.kind = opener then depth + 2
          else if t.kind = closer then depth else depth + 1) = 0 →
          t.kind = closer := fun hn => by
        split at hn
        · cases hn
        split at hn
        · assumption
        · cases hn
      generalize (if t.kind = opener then depth + 2
        else if t.kind = closer then depth else depth + 1) = next
        at hstep hzero
      cases next with
      | zero =>
          -- the group is closed, and not by the semicolon
          have hrest := has'.of_cons (by rwa [hzero rfl])
          obtain ⟨b, hb⟩ := h.closed
          exact .inl ((stopsIn_here b hrest.ne_nil fun behind =>
            hb (as ++ behind)).cons hstep)
      | succ next =>
          rcases ih (has'.rest (List.suffix_cons t as)) next with
            hstops | hall
          · exact .inl (hstops.cons hstep)
          · refine .inr fun behind => ?_
            rw [List.cons_append, hstep]
            exact hall behind

end HeaderBinding
