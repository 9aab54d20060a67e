/-
Productions never lose their place: whether they succeed or fail, they
reach what they leave, and a failure tells of the token where reading
stopped.

* `Production.result`, `result_bind`: what a production gives, one
  production behind another;
* `Production.Onward`: the fact, and its rules (`Onward.bind`,
  `onward_scan`, `onward_accept`, `onward_expect`, `Onward.repeated`,
  ...), one for each way to build a production;
* `exists_of_mem_repeated`: what is yielded over and over is yielded each
  time, somewhere on the way;
* `Production.Moves`: a production that yields something has read at least
  one token; `Onward.moves_behindMark` gives it to what is read behind a
  mark.
-/
import HeaderBinding.Proofs.Cursor.Reaches

namespace HeaderBinding

namespace Production

variable {α β : Type}

/-! ### What a production gives -/

/-- What a production makes of a row: its value or its failure, and the
tokens that are left. -/
def result (p : Production α) (ts : List Token) :
    Except Failure α × List Token :=
  p.run ts

@[simp] lemma result_pure (a : α) (ts : List Token) :
    (pure a : Production α).result ts = (.ok a, ts) := rfl

lemma eq_of_result_pure {a b : α} {ts rest : List Token}
    (h : (pure a : Production α).result ts = (.ok b, rest)) :
    a = b ∧ ts = rest :=
  ⟨Except.ok.inj (Prod.mk.inj h).1, (Prod.mk.inj h).2⟩

@[simp] lemma result_scan (f : List Token → α × List Token)
    (ts : List Token) : (scan f).result ts = (.ok (f ts).1, (f ts).2) := rfl

@[simp] lemma result_look (f : List Token → α) (ts : List Token) :
    (look f).result ts = (.ok (f ts), ts) := rfl

@[simp] lemma result_skip (f : List Token → List Token)
    (ts : List Token) : (skip f).result ts = (.ok (), f ts) := rfl

@[simp] lemma result_advance (ts : List Token) :
    advance.result ts = (.ok (nextToken ts), step ts) := rfl

@[simp] lemma result_throw (f : Failure) (ts : List Token) :
    (throw f : Production α).result ts = (.error f, ts) := rfl

/-- One production behind another. -/
lemma result_bind (p : Production α) (k : α → Production β)
    (ts : List Token) :
    (p >>= k).result ts =
      match p.result ts with
      | (.ok a, rest) => (k a).result rest
      | (.error f, rest) => (.error f, rest) := by
  show (p >>= k) ts = match p ts with
    | (.ok a, rest) => k a rest
    | (.error f, rest) => (.error f, rest)
  simp only [bind, ExceptT.bind, ExceptT.mk, StateT.bind]
  rcases p ts with ⟨f | a, rest⟩ <;> rfl

lemma result_bind_of_ok {p : Production α} {k : α → Production β}
    {ts rest : List Token} {a : α} (h : p.result ts = (.ok a, rest)) :
    (p >>= k).result ts = (k a).result rest := by
  rw [result_bind, h]

/-- Two productions succeed one behind the other only if both do. -/
lemma exists_of_result_bind {p : Production α} {k : α → Production β}
    {ts last : List Token} {b : β}
    (h : (p >>= k).result ts = (.ok b, last)) :
    ∃ a rest, p.result ts = (.ok a, rest)
      ∧ (k a).result rest = (.ok b, last) := by
  rw [result_bind] at h
  split at h
  · rename_i a rest hp
    exact ⟨a, rest, hp, h⟩
  · simp at h

lemma result_accept (kind : TokenKind) (ts : List Token) :
    (accept kind).result ts
      = if headIs kind ts then (.ok true, ts.tail) else (.ok false, ts) := by
  rw [accept, result_scan]
  split <;> rfl

lemma result_accept_of_headIs {kind : TokenKind} {ts : List Token}
    (h : headIs kind ts = true) :
    (accept kind).result ts = (.ok true, ts.tail) := by
  rw [result_accept, if_pos h]

lemma result_accept_of_not_headIs {kind : TokenKind} {ts : List Token}
    (h : headIs kind ts = false) :
    (accept kind).result ts = (.ok false, ts) := by
  rw [result_accept, h]
  rfl

/-- A token that is due and stands next is read. -/
lemma result_expect_cons {t : Token} {kind : TokenKind} (hk : t.kind = kind)
    (hend : kind ≠ .endOfInput) (due : Expectation) (ts : List Token) :
    (expect kind due).result (t :: ts) = (.ok t, ts) := by
  rw [expect, result_bind_of_ok (result_look _ _),
    if_pos (by simp [hk]), result_advance, step_cons (hk ▸ hend),
    nextToken_cons]

/-- An identifier that stands next is read. -/
lemma result_identifier?_cons {t : Token} (hk : t.kind = .identifier)
    (ts : List Token) :
    identifier?.result (t :: ts) = (.ok (some t.value), ts) := by
  rw [identifier?, result_bind_of_ok (result_look _ _),
    if_pos (by simp [hk]), result_bind_of_ok (result_advance _),
    result_pure, step_cons (by simp [hk]), nextToken_cons]

/-- A token that was due is the first one. -/
lemma eq_cons_of_result_expect {kind : TokenKind} {due : Expectation}
    {ts rest : List Token} {t : Token} (hk : kind ≠ .endOfInput)
    (h : (expect kind due).result ts = (.ok t, rest)) :
    ts = t :: rest ∧ t.kind = kind := by
  rw [expect, result_bind_of_ok (result_look _ ts)] at h
  split at h
  · rename_i hhead
    obtain ⟨u, us, rfl, rfl⟩ := exists_cons_of_headIs hhead
    rw [result_advance, step_cons hk, Prod.mk.injEq,
      Except.ok.injEq] at h
    obtain ⟨rfl, rfl⟩ := h
    exact ⟨rfl, rfl⟩
  · rw [result_bind_of_ok (result_look _ ts), result_throw] at h
    exact nomatch h

/-- The same of an identifier, of which only the text is kept. -/
lemma exists_cons_of_result_expectIdentifier {due : Expectation}
    {ts rest : List Token} {word : String}
    (h : (expectIdentifier due).result ts = (.ok word, rest)) :
    ∃ t, ts = t :: rest ∧ t.kind = .identifier ∧ t.value = word := by
  obtain ⟨t, mid, ht, h⟩ := exists_of_result_bind h
  rw [result_pure, Prod.mk.injEq, Except.ok.injEq] at h
  obtain ⟨rfl, rfl⟩ := h
  obtain ⟨hts, hk⟩ := eq_cons_of_result_expect (by decide) ht
  exact ⟨t, hts, hk, rfl⟩

/-! ### Productions that keep their place -/

/-- From a row the production reaches what it leaves, and if it fails, it
names the token that comes next then. -/
def OnwardAt (p : Production α) (ts : List Token) : Prop :=
  Reaches ts (p.result ts).2
    ∧ ∀ f, (p.result ts).1 = .error f → f.found = nextToken (p.result ts).2

/-- The production keeps its place on every row. -/
def Onward (p : Production α) : Prop :=
  ∀ ts, p.OnwardAt ts

lemma Onward.reaches {p : Production α} (h : p.Onward) {ts rest : List Token}
    {r : Except Failure α} (hr : p.result ts = (r, rest)) :
    Reaches ts rest := by
  have := (h ts).1
  rwa [hr] at this

lemma Onward.found_eq {p : Production α} (h : p.Onward)
    {ts rest : List Token} {f : Failure} (hr : p.result ts = (.error f, rest)) :
    f.found = nextToken rest := by
  have := (h ts).2 f
  rw [hr] at this
  exact this rfl

lemma onward_pure (a : α) : (pure a : Production α).Onward :=
  fun ts => ⟨.refl ts, fun f h => by simp at h⟩

lemma onward_scan {f : List Token → α × List Token}
    (h : ∀ ts, Reaches ts (f ts).2) : (scan f).Onward :=
  fun ts => ⟨h ts, fun f h => by simp at h⟩

lemma onward_look (f : List Token → α) : (look f).Onward :=
  fun ts => ⟨.refl ts, fun f h => by simp at h⟩

lemma onward_skip {f : List Token → List Token}
    (h : ∀ ts, Reaches ts (f ts)) : (skip f).Onward :=
  fun ts => ⟨h ts, fun f h => by simp at h⟩

lemma onward_advance : advance.Onward :=
  fun ts => ⟨reaches_step ts, fun f h => by simp at h⟩

lemma Onward.bind {p : Production α} {k : α → Production β}
    (hp : p.Onward) (hk : ∀ a, (k a).Onward) : (p >>= k).Onward := by
  intro ts
  rw [OnwardAt, result_bind]
  split
  · rename_i a rest hr
    have hrest := hp.reaches hr
    exact ⟨hrest.trans (hk a rest).1, (hk a rest).2⟩
  · rename_i f rest hr
    refine ⟨hp.reaches hr, fun g hg => ?_⟩
    rw [← Except.error.inj hg]
    exact hp.found_eq hr

lemma Onward.ite {c : Prop} [Decidable c] {p q : Production α}
    (hp : p.Onward) (hq : q.Onward) : (if c then p else q).Onward := by
  split
  · exact hp
  · exact hq

/-- Either of two productions and then the same. -/
lemma Onward.ite_bind {c : Prop} [Decidable c] {p q : Production α}
    {k : α → Production β} (hp : p.Onward) (hq : q.Onward)
    (hk : ∀ a, (k a).Onward) :
    (if c then p >>= k else q >>= k).Onward :=
  (hp.bind hk).ite (hq.bind hk)

/-- A production only where a condition holds, and then the same. -/
lemma Onward.when_bind {c : Prop} [Decidable c] {p : Production Unit}
    {k : Unit → Production β} (hp : p.Onward) (hk : (k ()).Onward) :
    (if c then p >>= k else k ()).Onward :=
  (hp.bind fun _ => hk).ite hk

lemma Onward.map {p : Production α} (f : α → β) (hp : p.Onward) :
    (f <$> p).Onward :=
  hp.bind fun a => onward_pure (f a)

/-- Behind a look at the row the first branch has to keep its place only
where the look allows it. -/
lemma onward_look_ite {c : List Token → Bool} {p q : Production α}
    (hp : ∀ ts, c ts = true → p.OnwardAt ts) (hq : q.Onward) :
    (look c >>= fun b => if b = true then p else q).Onward := by
  intro ts
  cases hc : c ts with
  | true =>
      have := hp ts hc
      rwa [OnwardAt, result_bind_of_ok (result_look c ts), hc, if_pos rfl]
  | false =>
      have := hq ts
      rwa [OnwardAt, result_bind_of_ok (result_look c ts), hc,
        if_neg Bool.false_ne_true]

/-- Passing over tokens in front of a production. -/
lemma Onward.skip_bind {f : List Token → List Token}
    {k : Unit → Production α} (hk : (k ()).Onward) {ts : List Token}
    (hf : Reaches ts (f ts)) : (skip f >>= k).OnwardAt ts :=
  ⟨hf.trans (hk (f ts)).1, (hk (f ts)).2⟩

/-- A failure that names the next token; what would come behind it does
not matter. -/
lemma onward_throw_next {k : Token → Production α} (g : Token → Failure)
    (hg : ∀ t, (g t).found = t)
    (hk : ∀ t ts, (k t).result ts = (.error (g t), ts)) :
    (look nextToken >>= k).Onward := by
  intro ts
  rw [OnwardAt, result_bind_of_ok (result_look nextToken ts), hk]
  refine ⟨.refl ts, fun f h => ?_⟩
  rw [← Except.error.inj h, hg]

lemma onward_accept {kind : TokenKind} (hk : kind ≠ .endOfInput) :
    (accept kind).Onward := by
  refine onward_scan fun ts => ?_
  split
  · rename_i h
    exact reaches_tail_of_headIs hk h
  · exact .refl ts

lemma onward_expect (kind : TokenKind) (due : Expectation) :
    (expect kind due).Onward :=
  (onward_look _).bind fun _ =>
    onward_advance.ite
      (onward_throw_next (.missing due) (fun _ => rfl) fun _ _ => rfl)

lemma onward_identifier? : identifier?.Onward :=
  (onward_look _).bind fun _ =>
    (onward_advance.bind fun _ => onward_pure _).ite (onward_pure _)

lemma onward_identifierOrEmpty : identifierOrEmpty.Onward :=
  onward_identifier?.bind fun _ => onward_pure _

lemma onward_expectIdentifier (due : Expectation) :
    (expectIdentifier due).Onward :=
  (onward_expect _ _).bind fun _ => onward_pure _

lemma Onward.repeated {p : Production (Option α)} (hp : p.Onward) :
    (repeated p).Onward := by
  intro ts
  show Reaches ts (repeatWhile p ts).2
    ∧ ∀ f, (repeatWhile p ts).1 = .error f
      → f.found = nextToken (repeatWhile p ts).2
  fun_induction repeatWhile p ts with
  | case1 ts f rest hr =>
      refine ⟨hp.reaches hr, fun g hg => ?_⟩
      rw [← Except.error.inj hg]
      exact hp.found_eq hr
  | case2 ts rest hr => exact ⟨hp.reaches hr, fun f h => by simp at h⟩
  | case3 ts a rest hr hlt as last hrec ih =>
      rw [hrec] at ih
      exact ⟨(hp.reaches hr).trans ih.1, fun f h => by simp at h⟩
  | case4 ts a rest hr hlt g last hrec ih =>
      rw [hrec] at ih
      exact ⟨(hp.reaches hr).trans ih.1, ih.2⟩
  | case5 ts a rest hr hlt =>
      exact ⟨hp.reaches hr, fun f h => by simp at h⟩

/-- What is yielded over and over is yielded each time, somewhere on the
way. -/
lemma exists_of_mem_repeated {p : Production (Option α)}
    (hp : p.Onward) {as : List α} {ts rest : List Token}
    (hr : (repeated p).result ts = (.ok as, rest)) {a : α} (ha : a ∈ as) :
    ∃ us mid, Reaches ts us ∧ p.result us = (.ok (some a), mid)
      ∧ Reaches mid rest := by
  replace hr : repeatWhile p ts = (.ok as, rest) := hr
  fun_induction repeatWhile p ts generalizing as with
  | case1 ts f mid hone => cases hr
  | case2 ts mid hone =>
      rw [← Except.ok.inj (Prod.mk.inj hr).1] at ha
      cases ha
  | case3 ts b mid hone hlt bs last hrec ih =>
      obtain ⟨has, rfl⟩ := Prod.mk.inj hr
      rw [← Except.ok.inj has] at ha
      have hlast : Reaches mid last := hp.repeated.reaches hrec
      rcases List.mem_cons.mp ha with rfl | ha
      · exact ⟨ts, mid, .refl ts, hone, hlast⟩
      · obtain ⟨us, behind, hus, hyield, hbehind⟩ := ih ha hrec
        exact ⟨us, behind, (hp.reaches hone).trans hus, hyield, hbehind⟩
  | case4 ts b mid hone hlt f last hrec ih => cases hr
  | case5 ts b mid hone hlt =>
      obtain ⟨has, rfl⟩ := Prod.mk.inj hr
      rw [← Except.ok.inj has, List.mem_singleton] at ha
      exact ⟨ts, mid, .refl ts, ha ▸ hone, .refl mid⟩

/-! ### Productions that read something when they yield something -/

/-- Whenever the production yields something, fewer tokens are left. -/
def Moves (p : Production (Option α)) : Prop :=
  ∀ ts a rest, p.result ts = (.ok (some a), rest) → rest.length < ts.length

/-- Repeating ends where nothing more is yielded. -/
lemma result_repeated_of_none {p : Production (Option α)}
    {ts rest : List Token} (h : p.result ts = (.ok none, rest)) :
    (repeated p).result ts = (.ok [], rest) := by
  have hrun : p.run ts = (.ok none, rest) := h
  show repeatWhile p ts = _
  rw [repeatWhile, hrun]

/-- A failure ends it. -/
lemma result_repeated_of_error {p : Production (Option α)}
    {ts rest : List Token} {f : Failure} (h : p.result ts = (.error f, rest)) :
    (repeated p).result ts = (.error f, rest) := by
  have hrun : p.run ts = (.error f, rest) := h
  show repeatWhile p ts = _
  rw [repeatWhile, hrun]

/-- It also ends with what is yielded where nothing was read. -/
lemma result_repeated_of_stuck {p : Production (Option α)}
    {ts rest : List Token} {a : α} (h : p.result ts = (.ok (some a), rest))
    (hge : ¬ rest.length < ts.length) :
    (repeated p).result ts = (.ok [a], rest) := by
  have hrun : p.run ts = (.ok (some a), rest) := h
  show repeatWhile p ts = _
  rw [repeatWhile, hrun]
  simp only [if_neg hge]

/-- What is yielded first stands in front of what is yielded behind it. -/
lemma result_repeated_of_some {p : Production (Option α)}
    {ts mid : List Token} {a : α} (h : p.result ts = (.ok (some a), mid))
    (hlt : mid.length < ts.length) :
    (repeated p).result ts
      = (((repeated p).result mid).1.map (a :: ·),
          ((repeated p).result mid).2) := by
  have hrun : p.run ts = (.ok (some a), mid) := h
  show repeatWhile p ts
    = ((repeatWhile p mid).1.map (a :: ·), (repeatWhile p mid).2)
  rw [repeatWhile, hrun]
  simp only [if_pos hlt]
  rcases repeatWhile p mid with ⟨f | as, last⟩ <;> rfl

lemma Moves.result_repeated {p : Production (Option α)} (hp : p.Moves)
    {ts mid : List Token} {a : α} (h : p.result ts = (.ok (some a), mid)) :
    (repeated p).result ts
      = (((repeated p).result mid).1.map (a :: ·),
          ((repeated p).result mid).2) :=
  result_repeated_of_some h (hp ts a mid h)

/-- It goes on from where the first round stopped. -/
lemma reaches_repeated {p : Production (Option α)} (hp : p.Onward)
    {ts mid : List Token} {a? : Option α} (h : p.result ts = (.ok a?, mid)) :
    Reaches mid ((repeated p).result ts).2 := by
  rcases a? with _ | a
  · rw [result_repeated_of_none h]
    exact .refl mid
  by_cases hlt : mid.length < ts.length
  · rw [result_repeated_of_some h hlt]
    exact (hp.repeated mid).1
  · rw [result_repeated_of_stuck h hlt]
    exact .refl mid

/-- What comes behind a mark is read after it. -/
lemma Onward.moves_behindMark {kind : TokenKind}
    {q : Production (Option β)} (hq : q.Onward) :
    (accept kind >>= fun b => if b = true then q else pure none).Moves := by
  intro ts a rest h
  cases hm : headIs kind ts with
  | true =>
      rw [result_bind_of_ok (result_accept_of_headIs hm), if_pos rfl] at h
      obtain ⟨t, us, rfl, -⟩ := exists_cons_of_headIs hm
      exact (hq.reaches h).length_lt_cons
  | false =>
      rw [result_bind_of_ok (result_accept_of_not_headIs hm),
        if_neg Bool.false_ne_true, result_pure] at h
      simp at h

/-- What comes behind a name is read after it. -/
lemma Onward.moves_behindName {k : Option String → Production (Option β)}
    (hk : ∀ name?, (k name?).Onward) (hn : k none = pure none) :
    (identifier? >>= k).Moves := by
  intro ts a rest h
  obtain ⟨name?, r, hr, hy⟩ := exists_of_result_bind h
  rw [identifier?, result_bind_of_ok (result_look _ ts)] at hr
  split at hr
  · rename_i hi
    obtain ⟨t, us, rfl, hk'⟩ := exists_cons_of_headIs hi
    have hend : atEnd (t :: us) = false :=
      atEnd_cons_eq_false.mpr (by simp [hk'])
    rw [result_bind_of_ok (result_advance _), result_pure] at hr
    simp only [Prod.mk.injEq] at hr
    rw [← hr.2] at hy
    exact Nat.lt_of_le_of_lt ((hk name?).reaches hy).length_le
      (length_step_lt hend)
  · simp only [result_pure, Prod.mk.injEq, Except.ok.injEq] at hr
    rw [← hr.1, hn, result_pure] at hy
    simp at hy

/-- Passing over tokens before does not matter. -/
lemma Moves.skip_bind {f : List Token → List Token}
    {k : Unit → Production (Option β)} (hf : ∀ ts, Reaches ts (f ts))
    (hk : (k ()).Moves) : (skip f >>= k).Moves := by
  intro ts a rest h
  rw [result_bind_of_ok (result_skip f ts)] at h
  exact Nat.lt_of_lt_of_le (hk _ a rest h) (hf ts).length_le

lemma Onward.commaSeparated {p : Production α} (hp : p.Onward) :
    (commaSeparated p).Onward :=
  hp.bind fun _ =>
    Onward.bind (Onward.repeated ((onward_accept (by decide)).bind fun _ =>
        (hp.bind fun _ => onward_pure _).ite (onward_pure _)))
      fun _ => onward_pure _

end Production

end HeaderBinding
