/-
Parameters of functions, with commas between them.

* `IsParameter`, `ParameterRow`: in a parameter a comma stands only inside
  brackets, and one stands between two parameters;
* `result_furtherParameters_row`: where all commas of the parameters stand
  inside parentheses, each parameter is read as one;
* `length_of_result_furtherParameters`: other commas inside brackets cut a
  parameter into parts, which are read as parameters of their own;
* `ParameterRow.closes_iff`: so the parameters are read as they stand
  exactly if all their commas stand inside parentheses.
-/
import Mathlib.Algebra.Order.Ring.Nat
import HeaderBinding.Proofs.Cursor.Brackets
import HeaderBinding.Proofs.Cursor.Grammar

namespace HeaderBinding

open Production

/-! ### Parameters -/

/-- The tokens of a parameter: they close the brackets that they open, and
a comma stands only inside brackets. -/
structure IsParameter (p : List Token) : Prop where
  ne_nil : p ≠ []
  nested : isNested plainBrackets [] p = true
  commas : commasInside plainBrackets plainBrackets.closers [] p = true
  named : headIs .ellipsis p = false

/-- Parameters and the tokens of the whole row, in which a comma stands
between two of them.  An ellipsis may be the last. -/
inductive ParameterRow : List (List Token) → List Token → Prop
  | last {p : List Token} (hp : IsParameter p) : ParameterRow [p] p
  | rest {t : Token} (ht : t.kind = .ellipsis) : ParameterRow [[t]] [t]
  | cons {p row : List Token} {c : Token} {ps : List (List Token)}
      (hp : IsParameter p) (hc : c.kind = .comma)
      (h : ParameterRow ps row) : ParameterRow (p :: ps) (p ++ c :: row)

/-- What is to be read of a parameter. -/
def readParameter (p : List Token) : Parameter :=
  if headIs .ellipsis p then ⟨restName, "...", false⟩ else splitParameter p

lemma IsParameter.readParameter_eq {p : List Token} (h : IsParameter p) :
    readParameter p = splitParameter p := by
  rw [readParameter, h.named]
  rfl

/-- The parameters from some place on. -/
def furtherParameters : Production (List Parameter) := do
  let named ← repeated functionParameter
  if ← accept .ellipsis then
    return named ++ [⟨restName, "...", false⟩]
  else return named

lemma result_functionParameters {ts : List Token}
    (h : saysVoid ts = false) :
    functionParameters.result ts = furtherParameters.result ts := by
  rw [functionParameters, result_bind_of_ok (result_look _ ts), h]
  rfl

/-- Nothing but an ellipsis is read where no parameter begins. -/
lemma result_furtherParameters_of_none {ts rest : List Token}
    (h : functionParameter.result ts = (.ok none, rest)) :
    furtherParameters.result ts
      = if headIs .ellipsis rest then
          (.ok [⟨restName, "...", false⟩], rest.tail)
        else (.ok [], rest) := by
  rw [furtherParameters, result_bind_of_ok (result_repeated_of_none h)]
  split
  · rename_i hdots
    rw [result_bind_of_ok (result_accept_of_headIs hdots)]
    rfl
  · rename_i hdots
    rw [result_bind_of_ok
      (result_accept_of_not_headIs (Bool.eq_false_iff.mpr hdots))]
    rfl

/-- A parameter stands in front of those behind it. -/
lemma result_furtherParameters_of_some {ts mid : List Token} {q : Parameter}
    (h : functionParameter.result ts = (.ok (some q), mid)) :
    furtherParameters.result ts
      = ((furtherParameters.result mid).1.map (q :: ·),
          (furtherParameters.result mid).2) := by
  have hrep := moves_functionParameter.result_repeated h
  rw [furtherParameters, result_bind, result_bind, hrep]
  rcases (repeated functionParameter).result mid with ⟨f | named, last⟩
  · rfl
  · cases hdots : headIs .ellipsis last with
    | true =>
        simp only [Except.map,
          result_bind_of_ok (result_accept_of_headIs hdots)]
        rfl
    | false =>
        simp only [Except.map,
          result_bind_of_ok (result_accept_of_not_headIs hdots)]
        rfl

lemma result_furtherParameters_close {c : Token} (hc : c.kind = .closeParen)
    (rest : List Token) :
    furtherParameters.result (c :: rest) = (.ok [], c :: rest) := by
  have hnone : functionParameter.result (c :: rest)
      = (.ok none, c :: rest) := by
    rw [functionParameter, result_bind_of_ok (result_look _ _),
      if_pos (by simp [hc]), result_pure]
  rw [result_furtherParameters_of_none hnone, if_neg (by simp [hc])]

lemma result_furtherParameters_ellipsis {t : Token}
    (ht : t.kind = .ellipsis) (rest : List Token) :
    furtherParameters.result (t :: rest)
      = (.ok [⟨restName, "...", false⟩], rest) := by
  have hnone : functionParameter.result (t :: rest)
      = (.ok none, t :: rest) := by
    rw [functionParameter, result_bind_of_ok (result_look _ _),
      if_pos (by simp [ht]), result_pure]
  rw [result_furtherParameters_of_none hnone, if_pos (by simp [ht])]
  rfl

/-- Where a parameter begins, its tokens are read, and a comma behind
them. -/
lemma result_functionParameter {ts p mid : List Token}
    (hgo : headIn [.closeParen, .ellipsis] ts = false)
    (hend : atEnd ts = false) (hp : parameterTokens 0 ts = (p, mid)) :
    functionParameter.result ts
      = (.ok (some (splitParameter p)),
          if headIs .comma mid then mid.tail else mid) := by
  rw [functionParameter, result_bind_of_ok (result_look _ _), hgo, hend,
    Bool.or_self, if_neg Bool.false_ne_true,
    result_bind_of_ok (result_scan _ _), hp]
  cases hc : headIs .comma mid with
  | true =>
      rw [result_bind_of_ok (result_accept_of_headIs hc)]
      rfl
  | false =>
      rw [result_bind_of_ok (result_accept_of_not_headIs hc)]
      rfl

/-! ### Parameters that are read as one -/

/-- A parameter may begin with the next token of nested ones. -/
lemma begins_of_isNested {due : List TokenKind} {t : Token}
    {ts : List Token} (hdue : .closeParen ∉ due)
    (h : isNested plainBrackets due (t :: ts) = true)
    (ht : t.kind ≠ .ellipsis) (rest : List Token) :
    headIn [.closeParen, .ellipsis] (t :: ts ++ rest) = false
      ∧ atEnd (t :: ts ++ rest) = false := by
  rw [isNested, Bool.and_eq_true] at h
  refine ⟨?_, atEnd_cons_eq_false.mpr (ne_end_of_fits h.1)⟩
  have hclose : t.kind ≠ .closeParen := by
    intro hk
    have := pair_plain_paren.count_pos h.1 hk
    exact hdue (List.count_pos_iff.mp this)
  simp [hclose, ht]

/-- A parameter without a free comma is read whole, up to what ends it. -/
lemma IsParameter.result_functionParameter {p : List Token}
    (hp : IsParameter p)
    (hfree : freeCommas plainBrackets .closeParen [] p = 0)
    {c : Token} (hc : c.kind = .comma ∨ c.kind = .closeParen)
    (rest : List Token) :
    functionParameter.result (p ++ c :: rest)
      = (.ok (some (splitParameter p)),
          if c.kind = .comma then rest else c :: rest) := by
  have htokens : parameterTokens 0 (p ++ c :: rest) = (p, c :: rest) :=
    parameterTokens_append pair_plain_paren hp.nested hfree
      (by simpa using hc)
  obtain ⟨t, ts, rfl⟩ := List.exists_cons_of_ne_nil hp.ne_nil
  have hgo := begins_of_isNested List.not_mem_nil hp.nested
    (by simpa using hp.named) (c :: rest)
  rw [HeaderBinding.result_functionParameter hgo.1 hgo.2 htokens]
  simp

/-- Where all commas of the parameters stand inside parentheses, each
parameter is read as one. -/
theorem result_furtherParameters_row {ps : List (List Token)}
    {row : List Token} (h : ParameterRow ps row)
    (hfree : ∀ p ∈ ps, freeCommas plainBrackets .closeParen [] p = 0)
    {c : Token} (hc : c.kind = .closeParen) (rest : List Token) :
    furtherParameters.result (row ++ c :: rest)
      = (.ok (ps.map readParameter), c :: rest) := by
  induction h with
  | last hp =>
      have hone := hp.result_functionParameter
        (hfree _ (List.mem_singleton_self _)) (.inr hc) rest
      rw [if_neg (by simp [hc])] at hone
      rw [result_furtherParameters_of_some hone,
        result_furtherParameters_close hc, List.map_singleton,
        hp.readParameter_eq]
      rfl
  | rest ht =>
      rw [List.singleton_append, result_furtherParameters_ellipsis ht]
      simp [readParameter, ht]
  | @cons p row comma ps hp hcomma _ ih =>
      rw [List.forall_mem_cons] at hfree
      have hone := hp.result_functionParameter hfree.1 (.inl hcomma)
        (row ++ c :: rest)
      rw [if_pos hcomma] at hone
      rw [List.append_assoc, List.cons_append,
        result_furtherParameters_of_some hone, ih hfree.2, List.map_cons,
        hp.readParameter_eq]
      rfl

/-! ### Parameters that are cut -/

/-- A list of parameters ends at a closing parenthesis. -/
def Closes (r : Except Failure (List Parameter) × List Token)
    (qs : List Parameter) : Prop :=
  r.1 = .ok qs ∧ headIs .closeParen r.2 = true

/-- Behind a parameter the others have to be read up to there as well. -/
lemma Closes.of_some {ts mid : List Token} {q : Parameter}
    {qs : List Parameter} (h : Closes (furtherParameters.result ts) qs)
    (hone : functionParameter.result ts = (.ok (some q), mid)) :
    ∃ qs', qs = q :: qs' ∧ Closes (furtherParameters.result mid) qs' := by
  rw [result_furtherParameters_of_some hone] at h
  obtain ⟨hq, hclose⟩ := h
  rcases hmid : furtherParameters.result mid with ⟨f | qs', last⟩
  · rw [hmid] at hq
    exact nomatch hq
  · rw [hmid] at hq hclose
    exact ⟨qs', (Except.ok.inj hq).symm, rfl, hclose⟩

/-- Nothing nested stands behind an ellipsis. -/
lemma Closes.eq_singleton {due : List TokenKind} {t c : Token}
    {us rest : List Token} {qs : List Parameter} (hdue : .closeParen ∉ due)
    (hnested : isNested plainBrackets due (t :: us) = true)
    (ht : t.kind = .ellipsis)
    (h : Closes (furtherParameters.result (t :: us ++ c :: rest)) qs) :
    us = [] ∧ qs.length = 1 := by
  have hbehind : dueBehind plainBrackets due t = due := by
    rw [dueBehind, ht]
    rfl
  rw [List.cons_append, result_furtherParameters_ellipsis ht] at h
  cases us with
  | nil => exact ⟨rfl, congrArg List.length (Except.ok.inj h.1).symm⟩
  | cons u us =>
      -- no closing parenthesis is due behind the ellipsis
      rw [isNested, Bool.and_eq_true, hbehind, isNested,
        Bool.and_eq_true] at hnested
      have hu : u.kind = .closeParen := by
        simpa using h.2
      have := pair_plain_paren.count_pos hnested.2.1 hu
      exact absurd (List.count_pos_iff.mp this) hdue

/-- Each free comma of nested tokens ends a parameter, if they are read as
parameters at all. -/
theorem length_of_result_furtherParameters {due : List TokenKind}
    {ts : List Token} (hdue : .closeParen ∉ due)
    (h : isNested plainBrackets due ts = true) (hne : ts ≠ [])
    (hlast : ∀ t ∈ ts.getLast?, t.kind ≠ .comma) {c : Token}
    (hc : c.kind = .closeParen) {rest : List Token} {qs : List Parameter}
    (hqs : Closes (furtherParameters.result (ts ++ c :: rest)) qs) :
    qs.length = freeCommas plainBrackets .closeParen due ts + 1 := by
  -- what stands behind a free comma is shorter, and is read in the same way
  induction hn : ts.length using Nat.strong_induction_on
    generalizing due ts qs with
  | _ n ih =>
      obtain ⟨t, us, rfl⟩ := List.exists_cons_of_ne_nil hne
      by_cases ht : t.kind = .ellipsis
      · obtain ⟨rfl, hone⟩ := hqs.eq_singleton hdue h ht
        simp [hone, freeCommas, ht]
      have hgo := begins_of_isNested hdue h ht (c :: rest)
      by_cases hfree : freeCommas plainBrackets .closeParen due (t :: us) = 0
      · have hclose : headIn [.comma, .closeParen] (c :: rest) = true := by
          simp [hc]
        have htokens := parameterTokens_append pair_plain_paren h hfree hclose
        rw [List.count_eq_zero.mpr hdue] at htokens
        have hone := result_functionParameter hgo.1 hgo.2 htokens
        rw [if_neg (by simp [hc])] at hone
        obtain ⟨qs', rfl, hqs'⟩ := hqs.of_some hone
        rw [result_furtherParameters_close hc] at hqs'
        rw [hfree, ← Except.ok.inj hqs'.1]
        rfl
      · obtain ⟨before, comma, behind, due', heq, hcomma, hdue', hnested,
          hcount, htokens⟩ := exists_parameterTokens pair_plain_paren h hfree
            (c :: rest)
        rw [List.count_eq_zero.mpr hdue] at htokens
        have hone := result_functionParameter hgo.1 hgo.2 htokens
        rw [if_pos (by simp [hcomma]), List.tail_cons] at hone
        obtain ⟨qs', rfl, hqs'⟩ := hqs.of_some hone
        have hbehind : behind ≠ [] := by
          rintro rfl
          exact hlast comma (by simp [heq]) hcomma
        have hends : (t :: us).getLast? = behind.getLast? := by
          rw [heq, List.append_cons,
            List.getLast?_append_of_ne_nil _ hbehind]
        have hlen : behind.length < n := by
          rw [← hn, heq]
          simp
          omega
        rw [hends] at hlast
        rw [List.length_cons, hcount,
          ih _ hlen hdue' hnested hbehind hlast hqs' rfl]

/-! ### Rows of parameters -/

/-- The tokens of a row close the brackets that they open. -/
lemma ParameterRow.nested {ps : List (List Token)} {row : List Token}
    (h : ParameterRow ps row) : isNested plainBrackets [] row = true := by
  induction h with
  | last hp => exact hp.nested
  | rest ht =>
      rw [isNested, fits, dueBehind, ht]
      rfl
  | cons hp hc _ ih =>
      have happend := isNested_append hp.nested []
      rw [List.append_nil] at happend
      rw [happend, isNested, dueBehind_comma _ hc, fits, hc, ih]
      rfl

lemma ParameterRow.ne_nil {ps : List (List Token)} {row : List Token}
    (h : ParameterRow ps row) : row ≠ [] := by
  cases h with
  | last hp => exact hp.ne_nil
  | rest => exact List.cons_ne_nil _ _
  | cons => simp

/-- No comma ends a row of parameters. -/
lemma ParameterRow.getLast_ne_comma {ps : List (List Token)}
    {row : List Token} (h : ParameterRow ps row) :
    ∀ t ∈ row.getLast?, t.kind ≠ .comma := by
  induction h with
  | last hp =>
      intro t ht hk
      obtain ⟨ts, rfl⟩ := List.getLast?_eq_some_iff.mp ht
      have hcommas := hp.commas
      rw [commasInside_concat hk hp.nested] at hcommas
      exact nomatch hcommas
  | rest ht => simp [ht]
  | cons _ _ h ih =>
      rw [List.append_cons, List.getLast?_append_of_ne_nil _ h.ne_nil]
      exact ih

/-- The free commas of a row are those between two parameters and those
inside one. -/
lemma ParameterRow.freeCommas_eq {ps : List (List Token)}
    {row : List Token} (h : ParameterRow ps row) :
    freeCommas plainBrackets .closeParen [] row + 1
      = ps.length
        + (ps.map (freeCommas plainBrackets .closeParen [])).sum := by
  induction h with
  | last => simp [Nat.add_comm]
  | rest ht => simp [freeCommas, ht]
  | cons hp hc _ ih =>
      have happend := freeCommas_append hp.nested
        (List.not_mem_nil (a := .closeParen))
      rw [List.append_nil] at happend
      rw [happend, freeCommas, dueBehind_comma _ hc,
        if_pos ⟨hc, List.not_mem_nil⟩, List.length_cons, List.map_cons,
        List.sum_cons]
      omega

/-- The parameters of a row are read as they stand exactly if all commas
inside them stand inside parentheses. -/
theorem ParameterRow.closes_iff {ps : List (List Token)} {row : List Token}
    (h : ParameterRow ps row) {c : Token} (hc : c.kind = .closeParen)
    (rest : List Token) :
    Closes (furtherParameters.result (row ++ c :: rest))
        (ps.map readParameter)
      ↔ ∀ p ∈ ps, commasInside plainBrackets [.closeParen] [] p = true := by
  simp only [commasInside_iff]
  refine ⟨fun hqs => ?_, fun hfree => ?_⟩
  · have hlength := length_of_result_furtherParameters List.not_mem_nil
      h.nested h.ne_nil h.getLast_ne_comma hc hqs
    have hcount := h.freeCommas_eq
    rw [List.length_map] at hlength
    have hsum : (ps.map (freeCommas plainBrackets .closeParen [])).sum = 0 := by
      omega
    intro p hp
    exact List.sum_eq_zero_iff_forall_eq_nat.mp hsum _
      (List.mem_map_of_mem hp)
  · rw [result_furtherParameters_row h hfree hc]
    exact ⟨rfl, by simp [hc]⟩

lemma ParameterRow.eq_of_singleton {ps : List (List Token)} {t : Token}
    (h : ParameterRow ps [t]) : ps = [[t]] := by
  generalize hrow : [t] = row at h
  cases h with
  | last => rw [← hrow]
  | rest => rw [← hrow]
  | cons hp =>
      have hlength := congrArg List.length hrow
      have hpos := List.length_pos_iff.mpr hp.ne_nil
      simp at hlength
      omega

/-- Only the word for it says that there are no parameters. -/
lemma ParameterRow.saysVoid_eq_false {ps : List (List Token)}
    {row : List Token} (h : ParameterRow ps row)
    (hvoid : ∀ t, ps = [[t]] → t.kind ≠ .kwVoid) (rest : List Token) :
    saysVoid (row ++ rest) = false := by
  obtain ⟨t, us, rfl⟩ := List.exists_cons_of_ne_nil h.ne_nil
  rw [saysVoid, Bool.and_eq_false_iff]
  by_cases ht : t.kind = .kwVoid
  · cases us with
    | nil => exact absurd ht (hvoid t h.eq_of_singleton)
    | cons u us =>
        have hnested := h.nested
        have hbehind : dueBehind plainBrackets [] t = [] := by
          rw [dueBehind, ht]
          rfl
        rw [isNested, Bool.and_eq_true, hbehind, isNested, Bool.and_eq_true]
          at hnested
        have hu : u.kind ≠ .closeParen := fun hk =>
          absurd (pair_plain_paren.count_pos hnested.2.1 hk) (Nat.lt_irrefl 0)
        exact .inr (by simp [kindAt, tokenAt, hu])
  · exact .inl (by simp [ht])

end HeaderBinding
