/-
The cases of an enumeration under their new names.

* `shortened`: the names that are stripped, in their order, with what is
  left of them; `boundEnumValue_eq`: replacing them is what becomes of a
  value;
* `newText`: what a token of a value should become; `renamedValue`: the
  value with each token in its new text;
* `Captured`: a token whose new text has a name in it that is replaced
  later on; `Settles`: what is replaced in the new text of a token;
  `replaceWords_eq_newText_iff`: a token becomes what it should unless it is
  captured;
* `SoundRenaming`: the cases have distinct names, and values in terms of
  them; `soundRenaming_iff`: so it is exactly if no two names are stripped
  alike and no token is captured.
-/
import Mathlib.Data.List.Forall2
import Mathlib.Data.List.Nodup
import HeaderBinding.Binding.Assemble
import HeaderBinding.Proofs.Header.Enumerators
import HeaderBinding.Proofs.Token.Retold

namespace HeaderBinding

variable {rules : MacroRules} {enum : String} {names : List String}

/-! ### Stripped names -/

/-- Stripping leaves the end of a name, and some of it. -/
lemma stripEnumPrefix_cases (enum name : String) :
    stripEnumPrefix enum name = name
      ∨ ((stripEnumPrefix enum name).toList ≠ []
        ∧ (stripEnumPrefix enum name).toList <:+ name.toList) := by
  unfold stripEnumPrefix
  split
  · rename_i rest hrest
    dsimp only
    split
    · rename_i hcapital
      rw [String.toList_ofList]
      refine .inr ⟨?_, ?_⟩
      · intro hnil
        rw [hnil] at hcapital
        exact absurd hcapital (by decide)
      · rw [List.isPrefixOf?_eq_some_iff_append_eq] at hrest
        rw [← hrest]
        exact (List.dropWhile_suffix _).trans (List.suffix_append _ _)
    · exact .inl rfl
  · exact .inl rfl

/-- A word that is stripped is a word. -/
lemma isWord_stripEnumPrefix (enum : String) {name : String} (h : IsWord name.toList) :
    IsWord (stripEnumPrefix enum name).toList := by
  rcases stripEnumPrefix_cases enum name with heq | ⟨-, hsuffix⟩
  · rwa [heq]
  · exact fun c hc => h c (hsuffix.subset hc)

lemma stripEnumPrefix_ne_nil {name : String} (h : name.toList ≠ []) :
    (stripEnumPrefix enum name).toList ≠ [] := by
  rcases stripEnumPrefix_cases enum name with heq | ⟨hne, -⟩
  · rwa [heq]
  · exact hne

/-- What is left of a name is shorter. -/
lemma length_stripEnumPrefix_lt {name : String}
    (h : stripEnumPrefix enum name ≠ name) :
    (stripEnumPrefix enum name).toList.length < name.toList.length := by
  obtain ⟨-, hsuffix⟩ := (stripEnumPrefix_cases enum name).resolve_left h
  refine hsuffix.length_le.lt_of_ne fun hlen => h ?_
  exact String.toList_inj.mp (hsuffix.eq_of_length hlen)

/-- The names that are stripped, with what is left of them. -/
def shortened (enum : String) (names : List String) :
    List (String × String) :=
  (names.filter fun n => n ≠ stripEnumPrefix enum n).map fun n =>
    (n, stripEnumPrefix enum n)

lemma mem_shortened {r : String × String} (h : r ∈ shortened enum names) :
    r.1 ∈ names ∧ r.2 = stripEnumPrefix enum r.1
      ∧ stripEnumPrefix enum r.1 ≠ r.1 := by
  obtain ⟨n, hn, rfl⟩ := List.mem_map.mp h
  obtain ⟨hmem, hne⟩ := List.mem_filter.mp hn
  exact ⟨hmem, rfl, Ne.symm (by simpa using hne)⟩

lemma mem_shortened_of {n : String} (hmem : n ∈ names)
    (hne : stripEnumPrefix enum n ≠ n) :
    (n, stripEnumPrefix enum n) ∈ shortened enum names :=
  List.mem_map.mpr ⟨n, List.mem_filter.mpr
    ⟨hmem, by simpa using Ne.symm hne⟩, rfl⟩

/-- A name of a case that is read as an identifier and is one word, and not
the name of a limit. -/
structure PlainName (rules : MacroRules) (name : String) : Prop where
  readable : Readable rules (.identifier, name)
  word : IsWord name.toList
  no_limit : limitConstants.lookup name = none

lemma PlainName.ne_nil {name : String} (h : PlainName rules name) :
    name.toList ≠ [] :=
  h.readable.toList_ne_nil

lemma renaming_shortened (h : ∀ n ∈ names, PlainName rules n) :
    Renaming (shortened enum names) := by
  intro r hr
  obtain ⟨hmem, hnew, -⟩ := mem_shortened hr
  have hname := h _ hmem
  rw [hnew]
  exact ⟨hname.ne_nil, hname.word,
    (isWord_stripEnumPrefix enum hname.word).wordEnds
      (stripEnumPrefix_ne_nil hname.ne_nil)⟩

lemma length_lt_of_mem_shortened :
    ∀ r ∈ shortened enum names, r.2.toList.length < r.1.toList.length := by
  intro r hr
  obtain ⟨-, hnew, hne⟩ := mem_shortened hr
  rw [hnew]
  exact length_stripEnumPrefix_lt hne

/-! ### Values -/

lemma eraseDups_of_nodup {ns : List String} (h : ns.Nodup) :
    ns.eraseDups = ns := by
  induction ns with
  | nil => rfl
  | cons n ns ih =>
      obtain ⟨hn, hns⟩ := List.nodup_cons.mp h
      have hfilter : ns.filter (fun m => !m == n) = ns :=
        List.filter_eq_self.mpr fun m hm => by
          have hne : m ≠ n := fun heq => hn (heq ▸ hm)
          simpa using hne
      rw [List.eraseDups_cons, hfilter, ih hns]

/-- The new names of words are templates for themselves. -/
lemma filledRenames_enumRenames (hnodup : names.Nodup)
    (hword : ∀ n ∈ names, IsWord n.toList) :
    filledRenames (enumRenames enum names) = .ok (shortened enum names) := by
  rw [filledRenames, enumRenames, eraseDups_of_nodup hnodup, List.filter_map]
  show List.mapM _ (shortened enum names) = _
  have hfill : ∀ r ∈ shortened enum names,
      (fillTemplate r.1.toList r.2.toList).map
        (fun new => (r.1, String.ofList new)) = .ok r := by
    intro r hr
    obtain ⟨hmem, hnew, -⟩ := mem_shortened hr
    have hplain : '\\' ∉ r.2.toList := by
      intro hslash
      rw [hnew] at hslash
      exact absurd (isWord_stripEnumPrefix enum (hword _ hmem) _ hslash)
        (by decide)
    rw [fillTemplate_of_not_mem hplain, Except.map, String.ofList_toList]
  generalize shortened enum names = rs at hfill
  induction rs with
  | nil => rfl
  | cons r rs ih =>
      obtain ⟨hr, hrs⟩ := List.forall_mem_cons.mp hfill
      rw [List.mapM_cons, hr, ih hrs]
      rfl

/-- In a value the limits are replaced, and then the names. -/
theorem boundEnumValue_eq (hnodup : names.Nodup)
    (hword : ∀ n ∈ names, IsWord n.toList) (value : String) :
    boundEnumValue (enumRenames enum names) value
      = String.ofList (replaceWords (limitConstants ++ shortened enum names)
        (joinShifts value.toList)) := by
  rw [boundEnumValue, cleanEnumValue, filledRenames_enumRenames hnodup hword,
    replaceWords_append_left]
  rfl

/-! ### Tokens of values -/

/-- What a token of a value should become: the name of a limit that of
C#, the name of a case its new one. -/
def newText (enum : String) (names : List String) (f : Face) : String :=
  match limitConstants.lookup f.2 with
  | some text => text
  | none =>
    if f.1 = .identifier ∧ f.2 ∈ names then stripEnumPrefix enum f.2 else f.2

/-- What a value should become, shifts joined again. -/
def renamedValue (rules : MacroRules) (enum : String) (names : List String)
    (value : String) : String :=
  String.ofList (retold rules (fun f => (newText enum names f).toList)
    (joinShifts value.toList))

/-- The names behind a name, none if it is no name itself. -/
def namesBehind (name : String) (names : List String) : List String :=
  (names.dropWhile (· ≠ name)).tail

/-- The new text of the token does not last: that of a limit has a name in
it that is stripped, or the new name is the name of a later case that is
stripped itself. -/
def Captured (enum : String) (names : List String) (f : Face) : Prop :=
  (∃ text ∈ limitConstants.lookup f.2, ∃ n ∈ names,
      n.toList ∈ wordsIn text.toList ∧ stripEnumPrefix enum n ≠ n)
    ∨ stripEnumPrefix enum f.2 ∈ namesBehind f.2 names
      ∧ stripEnumPrefix enum (stripEnumPrefix enum f.2)
        ≠ stripEnumPrefix enum f.2

instance (enum : String) (names : List String) (f : Face) :
    Decidable (Captured enum names f) :=
  inferInstanceAs (Decidable (_ ∨ _))

/-- The token is one word, or no word in it is the name of a case or of a
limit. -/
def Face.Simple (names : List String) (f : Face) : Prop :=
  IsWord f.2.toList ∨ ∀ w ∈ wordsIn f.2.toList,
    String.ofList w ∉ names ∧ limitConstants.lookup (String.ofList w) = none

instance (names : List String) (f : Face) : Decidable (f.Simple names) :=
  inferInstanceAs (Decidable (_ ∨ _))

lemma namesBehind_eq {name : String} {before after : List String}
    (h : name ∉ before) :
    namesBehind name (before ++ name :: after) = after := by
  have hbefore : ∀ n ∈ before, decide (n ≠ name) = true :=
    fun n hn => decide_eq_true fun heq => h (heq ▸ hn)
  rw [namesBehind, List.dropWhile_append_of_pos hbefore,
    List.dropWhile_cons_of_neg (by simp), List.tail_cons]

lemma namesBehind_of_not_mem {name : String} (h : name ∉ names) :
    namesBehind name names = [] := by
  have hall : ∀ n ∈ names, decide (n ≠ name) = true :=
    fun n hn => decide_eq_true fun heq => h (heq ▸ hn)
  rw [namesBehind, List.dropWhile_eq_nil_iff.mpr hall, List.tail_nil]

lemma renaming_limitConstants : Renaming limitConstants := by
  show ∀ r ∈ limitConstants, _
  decide

/-- Each limit is replaced by its own text, which has no limit in it. -/
lemma replaceWords_limit {f : Face} {text : String}
    (h : limitConstants.lookup f.2 = some text) :
    replaceWords limitConstants f.2.toList = text.toList := by
  have hall : ∀ r ∈ limitConstants,
      replaceWords limitConstants r.1.toList = r.2.toList := by
    decide +kernel
  obtain ⟨front, back, hsplit, -⟩ := List.lookup_eq_some_iff.mp h
  exact hall (f.2, text) (hsplit ▸ List.mem_append_cons_self)

/-- Other tokens have no limit in them. -/
lemma replaceWords_of_no_limit {f : Face} (hf : f.Simple names)
    (h : limitConstants.lookup f.2 = none) :
    replaceWords limitConstants f.2.toList = f.2.toList := by
  refine replaceWords_of_not_mem renaming_limitConstants fun r hr hmem => ?_
  rcases hf with hword | hnone
  · have heq := String.toList_inj.mp (eq_of_mem_wordsIn hword hmem)
    have hno := List.lookup_eq_none_iff.mp h r hr
    exact absurd heq.symm (by simpa using hno)
  · have hno := (hnone _ hmem).2
    rw [String.ofList_toList] at hno
    exact absurd (List.lookup_eq_none_iff.mp hno r hr) (by simp)

section Names

variable (hplain : ∀ n ∈ names, PlainName rules n)
include hplain

/-- A name becomes what is left of it, which the later names may change. -/
lemma replaceWords_name {n : String} {before after : List String}
    (hns : names = before ++ n :: after) (hbefore : n ∉ before) :
    replaceWords (shortened enum names) n.toList
      = replaceWords (shortened enum after)
        (stripEnumPrefix enum n).toList := by
  have hname := hplain n (hns ▸ List.mem_append_cons_self)
  have hkeep : replaceWords (shortened enum before) n.toList = n.toList := by
    have hr : Renaming (shortened enum before) := renaming_shortened
      fun m hm => hplain m (hns ▸ List.mem_append_left _ hm)
    refine replaceWords_of_not_mem hr fun r hr hmem => ?_
    obtain ⟨hr1, -, -⟩ := mem_shortened hr
    have heq := String.toList_inj.mp (eq_of_mem_wordsIn hname.word hmem)
    exact hbefore (heq ▸ hr1)
  have hsplit : shortened enum names
      = shortened enum before ++ shortened enum (n :: after) := by
    rw [hns, shortened, List.filter_append, List.map_append]
    rfl
  rw [hsplit, replaceWords_append_left, hkeep]
  by_cases hsame : n = stripEnumPrefix enum n
  · have hskip : shortened enum (n :: after) = shortened enum after := by
      rw [shortened, List.filter_cons_of_neg (by simpa using hsame)]
      rfl
    rw [hskip, ← hsame]
  · have hcons : shortened enum (n :: after)
        = (n, stripEnumPrefix enum n) :: shortened enum after := by
      rw [shortened, List.filter_cons_of_pos (by simpa using hsame)]
      rfl
    rw [hcons, replaceWords_cons, replaceWord_word hname.ne_nil hname.word
      hname.ne_nil hname.word, if_pos rfl]

/-- The token becomes its new text with some more names replaced in it, and
it is captured exactly if one of those is in it. -/
structure Settles (enum : String) (names : List String) (f : Face)
    (later : List (String × String)) : Prop where
  mem : ∀ r ∈ later, r ∈ shortened enum names
  text : replaceWords (limitConstants ++ shortened enum names) f.2.toList
    = replaceWords later (newText enum names f).toList
  captured : Captured enum names f
    ↔ ∃ r ∈ later, r.1.toList ∈ wordsIn (newText enum names f).toList

variable {f : Face}

/-- In the text of a limit all names are replaced. -/
lemma settles_limit {text : String}
    (hlimit : limitConstants.lookup f.2 = some text) :
    Settles enum names f (shortened enum names) := by
  have hnew : newText enum names f = text := by
    simp only [newText, hlimit]
  have hno : f.2 ∉ names := by
    intro hmem
    have := (hplain f.2 hmem).no_limit
    rw [hlimit] at this
    exact nomatch this
  refine ⟨fun r hr => hr, ?_, ?_⟩
  · rw [replaceWords_append_left, replaceWords_limit hlimit, hnew]
  rw [Captured, namesBehind_of_not_mem hno, hlimit, hnew]
  constructor
  · rintro (⟨text', htext, n, hn, hmem, hne⟩ | ⟨hlater, -⟩)
    · obtain rfl : text = text' := Option.some.inj htext
      exact ⟨_, mem_shortened_of hn hne, hmem⟩
    · exact absurd hlater List.not_mem_nil
  · rintro ⟨r, hr, hmem⟩
    obtain ⟨hr1, -, hne⟩ := mem_shortened hr
    exact .inl ⟨text, rfl, r.1, hr1, hmem, hne⟩

/-- In the new name of a case the names of later cases are replaced. -/
lemma settles_name (hf : f.Simple names) (hkind : f.1 = .identifier)
    {before after : List String} (hns : names = before ++ f.2 :: after)
    (hbefore : f.2 ∉ before) :
    Settles enum names f (shortened enum after) := by
  have hmem : f.2 ∈ names := hns ▸ List.mem_append_cons_self
  have hlimit := (hplain f.2 hmem).no_limit
  have hnew : newText enum names f = stripEnumPrefix enum f.2 := by
    simp only [newText, hlimit, hkind, hmem, and_self, if_true]
  have hword := isWord_stripEnumPrefix enum (hplain f.2 hmem).word
  have hne : (stripEnumPrefix enum f.2).toList ≠ [] :=
    stripEnumPrefix_ne_nil (hplain f.2 hmem).ne_nil
  refine ⟨fun r hr => ?_, ?_, ?_⟩
  · obtain ⟨hr1, hr2, hne⟩ := mem_shortened hr
    have hr1' : r.1 ∈ names :=
      hns ▸ List.mem_append_right _ (List.mem_cons_of_mem _ hr1)
    have hr' := mem_shortened_of hr1' hne
    rwa [← hr2] at hr'
  · rw [replaceWords_append_left, replaceWords_of_no_limit hf hlimit,
      replaceWords_name hplain hns hbefore, hnew]
  have hbehind : namesBehind f.2 names = after := by
    rw [hns, namesBehind_eq hbefore]
  rw [Captured, hbehind, hlimit, hnew]
  constructor
  · rintro (⟨text, htext, -⟩ | ⟨hlater, hagain⟩)
    · exact nomatch htext
    · refine ⟨_, mem_shortened_of hlater hagain, ?_⟩
      rw [wordsIn_of_isWord hword, closedWord, if_neg (by simpa using hne)]
      exact List.mem_singleton_self _
  · rintro ⟨r, hr, hin⟩
    obtain ⟨hr1, -, hagain⟩ := mem_shortened hr
    have heq := String.toList_inj.mp (eq_of_mem_wordsIn hword hin)
    rw [heq] at hr1 hagain
    exact .inr ⟨hr1, hagain⟩

/-- In every other token nothing is replaced. -/
lemma settles_other (hf : f.Simple names)
    (hlimit : limitConstants.lookup f.2 = none) (hmem : f.2 ∉ names) :
    Settles enum names f [] := by
  have hnew : newText enum names f = f.2 := by
    simp only [newText, hlimit, hmem, and_false, if_false]
  have hnone : ∀ r ∈ shortened enum names,
      r.1.toList ∉ wordsIn f.2.toList := by
    intro r hr hin
    obtain ⟨hr1, -, -⟩ := mem_shortened hr
    rcases hf with hword | hnone
    · have heq := String.toList_inj.mp (eq_of_mem_wordsIn hword hin)
      exact hmem (heq ▸ hr1)
    · have hno := (hnone _ hin).1
      rw [String.ofList_toList] at hno
      exact hno hr1
  refine ⟨by simp, ?_, ?_⟩
  · rw [replaceWords_append_left, replaceWords_of_no_limit hf hlimit, hnew,
      replaceWords_of_not_mem (renaming_shortened hplain) hnone]
    rfl
  rw [Captured, namesBehind_of_not_mem hmem, hlimit]
  simp

variable (enum) in
lemma exists_settles (hf : f.Simple names)
    (hkind : f.2 ∈ names → f.1 = .identifier) :
    ∃ later, Settles enum names f later := by
  cases hlimit : limitConstants.lookup f.2 with
  | some text => exact ⟨_, settles_limit hplain hlimit⟩
  | none =>
      by_cases hmem : f.2 ∈ names
      · obtain ⟨before, after, hns, hbefore⟩ :=
          List.eq_append_cons_of_mem hmem
        exact ⟨_, settles_name hplain hf (hkind hmem) hns hbefore⟩
      · exact ⟨_, settles_other hplain hf hlimit hmem⟩

variable (enum) in
/-- **What becomes of a token.**  It gets no longer than its new text, which
it becomes unless it is captured. -/
theorem replaceWords_eq_newText_iff (hf : f.Simple names)
    (hkind : f.2 ∈ names → f.1 = .identifier) :
    (replaceWords (limitConstants ++ shortened enum names)
        f.2.toList).length ≤ (newText enum names f).toList.length
      ∧ (replaceWords (limitConstants ++ shortened enum names) f.2.toList
        = (newText enum names f).toList ↔ ¬ Captured enum names f) := by
  obtain ⟨later, hsettles⟩ := exists_settles enum hplain hf hkind
  have hr : Renaming later :=
    fun r hr => renaming_shortened hplain r (hsettles.mem r hr)
  have hlt : ∀ r ∈ later, r.2.toList.length < r.1.toList.length :=
    fun r hr => length_lt_of_mem_shortened r (hsettles.mem r hr)
  rw [hsettles.text, hsettles.captured, replaceWords_eq_self_iff hr hlt]
  refine ⟨length_replaceWords_le hr hlt _, ?_⟩
  simp only [not_exists, not_and]

end Names

/-! ### Values that are laid out -/

/-- Tokens of one text are of one kind. -/
lemma Readable.kind_eq {f g : Face} (hf : Readable rules f)
    (hg : Readable rules g) (h : f.2 = g.2) : f.1 = g.1 := by
  obtain ⟨c, cs, hcs, hread⟩ := hf.exists_readLexeme (.inr endsToken_nil)
  obtain ⟨d, ds, hds, hread'⟩ := hg.exists_readLexeme (.inr endsToken_nil)
  rw [h, hds] at hcs
  obtain ⟨rfl, rfl⟩ := List.cons.inj hcs
  rw [hread, Prod.mk.injEq, Lexeme.mk.injEq, Option.some.injEq] at hread'
  exact congrArg Prod.fst hread'.1.2

/-- What is laid out can be read, a quote that stands alone excepted. -/
lemma Laid.readable {fs : List Face} {cs : List Char}
    (h : Laid rules fs cs) : ∀ f ∈ fs, Readable rules f ∨ f = loneQuote := by
  induction h with
  | nil => exact fun f hf => nomatch hf
  | quote => exact fun f hf => .inr (List.mem_singleton.mp hf)
  | blank _ ih => exact ih
  | token hf _ _ ih => exact List.forall_mem_cons.mpr ⟨.inl hf, ih⟩

/-- A value becomes what it should exactly if none of its tokens is
captured. -/
theorem boundEnumValue_eq_renamedValue_iff (hnodup : names.Nodup)
    (hplain : ∀ n ∈ names, PlainName rules n) {fs : List Face}
    {value : String} (h : Laid rules fs value.toList)
    (hfs : ∀ f ∈ fs, f.Simple names) :
    boundEnumValue (enumRenames enum names) value
        = renamedValue rules enum names value
      ↔ ∀ f ∈ fs, ¬ Captured enum names f := by
  have hr : Renaming (limitConstants ++ shortened enum names) := fun r hr =>
    (List.mem_append.mp hr).elim (renaming_limitConstants r)
      (renaming_shortened hplain r)
  have hkind : ∀ f ∈ fs, f.2 ∈ names → f.1 = .identifier := by
    intro f hf hmem
    rcases h.readable f hf with hread | rfl
    · exact hread.kind_eq (hplain _ hmem).readable rfl
    · exact absurd ((hplain _ hmem).word '\'' (by decide)) (by decide)
  have htoken := fun f hf =>
    replaceWords_eq_newText_iff enum hplain (hfs f hf)
      (hkind f hf)
  rw [boundEnumValue_eq hnodup fun n hn => (hplain n hn).word,
    renamedValue, String.ofList_inj, h.joinShifts.replaceWords_eq hr,
    h.joinShifts.retold_eq_iff fun f hf => (htoken f hf).1]
  exact forall₂_congr fun f hf => (htoken f hf).2

/-! ### Enumerations -/

/-- The names of the cases. -/
def EnumDef.caseNames (e : EnumDef) : List String :=
  e.cases.map (·.name)

/-- An enumeration with distinct names that are plain, and with values that
are laid out in simple tokens. -/
structure PlainEnum (rules : MacroRules) (e : EnumDef) : Prop where
  distinct : e.caseNames.Nodup
  named : ∀ n ∈ e.caseNames, PlainName rules n
  laid : ∀ c ∈ e.cases, ∀ v ∈ c.value?, ∃ fs, Laid rules fs v.toList
    ∧ ∀ f ∈ fs, f.Simple e.caseNames

/-- The name of an enumerator stands in the row. -/
lemma EnumRow.name_mem {es : List Enumerator} {row : List Token}
    (h : EnumRow es row) : ∀ x ∈ es, x.name ∈ row := by
  have htokens : ∀ x : Enumerator, x.name ∈ x.tokens :=
    fun x => by simp [Enumerator.tokens]
  induction h with
  | nil => exact fun x hx => absurd hx List.not_mem_nil
  | last x => exact fun y hy => List.mem_singleton.mp hy ▸ htokens x
  | cons x hc _ ih =>
      refine List.forall_mem_cons.mpr
        ⟨List.mem_append_left _ (htokens x), fun y hy => ?_⟩
      exact List.mem_append_right _ (List.mem_cons_of_mem _ (ih y hy))

/-- An enumeration that is read is plain, if its names are distinct words
and no limits, and the tokens of its values simple and not quoted. -/
theorem EnumRow.plainEnum {text : String} {before after row : List Token}
    {close : Token} {es : List Enumerator} (hrow : EnumRow es row)
    (htext : tokenize rules text = before ++ (row ++ close :: after))
    (hclose : close.kind ≠ .endOfInput) {e : EnumDef}
    (he : e.cases = es.map Enumerator.case) (hdistinct : e.caseNames.Nodup)
    (hnames : ∀ x ∈ es, IsWord x.name.value.toList
      ∧ limitConstants.lookup x.name.value = none)
    (hvalues : ∀ x ∈ es, ∀ v ∈ x.value?,
      v.Unquoted ∧ ∀ t ∈ v.kept, t.face.Simple e.caseNames) : PlainEnum rules e where
  distinct := hdistinct
  named := by
    intro n hn
    rw [EnumDef.caseNames, he, List.map_map] at hn
    obtain ⟨x, hx, rfl⟩ := List.mem_map.mp hn
    obtain ⟨hword, hlimit⟩ := hnames x hx
    refine ⟨?_, hword, hlimit⟩
    have hface : x.name.face = (.identifier, x.name.value) :=
      Prod.ext x.name_kind rfl
    obtain ⟨fs, hfs⟩ := exists_facesOf_eq
      (htext.trans (List.append_assoc before row (close :: after)).symm) hclose
    have hmem : x.name.face ∈ facesOf rules text.toList := by
      rw [hfs]
      exact List.mem_append_left _ (List.mem_map_of_mem
        (List.mem_append_right _ (hrow.name_mem x hx)))
    rw [hface] at hmem
    exact readable_of_mem_facesOf ⟨by simp, by simp⟩ hmem
  laid := by
    intro c hc v hv
    rw [he] at hc
    obtain ⟨x, hx, rfl⟩ := List.mem_map.mp hc
    rw [Enumerator.case, Option.mem_def, Option.map_eq_some_iff] at hv
    obtain ⟨value, hvalue, rfl⟩ := hv
    obtain ⟨hplain, hsimple⟩ := hvalues x hx value hvalue
    refine ⟨_, hrow.laid_text htext hclose hx hvalue hplain, fun f hf => ?_⟩
    obtain ⟨t, ht, rfl⟩ := List.mem_map.mp hf
    exact hsimple t ht

/-- The cases get distinct names, and each value becomes what it should in
terms of them. -/
structure SoundRenaming (rules : MacroRules) (enum : String)
    (e : EnumDef) : Prop where
  distinct : ((bindEnum e enum).members.map (·.name)).Nodup
  values : List.Forall₂ (fun c m => m.name = stripEnumPrefix enum c.name
      ∧ m.value? = c.value?.map (renamedValue rules enum e.caseNames))
    e.cases (bindEnum e enum).members

lemma map_name_bindEnum (e : EnumDef) (enum : String) :
    (bindEnum e enum).members.map (·.name)
      = e.caseNames.map (stripEnumPrefix enum) := by
  rw [bindEnum, EnumDef.caseNames, List.map_map, List.map_map]
  rfl

/-- **When the renaming is sound.**  The cases keep distinct names and values
that say the same exactly if no two names are stripped alike and no token of
a value is captured. -/
theorem soundRenaming_iff {e : EnumDef} (h : PlainEnum rules e)
    (enum : String) :
    SoundRenaming rules enum e
      ↔ (∀ n ∈ e.caseNames, ∀ m ∈ e.caseNames,
          stripEnumPrefix enum n = stripEnumPrefix enum m → n = m)
        ∧ ∀ c ∈ e.cases, ∀ v ∈ c.value?, ∀ f ∈ facesOf rules v.toList,
          ¬ Captured enum e.caseNames f := by
  have hvalue : ∀ c ∈ e.cases, ∀ v ∈ c.value?,
      (boundEnumValue (enumRenames enum e.caseNames) v
          = renamedValue rules enum e.caseNames v
        ↔ ∀ f ∈ facesOf rules v.toList, ¬ Captured enum e.caseNames f) := by
    intro c hc v hv
    obtain ⟨fs, hlaid, hfs⟩ := h.laid c hc v hv
    rw [hlaid.facesOf_eq]
    exact boundEnumValue_eq_renamedValue_iff h.distinct h.named hlaid hfs
  constructor
  · rintro ⟨hdistinct, hvalues⟩
    rw [map_name_bindEnum, List.nodup_map_iff_inj_on h.distinct] at hdistinct
    refine ⟨hdistinct, fun c hc v hv => (hvalue c hc v hv).mp ?_⟩
    rw [bindEnum, List.forall₂_map_right_iff, List.forall₂_same] at hvalues
    have := (hvalues c hc).2
    rw [Option.mem_def.mp hv] at this
    exact Option.some.inj this
  · rintro ⟨hinj, hfree⟩
    refine ⟨?_, ?_⟩
    · rw [map_name_bindEnum, List.nodup_map_iff_inj_on h.distinct]
      exact hinj
    · rw [bindEnum, List.forall₂_map_right_iff, List.forall₂_same]
      refine fun c hc => ⟨rfl, ?_⟩
      cases hv : c.value? with
      | none => rw [Option.map_none, Option.map_none]
      | some v =>
          rw [Option.map_some, Option.map_some]
          exact congrArg some ((hvalue c hc v hv).mpr (hfree c hc v hv))

lemma no_directives : ∀ t ∈ ([] : List Token), t.kind = .directive :=
  List.forall_mem_nil _

/-- A flag with a shift for its value. -/
def optsA : Enumerator where
  directives_kind := no_directives
  name := ⟨.identifier, "OptsA", 1, 13⟩
  value? := some {
    equals := ⟨.equals, "=", 1, 19⟩
    expression := [⟨.number, "1", 1, 21⟩, ⟨.openAngle, "<", 1, 23⟩,
      ⟨.openAngle, "<", 1, 24⟩, ⟨.number, "0", 1, 26⟩] }

/-- That flag with all others of a byte. -/
def optsAll : Enumerator where
  directives_kind := no_directives
  name := ⟨.identifier, "OptsAll", 1, 29⟩
  value? := some {
    equals := ⟨.equals, "=", 1, 37⟩
    expression := [⟨.identifier, "OptsA", 1, 39⟩, ⟨.pipe, "|", 1, 45⟩,
      ⟨.identifier, "UINT8_MAX", 1, 47⟩] }

/-- The enumeration of both. -/
def opts : EnumDef where
  name? := some "Opts"
  cases := [optsA, optsAll].map Enumerator.case

theorem soundRenaming_iff_opts :
    PlainEnum {} opts ∧ SoundRenaming {} "Opts" opts := by
  have hrow : EnumRow [optsA, optsAll] (optsA.tokens
      ++ ⟨.comma, ",", 1, 27⟩ :: optsAll.tokens) :=
    .cons optsA rfl (.last optsAll)
  have htext : tokenize {}
      "enum Opts \x7b OptsA = 1 << 0, OptsAll = OptsA | UINT8_MAX \x7d"
        = [⟨.kwEnum, "enum", 1, 1⟩, ⟨.identifier, "Opts", 1, 6⟩,
            ⟨.openBrace, "\x7b", 1, 11⟩]
          ++ ((optsA.tokens ++ ⟨.comma, ",", 1, 27⟩ :: optsAll.tokens)
            ++ ⟨.closeBrace, "\x7d", 1, 57⟩
              :: [⟨.endOfInput, "", 1, 58⟩]) := by
    decide +kernel
  have hplain : PlainEnum {} opts :=
    hrow.plainEnum htext (by decide) rfl (by decide +kernel)
      (by decide +kernel) (by decide +kernel)
  exact ⟨hplain, (soundRenaming_iff hplain "Opts").mpr
    ⟨by decide +kernel, by decide +kernel⟩⟩

/-- A case whose new name is that of the next one. -/
def caseEEA : Enumerator where
  directives_kind := no_directives
  name := ⟨.identifier, "EEA", 1, 10⟩

/-- The next case, which is stripped, too. -/
def caseEA : Enumerator where
  directives_kind := no_directives
  name := ⟨.identifier, "EA", 1, 15⟩

/-- A case with the value of the first one. -/
def caseEB : Enumerator where
  directives_kind := no_directives
  name := ⟨.identifier, "EB", 1, 19⟩
  value? := some {
    equals := ⟨.equals, "=", 1, 22⟩
    expression := [⟨.identifier, "EEA", 1, 24⟩] }

/-- The enumeration of those. -/
def echo : EnumDef where
  name? := some "E"
  cases := [caseEEA, caseEA, caseEB].map Enumerator.case

/-- The new name of the first case is stripped once more in a value, which
so becomes that of the second one. -/
theorem not_soundRenaming_echo :
    PlainEnum {} echo ∧ ¬ SoundRenaming {} "E" echo := by
  have hrow : EnumRow [caseEEA, caseEA, caseEB] (caseEEA.tokens
      ++ ⟨.comma, ",", 1, 13⟩ :: (caseEA.tokens
        ++ ⟨.comma, ",", 1, 17⟩ :: caseEB.tokens)) :=
    .cons caseEEA rfl (.cons caseEA rfl (.last caseEB))
  have htext : tokenize {} "enum E \x7b EEA, EA, EB = EEA \x7d"
      = [⟨.kwEnum, "enum", 1, 1⟩, ⟨.identifier, "E", 1, 6⟩,
          ⟨.openBrace, "\x7b", 1, 8⟩]
        ++ ((caseEEA.tokens ++ ⟨.comma, ",", 1, 13⟩ :: (caseEA.tokens
            ++ ⟨.comma, ",", 1, 17⟩ :: caseEB.tokens))
          ++ ⟨.closeBrace, "\x7d", 1, 28⟩
            :: [⟨.endOfInput, "", 1, 29⟩]) := by
    decide +kernel
  refine ⟨hrow.plainEnum htext (by decide) rfl (by decide +kernel)
    (by decide +kernel) (by decide +kernel), fun h => ?_⟩
  have hvalues := h.values
  rw [bindEnum, List.forall₂_map_right_iff, List.forall₂_same] at hvalues
  have hwrong := (hvalues caseEB.case (by decide +kernel)).2
  exact absurd hwrong (by decide +kernel)

end HeaderBinding
