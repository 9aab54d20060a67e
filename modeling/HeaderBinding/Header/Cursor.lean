/-
Reading from a row of tokens.  A row ends in the token for the end of the
input, which is never passed.

* `tokenAt`, `headIs`, `atEnd`: what stands next;
* `skipGroup`, `skipStatement`, `recover`: passing over tokens;
* `Production`: reading that may fail, and keeps its place when it does;
* `expect`, `accept`: one token that must or may stand next;
* `repeated`: a production over and over, while it yields something;
* `Reading`, `readAll`: the items of a container, one after the other,
  going on after those that cannot be read.
-/
import HeaderBinding.Header.Failure

namespace HeaderBinding

/-! ### What stands next -/

/-- The `k`-th token from here; past the end it is the last one. -/
def tokenAt (k : Nat) (ts : List Token) : Token :=
  (ts[k]?).getD (ts.getLast?.getD ⟨.endOfInput, "", 1, 1⟩)

/-- The kind of the `k`-th token from here. -/
def kindAt (k : Nat) (ts : List Token) : TokenKind :=
  (tokenAt k ts).kind

/-- The next token is of the kind. -/
def headIs (kind : TokenKind) (ts : List Token) : Bool :=
  ts.head?.any (·.kind = kind)

/-- The next token is of one of the kinds. -/
def headIn (kinds : List TokenKind) (ts : List Token) : Bool :=
  ts.head?.any fun t => kinds.contains t.kind

/-- The next token is an identifier with one of the texts. -/
def headIsWord (words : List String) (ts : List Token) : Bool :=
  ts.head?.any fun t => t.kind = .identifier && words.contains t.value

/-- Nothing is left to read. -/
def atEnd (ts : List Token) : Bool :=
  ts.head?.all (·.kind = .endOfInput)

@[simp]
theorem headIs_nil (kind : TokenKind) : headIs kind [] = false :=
  rfl

@[simp]
theorem headIs_cons (kind : TokenKind) (t : Token) (ts : List Token) :
    headIs kind (t :: ts) = decide (t.kind = kind) :=
  rfl

@[simp]
theorem headIn_nil (kinds : List TokenKind) : headIn kinds [] = false :=
  rfl

@[simp]
theorem headIn_cons (kinds : List TokenKind) (t : Token) (ts : List Token) :
    headIn kinds (t :: ts) = kinds.contains t.kind :=
  rfl

@[simp]
theorem headIsWord_nil (words : List String) : headIsWord words [] = false :=
  rfl

@[simp]
theorem headIsWord_cons (words : List String) (t : Token) (ts : List Token) :
    headIsWord words (t :: ts)
      = (decide (t.kind = .identifier) && words.contains t.value) :=
  rfl

@[simp]
theorem atEnd_nil : atEnd [] = true :=
  rfl

@[simp]
theorem atEnd_cons (t : Token) (ts : List Token) :
    atEnd (t :: ts) = decide (t.kind = .endOfInput) :=
  rfl

/-- What follows the next token; the end stays. -/
def step (ts : List Token) : List Token :=
  if atEnd ts then ts else ts.tail

/-- The next token. -/
def nextToken (ts : List Token) : Token :=
  tokenAt 0 ts

theorem length_step_le (ts : List Token) :
    (step ts).length ≤ ts.length := by
  unfold step
  split <;> simp

/-! ### Passing over tokens -/

/-- What follows a group that is `depth` brackets deep. -/
def skipGroup (opener closer : TokenKind) :
    Nat → List Token → List Token
  | 0, ts => ts
  | _ + 1, [] => []
  | depth + 1, t :: ts =>
    if t.kind = .endOfInput then t :: ts
    else
      skipGroup opener closer
        (if t.kind = opener then depth + 2
         else if t.kind = closer then depth else depth + 1) ts

theorem length_skipGroup_le (opener closer : TokenKind) (depth : Nat)
    (ts : List Token) :
    (skipGroup opener closer depth ts).length ≤ ts.length := by
  fun_induction skipGroup opener closer depth ts <;> simp_all
  omega

/-- What follows the next semicolon, or the end. -/
def skipStatement : List Token → List Token
  | [] => []
  | t :: ts =>
    if t.kind = .endOfInput then t :: ts
    else if t.kind = .semicolon then ts
    else skipStatement ts

/-- The kinds that start or end a container. -/
def containerMarks : List TokenKind :=
  [.atEnd, .atInterface, .atProtocol]

/-- The place to go on from after a failure: behind the next semicolon, or
before the next mark of a container. -/
def recover : List Token → List Token
  | [] => []
  | t :: ts =>
    if t.kind = .endOfInput ∨ containerMarks.contains t.kind then t :: ts
    else if t.kind = .semicolon then ts
    else recover ts

theorem length_recover_le (ts : List Token) :
    (recover ts).length ≤ ts.length := by
  fun_induction recover ts <;> simp_all
  omega

/-! ### Productions -/

/-- Reading that may fail.  The tokens that are left are kept also when it
fails. -/
abbrev Production := ExceptT Failure (StateM (List Token))

/-- Reading that cannot fail. -/
def scan {α : Type} (f : List Token → α × List Token) : Production α :=
  ExceptT.lift fun ts => f ts

/-- Something about the tokens that are left; none is read. -/
def look {α : Type} (f : List Token → α) : Production α :=
  scan fun ts => (f ts, ts)

/-- Passing over tokens. -/
def skip (f : List Token → List Token) : Production Unit :=
  scan fun ts => ((), f ts)

/-- The next token is read, unless it is the end. -/
def advance : Production Token :=
  scan fun ts => (nextToken ts, step ts)

/-- The next token is read if it is of the kind. -/
def accept (kind : TokenKind) : Production Bool :=
  scan fun ts => if headIs kind ts then (true, ts.tail) else (false, ts)

/-- The next token is read and must be of the kind. -/
def expect (kind : TokenKind) (due : Expectation) : Production Token := do
  if ← look (headIs kind) then advance
  else throw (.missing due (← look nextToken))

/-- The text of an identifier, if one comes next. -/
def identifier? : Production (Option String) := do
  if ← look (headIs .identifier) then return some (← advance).value
  else return none

/-- The text of an identifier, or nothing. -/
def identifierOrEmpty : Production String :=
  return (← identifier?).getD ""

/-- The text of an identifier, which must come next. -/
def expectIdentifier (due : Expectation) : Production String :=
  return (← expect .identifier due).value

/-- A production over and over, while it yields something; also one that
yields without reading anything is the last. -/
def repeatWhile {α : Type} (p : Production (Option α)) (ts : List Token) :
    Except Failure (List α) × List Token :=
  match p.run ts with
  | (.error f, rest) => (.error f, rest)
  | (.ok none, rest) => (.ok [], rest)
  | (.ok (some a), rest) =>
    if rest.length < ts.length then
      match repeatWhile p rest with
      | (.ok as, last) => (.ok (a :: as), last)
      | (.error f, last) => (.error f, last)
    else (.ok [a], rest)
termination_by ts.length

/-- What a production yields, repeated until it yields nothing. -/
def repeated {α : Type} (p : Production (Option α)) :
    Production (List α) :=
  ExceptT.mk fun ts => repeatWhile p ts

/-- What a production yields, once and again after each comma. -/
def commaSeparated {α : Type} (p : Production α) :
    Production (List α) := do
  let first ← p
  let others ← repeated do
    if ← accept .comma then return some (← p) else return none
  return first :: others

/-! ### Containers -/

/-- What reading one item of a container gives: what it holds, the state
of the container, the tokens that are left, and the failure that ended it,
if one did. -/
structure Reading (σ α : Type) where
  items : List α := []
  state : σ
  rest : List Token
  failure? : Option Failure := none

/-- The tokens from which the next item is read: those that are left, or
one less than before if none was read. -/
def Reading.next {σ α : Type} (r : Reading σ α) (ts : List Token) :
    List Token :=
  let left := if r.rest.length < ts.length then r.rest else ts.tail
  if r.failure?.isSome then recover left else left

theorem Reading.length_next_lt {σ α : Type} (r : Reading σ α)
    {ts : List Token} (h : ts ≠ []) :
    (r.next ts).length < ts.length := by
  have hp := List.length_pos_iff.mpr h
  have hl : (if r.rest.length < ts.length then r.rest
      else ts.tail).length < ts.length := by
    split
    · assumption
    · simp
      omega
  unfold Reading.next
  simp only
  split
  · exact Nat.lt_of_le_of_lt (length_recover_le _) hl
  · exact hl

/-- All items up to the end or a token of the kinds, with the state
reached and the tokens left.  An item that cannot be read leaves what
`report` makes of its failure. -/
def readAll {σ α : Type} (stops : List TokenKind)
    (one : σ → List Token → Reading σ α) (report : Failure → α) (s : σ)
    (ts : List Token) : List α × σ × List Token :=
  if _h : atEnd ts ∨ headIn stops ts then ([], s, ts)
  else
    let r := one s ts
    let q := readAll stops one report r.state (r.next ts)
    (r.items ++ (r.failure?.map report).toList ++ q.1, q.2)
termination_by ts.length
decreasing_by
  apply Reading.length_next_lt
  rintro rfl
  simp [atEnd] at _h

/-- A production as the reading of one item. -/
def Production.reading {σ α : Type} (p : Production (List α)) (s : σ)
    (ts : List Token) : Reading σ α :=
  match p.run ts with
  | (.ok items, rest) => ⟨items, s, rest, none⟩
  | (.error f, rest) => ⟨[], s, rest, some f⟩

end HeaderBinding
