/-
The names that headers give to types.

* `TypeContext`: the aliases, callables, enumerations and structures;
* `TypeContext.ofHeaders`: those of some headers, in their order;
* `TypeContext.chase`: the text that an alias stands for, in the end;
* `TypeContext.resolveText`, `TypeContext.resolve`: the same from a name;
* `TypeContext.isEnum`: the name stands for an enumeration.
-/
import HeaderBinding.Header.Basic
import HeaderBinding.Json.Basic
import HeaderBinding.Mapping.TypeText

namespace HeaderBinding

/-- The names of types that some headers declare. -/
structure TypeContext where
  /-- Names for types, with the text of the type. -/
  aliases : List (String × String) := []
  /-- Names for block types. -/
  blocks : List String := []
  /-- Names for pointers to functions. -/
  functionPointers : List String := []
  enums : List String := []
  structs : List String := []
deriving DecidableEq, Repr

/-- The list with the name, which is added at the end if it is
missing. -/
def insertName (name : String) (names : List String) : List String :=
  if names.contains name then names else names ++ [name]

/-- One more alias.  An alias that only repeats its own name does not
count. -/
def TypeContext.addAlias (ctx : TypeContext) (a : Alias) : TypeContext :=
  if a.name = "" then ctx
  else if a.isBlock then { ctx with blocks := insertName a.name ctx.blocks }
  else if a.isFunctionPointer then
    { ctx with
      functionPointers := insertName a.name ctx.functionPointers }
  else if a.name = a.target then ctx
  else { ctx with aliases := putField a.name a.target ctx.aliases }

/-- One more enumeration. -/
def TypeContext.addEnum (ctx : TypeContext) (e : EnumDef) : TypeContext :=
  match e.name? with
  | some name =>
    if name = "" then ctx
    else { ctx with enums := insertName name ctx.enums }
  | none => ctx

/-- One more structure. -/
def TypeContext.addStruct (ctx : TypeContext) (s : StructDef) :
    TypeContext :=
  if s.name = "" then ctx
  else { ctx with structs := insertName s.name ctx.structs }

/-- The names of one more header. -/
def TypeContext.addHeader (ctx : TypeContext) (h : Header) :
    TypeContext :=
  h.structs.foldl addStruct
    (h.enums.foldl addEnum (h.aliases.foldl addAlias ctx))

/-- The names of some headers. -/
def TypeContext.ofHeaders (hs : List Header) : TypeContext :=
  hs.foldl addHeader {}

/-! ### Aliases -/

/-- The aliases without one name. -/
def withoutAlias (name : String) (table : List (String × String)) :
    List (String × String) :=
  table.filter fun entry => entry.1 ≠ name

theorem length_withoutAlias_lt {table : List (String × String)}
    {name text : String} (h : table.lookup name = some text) :
    (withoutAlias name table).length < table.length := by
  unfold withoutAlias
  induction table with
  | nil => simp at h
  | cons e es ih =>
    obtain ⟨k, v⟩ := e
    by_cases hk : k = name
    · have := List.length_filter_le
        (fun entry : String × String => decide (entry.1 ≠ name)) es
      simp [hk]
      simp at this
      omega
    · have hb : (name == k) = false := by simpa using Ne.symm hk
      simp only [List.lookup_cons, hb] at h
      have := ih h
      simp [hk] at this ⊢
      omega

/-- The text that `current`, which `text` spells, stands for.  Each alias
is used once, so that a cycle ends where it closes. -/
def chase (table : List (String × String)) (current text : String) :
    String :=
  match _h : table.lookup current with
  | none => text
  | some target =>
    chase (withoutAlias current table) (baseTypeName target) target
termination_by table.length
decreasing_by exact length_withoutAlias_lt _h

theorem chase_of_lookup_eq_none {table : List (String × String)}
    {current : String} (h : table.lookup current = none) (text : String) :
    chase table current text = text := by
  rw [chase]
  split
  · rfl
  · rename_i hsome
    rw [h] at hsome
    cases hsome

theorem chase_of_lookup_eq_some {table : List (String × String)}
    {current target : String} (h : table.lookup current = some target)
    (text : String) :
    chase table current text
      = chase (withoutAlias current table) (baseTypeName target) target := by
  rw [chase]
  split
  · rename_i hnone
    rw [h] at hnone
    cases hnone
  · rename_i hsome
    rw [h] at hsome
    obtain rfl := Option.some.inj hsome
    rfl

/-- The text of the type that a name stands for. -/
def TypeContext.resolveText (ctx : TypeContext) (name : String) :
    String :=
  chase ctx.aliases name name

/-- The name of the type that a name stands for. -/
def TypeContext.resolve (ctx : TypeContext) (name : String) : String :=
  baseTypeName (ctx.resolveText name)

/-- The name stands for an enumeration. -/
def TypeContext.isEnum (ctx : TypeContext) (name : String) : Bool :=
  ctx.enums.contains (ctx.resolve name) || ctx.enums.contains name

/-- The name is an alias. -/
def TypeContext.isAlias (ctx : TypeContext) (name : String) : Bool :=
  (ctx.aliases.lookup name).isSome

end HeaderBinding
