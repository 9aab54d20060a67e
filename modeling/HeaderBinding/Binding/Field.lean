/-
The fields of structures.

* `splitArraySuffixes`: the type of a field without its array bounds, and
  the bounds;
* `bindField`: the member for a field.  An array of fixed bounds is kept
  in place; other arrays and references are bare pointers.
-/
import HeaderBinding.Binding.Slot

namespace HeaderBinding

/-- The bound in brackets at the start of a text, blanks apart, and what
follows. -/
def readArraySuffix? (cs : List Char) :
    Option (List Char × List Char) :=
  match trimLeft cs with
  | '[' :: rest =>
    match cutAt? [']'] rest with
    | some sides => some sides
    | none => none
  | _ => none

theorem length_readArraySuffix_lt {cs size rest : List Char}
    (h : readArraySuffix? cs = some (size, rest)) :
    rest.length < cs.length := by
  have hd : (trimLeft cs).length ≤ cs.length :=
    (List.dropWhile_sublist _).length_le
  unfold readArraySuffix? at h
  split at h
  · rename_i inner heq
    split at h
    · rename_i sides hcut
      simp only [Option.some.injEq] at h
      subst h
      have := congrArg List.length (cutAt?_eq_some hcut)
      rw [heq] at hd
      simp at this hd
      omega
    · simp at h
  · simp at h

/-- The text without its array bounds, and the bounds. -/
def splitArraySuffixes (cs : List Char) :
    List Char × List (List Char) :=
  match _h : readArraySuffix? cs with
  | some (size, rest) =>
    let split := splitArraySuffixes rest
    (split.1, size :: split.2)
  | none =>
    match cs with
    | [] => ([], [])
    | c :: rest =>
      let split := splitArraySuffixes rest
      (c :: split.1, split.2)
termination_by cs.length
decreasing_by
  · exact length_readArraySuffix_lt _h
  · simp

/-- The attribute of a value that is kept in a way of its own. -/
def marshalAs (args : List String) : Attribute :=
  ⟨"MarshalAs", args, none⟩

/-- The member for a field. -/
def bindField (ctx : TypeContext) (f : StructField) : Member :=
  let split := splitArraySuffixes f.type.toList
  let sizes := split.2.map trim
  let element := String.ofList (trim split.1)
  let type := bindType ctx none element
  let name := safeIdentifier f.name
  if !sizes.isEmpty && sizes.all (!·.isEmpty) then
    { kind := .field
      name := name
      type := type.1 ++ "[]"
      attributes :=
        [marshalAs ["UnmanagedType.ByValArray", "SizeConst = "
          ++ " * ".intercalate (sizes.map String.ofList)]]
      isUnsafe := type.2 }
  else if !sizes.isEmpty || isObjectReference ctx element then
    { kind := .field, name := name, type := "IntPtr" }
  else
    { kind := .field
      name := name
      type := type.1
      attributes :=
        if type.1 = "bool" then [marshalAs ["UnmanagedType.I1"]] else []
      isUnsafe := type.2 }

end HeaderBinding
