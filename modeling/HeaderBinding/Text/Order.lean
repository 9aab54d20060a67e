/-
The order of names.

* `nameBefore`: two names, by the code points of their characters;
* `namesBefore`: two rows of names, name by name, and the shorter of two
  that agree first.
-/

namespace HeaderBinding

/-- The first name does not come after the second. -/
def nameBefore (a b : String) : Bool :=
  decide (a ≤ b)

/-- The first row of names does not come after the second. -/
def namesBefore : List String → List String → Bool
  | [], _ => true
  | _ :: _, [] => false
  | a :: as, b :: bs =>
    if a = b then namesBefore as bs else nameBefore a b

end HeaderBinding
