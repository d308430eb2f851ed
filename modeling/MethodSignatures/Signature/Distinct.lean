import MethodSignatures.Signature.Basic

/-! # Distinct signatures

Values are told apart by equality. Each value is represented by the first one in order that is equal to it.
-/

namespace MethodSignatures.Signature

/-- For each value the place of the first one equal to it; an absent value has none. -/
def firstPlaces (values : List (Option Signature)) : List (Option Nat) :=
  values.map fun value => value.bind fun signature => values.idxOf? (some signature)

def countDistinct (values : List (Option Signature)) : Nat :=
  (values.filterMap id).eraseDups.length

end MethodSignatures.Signature
