/-! # JSON values

The values of the data format of RFC 8259. The members of an object stand in order. A number is kept as
it is written, up to the place of its decimal point, because a number without fraction and exponent is
another kind of value for a reader than one that has them.
-/

namespace MethodSignatures

/-- The number `± digits · 10 ^ exponent`. It is an integer if no exponent is given. -/
structure JsonNumber where
  negative : Bool
  digits : Nat
  exponent : Option Int
deriving DecidableEq

inductive Json where
  | null
  | bool (value : Bool)
  | number (value : JsonNumber)
  | string (text : String)
  | array (items : List Json)
  | object (members : List (String × Json))

namespace Json

def ofInt (value : Int) : Json :=
  .number { negative := value < 0, digits := value.natAbs, exponent := none }

def ofNat (value : Nat) : Json :=
  ofInt value

/-- The first member of an object with the given key. -/
def get? (value : Json) (key : String) : Option Json :=
  match value with
  | .object members => members.lookup key
  | _ => none

end Json

end MethodSignatures
