/-! # Shortest decimals

A binary floating-point number is written with the fewest decimal digits that read back as it. The reals
that round to the number form an interval; on each decimal grid, from the widest to the finest, the two
points beside the number are tested against it, and the first grid with a point in the interval is taken.
-/

namespace MethodSignatures

/-- The number `digits · 10 ^ exponent`. -/
structure Decimal where
  digits : Nat
  exponent : Int
deriving DecidableEq

/-- A positive number and the interval of the reals that round to it, in multiples of `2 ^ unit`. -/
structure RoundingInterval where
  lower : Nat
  value : Nat
  upper : Nat
  unit : Int
  /-- The ends round to the number, too. -/
  closed : Bool

namespace RoundingInterval

/-- The weight of the bit in front of the fraction of a number in the 64-bit format. -/
def hiddenBit : Nat :=
  Nat.pow 2 52

/-- The interval of a positive number in the 64-bit format, from its exponent field and fraction. It reaches
half the way to the next numbers, and the way down is shorter from a power of two. -/
def ofFields (exponent fraction : Nat) : RoundingInterval :=
  let significand := if exponent = 0 then fraction else fraction + hiddenBit
  { lower := 4 * significand - if fraction = 0 ∧ 1 < exponent then 1 else 2
    value := 4 * significand
    upper := 4 * significand + 2
    unit := (max exponent 1 : Int) - 1077
    closed := significand % 2 = 0 }

/-- Whether a fraction of multiples lies in the interval. -/
def admits (interval : RoundingInterval) (numerator denominator : Nat) : Bool :=
  let low := interval.lower * denominator
  let high := interval.upper * denominator
  if interval.closed then low ≤ numerator && numerator ≤ high else low < numerator && numerator < high

/-- The multiple of `10 ^ exponent` beside the number that lies in the interval, if there is one. Of two
the nearer one is taken, and the even one if they are equally near. -/
def nearest? (interval : RoundingInterval) (exponent : Int) : Option Nat :=
  let step := Nat.pow 10 exponent.toNat * Nat.pow 2 (-interval.unit).toNat
  let scale := Nat.pow 10 (-exponent).toNat * Nat.pow 2 interval.unit.toNat
  let below := interval.value * scale / step
  let above := below + 1
  match interval.admits (below * step) scale, interval.admits (above * step) scale with
  | true, true =>
    match compare (2 * interval.value * scale) ((below + above) * step) with
    | .lt => some below
    | .eq => some (if below % 2 = 0 then below else above)
    | .gt => some above
  | true, false => some below
  | false, true => some above
  | false, false => none

/-- The first hit on the grids from `10 ^ exponent` down. -/
def search (interval : RoundingInterval) : Nat → Int → Option Decimal
  | 0, _ => none
  | grids + 1, exponent =>
    match interval.nearest? exponent with
    | some digits => some { digits, exponent }
    | none => interval.search grids (exponent - 1)

/-- The grids from `10 ^ 309`, above every number, to `10 ^ (-343)`, finer than every interval. -/
def shortest? (interval : RoundingInterval) : Option Decimal :=
  interval.search 653 309

end RoundingInterval

/-- The shortest decimal that reads back as a number in the 64-bit format, from its exponent field and
fraction. -/
def Decimal.ofFields (exponent fraction : Nat) : Decimal :=
  if exponent = 0 ∧ fraction = 0 then { digits := 0, exponent := 0 }
  else ((RoundingInterval.ofFields exponent fraction).shortest?).getD { digits := 0, exponent := 0 }

end MethodSignatures
