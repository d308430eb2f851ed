import MethodSignatures.Decimal.Shortest

/-! # Decimal texts

A decimal is written out in full or with an exponent; a `DecimalStyle` says which of them by the place of
its leading digit.
-/

namespace MethodSignatures

/-- A decimal is written out in full if its leading digit stands for a multiple of `10 ^ place` with
`plainFrom ≤ place < plainBelow`. -/
structure DecimalStyle where
  plainFrom : Int
  plainBelow : Int

namespace Decimal

/-- The power of ten that the leading digit counts. -/
def leadingPlace (decimal : Decimal) : Int :=
  decimal.exponent + (Nat.toDigits 10 decimal.digits).length - 1

/-- A decimal written out in full. There is always a digit on both sides of the point. -/
def plain (decimal : Decimal) : List Char :=
  let places := (-decimal.exponent).toNat
  let whole := Nat.toDigits 10 decimal.digits ++ List.replicate decimal.exponent.toNat '0'
  let padded := List.replicate (places + 1 - whole.length) '0' ++ whole
  let fraction := padded.drop (padded.length - places)
  padded.take (padded.length - places) ++ '.' :: if fraction.isEmpty then ['0'] else fraction

/-- A decimal with one digit in front of the point and an exponent, which always has a sign. The point is
left out where no digit follows it. -/
def scientific (decimal : Decimal) : List Char :=
  let place := decimal.leadingPlace
  let digits := Nat.toDigits 10 decimal.digits
  let fraction := digits.drop 1
  digits.take 1 ++ (if fraction.isEmpty then [] else '.' :: fraction) ++
    'e' :: (if place < 0 then '-' else '+') :: Nat.toDigits 10 place.natAbs

def write (style : DecimalStyle) (decimal : Decimal) : List Char :=
  if style.plainFrom ≤ decimal.leadingPlace ∧ decimal.leadingPlace < style.plainBelow then decimal.plain
  else decimal.scientific

end Decimal

/-- The shortest decimal text of a finite number. Zero keeps its sign. -/
def DecimalStyle.writeFloat (style : DecimalStyle) (value : Float) : List Char :=
  let bits := value.toBits.toNat
  let exponent := bits / RoundingInterval.hiddenBit % 0x800
  let fraction := bits % RoundingInterval.hiddenBit
  (if bits / RoundingInterval.hiddenBit / 0x800 = 1 then ['-'] else []) ++
    (Decimal.ofFields exponent fraction).write style

end MethodSignatures
