import MethodSignatures.Decimal.Text
import MethodSignatures.Json.Basic
import MethodSignatures.Text.Visible

/-! # Kinds of JSON values

How a message names a value that was not expected: by its kind and, unless it is composed of others, by
what it is. A text is quoted with the given characters hidden.
-/

namespace MethodSignatures

namespace JsonNumber

/-- Numbers below it fit 64 bits. -/
def wordBound : Nat :=
  Nat.pow 2 64

/-- The value of a number that counts as an integer: it has no fraction and no exponent, and it fits 64
bits with or without a sign. A negative zero is no integer. -/
def toInt? (number : JsonNumber) : Option Int :=
  match number.exponent, number.negative with
  | some _, _ => none
  | none, false => if number.digits < wordBound then some number.digits else none
  | none, true => if 0 < number.digits ∧ number.digits ≤ wordBound / 2 then some (-number.digits) else none

/-- The leading digits that fit 64 bits, and how many are left out behind them. -/
def leadingDigits (digits : Nat) : Nat × Nat :=
  if digits < wordBound then (digits, 0)
  else
    let (kept, dropped) := leadingDigits (digits / 10)
    (kept, dropped + 1)
termination_by digits
decreasing_by
  have hbound : 0 < wordBound := by decide
  omega

/-- A power of ten, rounded to the nearest floating-point number. -/
def powerOfTen (exponent : Nat) : Float :=
  .ofScientific 1 false exponent

/-- Moves the decimal point of a number. A step to the left by more than 308 places is made in two. -/
def scaled (value : Float) (exponent : Int) : Float :=
  if 0 ≤ exponent then value * powerOfTen exponent.toNat
  else if -308 ≤ exponent then value / powerOfTen (-exponent).toNat
  else if -616 ≤ exponent then value / powerOfTen 308 / powerOfTen (-exponent - 308).toNat
  else 0

/-- The floating-point number that a number counts as otherwise. -/
def toFloat (number : JsonNumber) : Float :=
  let (kept, dropped) := leadingDigits number.digits
  let magnitude := scaled (.ofNat kept) (number.exponent.getD 0 + dropped)
  if number.negative then -magnitude else magnitude

/-- Floating-point numbers are written out in full from `0.00001` up to sixteen digits in front of the
point. -/
def decimalStyle : DecimalStyle :=
  { plainFrom := -5, plainBelow := 16 }

end JsonNumber

def Json.kind (hidden : Char → Bool) : Json → String
  | null => "null"
  | bool value => "boolean `" ++ (if value then "true" else "false") ++ "`"
  | number value =>
    match value.toInt? with
    | some value => "integer `" ++ toString value ++ "`"
    | none => "floating point `" ++ .ofList (JsonNumber.decimalStyle.writeFloat value.toFloat) ++ "`"
  | string text => "string " ++ .ofList ((Text.visible hidden).quote text)
  | array _ => "sequence"
  | object _ => "map"

end MethodSignatures
