/-! # Digits

Numbers in positional notation: the value of decimal and hexadecimal digits, and the four hexadecimal
digits that write a code unit.
-/

namespace MethodSignatures.Text

def ofDecimal (digits : List Char) : Nat :=
  Nat.ofDigitChars 10 digits 0

/-- The value of a hexadecimal digit, in either case. -/
def hexValue? (c : Char) : Option Nat :=
  if '0' ≤ c ∧ c ≤ '9' then some (c.toNat - '0'.toNat)
  else if 'a' ≤ c ∧ c ≤ 'f' then some (10 + c.toNat - 'a'.toNat)
  else if 'A' ≤ c ∧ c ≤ 'F' then some (10 + c.toNat - 'A'.toNat)
  else none

/-- The lowest four hexadecimal digits of a number, the highest of them first. -/
def fourHexDigits (n : Nat) : List Char :=
  [n / 4096 % 16, n / 256 % 16, n / 16 % 16, n % 16].map Nat.digitChar

def ofFourHexDigits? (a b c d : Char) : Option Nat := do
  return (((← hexValue? a) * 16 + (← hexValue? b)) * 16 + (← hexValue? c)) * 16 + (← hexValue? d)

theorem hexValue?_digitChar {n : Nat} (h : n < 16) : hexValue? n.digitChar = some n := by
  have hall : ∀ n, n < 16 → hexValue? n.digitChar = some n := by decide
  exact hall n h

end MethodSignatures.Text
