import Mathlib.Data.List.Basic
import MethodSignatures.Text.Digits

/-! # Numerals

A number is written with digits of its base only, and no two numbers are written alike. Base ten is that of places and
counts, base sixteen that of code points.
-/

namespace MethodSignatures.Text

/-! ## Base ten -/

theorem isDigit_of_mem_toDigits {n : Nat} {digit : Char} (member : digit ∈ Nat.toDigits 10 n) : digit.isDigit = true :=
  Nat.isDigit_of_mem_toDigits (by decide) (by decide) member

theorem toDigits_ten_injective : Function.Injective (Nat.toDigits 10) := by
  intro n m sameDigits
  rw [← @Nat.ofDigitChars_ten_toDigits n, sameDigits, Nat.ofDigitChars_ten_toDigits]

/-! ## Base sixteen -/

theorem isSome_hexValue?_of_mem_toDigits {n : Nat} {digit : Char} (member : digit ∈ Nat.toDigits 16 n) :
    (hexValue? digit).isSome = true := by
  induction n using Nat.strongRecOn with
  | ind n inductionHypothesis =>
    rw [Nat.toDigits_eq_if (by decide)] at member
    split at member
    next small =>
      obtain rfl := List.mem_singleton.1 member
      rw [hexValue?_digitChar small, Option.isSome_some]
    next large =>
      rcases List.mem_append.1 member with leading | last
      · exact inductionHypothesis (n / 16) (by omega) leading
      · obtain rfl := List.mem_singleton.1 last
        rw [hexValue?_digitChar (Nat.mod_lt n (by decide)), Option.isSome_some]

theorem foldl_hexValue?_toDigits (n : Nat) :
    (Nat.toDigits 16 n).foldl (fun value digit => 16 * value + (hexValue? digit).getD 0) 0 = n := by
  induction n using Nat.strongRecOn with
  | ind n inductionHypothesis =>
    rw [Nat.toDigits_eq_if (by decide)]
    split
    next small => simp [hexValue?_digitChar small]
    next large =>
      -- All digits but the last one are those of the quotient.
      have leading := inductionHypothesis (n / 16) (by omega)
      rw [List.foldl_append, leading]
      simp only [List.foldl_cons, List.foldl_nil, hexValue?_digitChar (Nat.mod_lt n (by decide : 0 < 16)),
        Option.getD_some]
      omega

theorem toDigits_sixteen_injective : Function.Injective (Nat.toDigits 16) := by
  intro n m sameDigits
  rw [← foldl_hexValue?_toDigits n, sameDigits, foldl_hexValue?_toDigits]

end MethodSignatures.Text
