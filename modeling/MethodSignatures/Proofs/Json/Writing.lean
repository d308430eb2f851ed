import MethodSignatures.Json.Grammar
import MethodSignatures.Json.Writer

/-! # Written JSON

The text that is written for a value spells the value by the rules of the grammar (`Json.value_write`), whatever its
strings hold: a character is written as it is, by its letter or by its code unit, and each of the three spells it.
-/

namespace MethodSignatures

namespace Text

theorem ofFourHexDigits?_digitChar {n : Nat} (bound : n < 65536) :
    ofFourHexDigits? (n / 4096 % 16).digitChar (n / 256 % 16).digitChar (n / 16 % 16).digitChar (n % 16).digitChar =
      some n := by
  have value : ((n / 4096 % 16 * 16 + n / 256 % 16) * 16 + n / 16 % 16) * 16 + n % 16 = n := by omega
  have digit : ∀ m : Nat, hexValue? (m % 16).digitChar = some (m % 16) :=
    fun m => hexValue?_digitChar (Nat.mod_lt m (by decide))
  simp [ofFourHexDigits?, digit, value]

end Text

namespace Json

theorem isSpace_nil : IsSpace [] := by
  simp [IsSpace]

/-! ## Strings -/

/-- Every letter that is written may be read. -/
theorem swap_mem_letterEscapes : ∀ escape ∈ quoting.letters, (escape.2, escape.1) ∈ letterEscapes := by
  decide

theorem characters_escape (c : Char) {text characters : List Char} (rest : Characters text characters) :
    Characters (quoting.escape c ++ text) (c :: characters) := by
  unfold Text.QuoteStyle.escape
  cases found : quoting.letters.lookup c with
  | some letter =>
    obtain ⟨before, after, letters, _⟩ := List.lookup_eq_some_iff.1 found
    have member : (c, letter) ∈ quoting.letters := by simp [letters]
    exact .letter (swap_mem_letterEscapes _ member) rest
  | none =>
    have absent := List.lookup_eq_none_iff.1 found
    by_cases control : c.toNat < 0x20
    · have digits : Text.ofFourHexDigits? (c.toNat / 4096 % 16).digitChar (c.toNat / 256 % 16).digitChar
          (c.toNat / 16 % 16).digitChar (c.toNat % 16).digitChar = some c.toNat :=
        Text.ofFourHexDigits?_digitChar (by omega)
      have spelled := Characters.code digits (.inl (by omega)) rest
      rw [Char.ofNat_toNat] at spelled
      simpa [quoting, control, Text.fourHexDigits] using spelled
    · have noQuote : c ≠ '"' := by
        rintro rfl
        simp [quoting] at absent
      have noBackslash : c ≠ '\\' := by
        rintro rfl
        simp [quoting] at absent
      simpa [quoting, control] using Characters.plain (by omega) noQuote noBackslash rest

theorem characters_flatMap_escape (characters : List Char) :
    Characters (characters.flatMap quoting.escape) characters := by
  induction characters with
  | nil => exact .nil
  | cons c characters inductionHypothesis => exact characters_escape c inductionHypothesis

theorem value_quote (text : String) : Value (quoting.quote text) (.string text) := by
  have spelled := Value.string (characters_flatMap_escape text.toList)
  rwa [String.ofList_toList] at spelled

/-! ## Numbers -/

theorem isDigits_toDigits (n : Nat) : IsDigits (Nat.toDigits 10 n) :=
  ⟨Nat.toDigits_ne_nil, fun _ member => Nat.isDigit_of_mem_toDigits (by decide) (by decide) member⟩

theorem head?_toDigits_ne_zero {n : Nat} (positive : 0 < n) : (Nat.toDigits 10 n).head? ≠ some '0' := by
  induction n using Nat.strongRecOn with
  | ind n inductionHypothesis =>
    rw [Nat.toDigits_eq_if (by decide)]
    split
    next small =>
      have distinct : ∀ digit, digit < 10 → 0 < digit → Nat.digitChar digit ≠ '0' := by decide
      simpa using distinct n small positive
    next large =>
      -- The leading digit is that of the quotient, which is smaller and still positive.
      have leading := inductionHypothesis (n / 10) (by omega) (by omega)
      cases digits : Nat.toDigits 10 (n / 10) with
      | nil => exact absurd digits Nat.toDigits_ne_nil
      | cons digit rest => simpa [digits] using leading

theorem isWhole_toDigits (n : Nat) : IsWhole (Nat.toDigits 10 n) := by
  refine ⟨isDigits_toDigits n, ?_⟩
  intro leadingZero
  cases n with
  | zero => rfl
  | succ n => exact absurd leadingZero (head?_toDigits_ne_zero (by omega))

theorem ofDecimal_toDigits (n : Nat) : Text.ofDecimal (Nat.toDigits 10 n) = n :=
  Nat.ofDigitChars_ten_toDigits

theorem exponent_write (exponent : Int) :
    Exponent ('e' :: (if exponent < 0 then ['-'] else []) ++ Nat.toDigits 10 exponent.natAbs) (some exponent) := by
  have isMark : 'e' = 'e' ∨ 'e' = 'E' := .inl rfl
  by_cases negative : exponent < 0
  · have spelled := Exponent.negative isMark (isDigits_toDigits exponent.natAbs)
    have value : -(Text.ofDecimal (Nat.toDigits 10 exponent.natAbs) : Int) = exponent := by
      rw [ofDecimal_toDigits]
      omega
    rw [value] at spelled
    simpa [negative] using spelled
  · have spelled := Exponent.unsigned isMark (isDigits_toDigits exponent.natAbs)
    have value : (Text.ofDecimal (Nat.toDigits 10 exponent.natAbs) : Int) = exponent := by
      rw [ofDecimal_toDigits]
      omega
    rw [value] at spelled
    simpa [negative] using spelled

theorem number_write (number : JsonNumber) : Number number.write number := by
  obtain ⟨negative, digits, exponent⟩ := number
  have whole := isWhole_toDigits digits
  cases exponent with
  | none =>
    have spelled := @Number.mk negative _ _ _ _ _ whole .absent .absent
    simpa [JsonNumber.write, scaleOf, ofDecimal_toDigits] using spelled
  | some exponent =>
    have spelled := @Number.mk negative _ _ _ _ _ whole .absent (exponent_write exponent)
    simpa [JsonNumber.write, scaleOf, ofDecimal_toDigits] using spelled

/-! ## Values -/

theorem Value.document {text : List Char} {value : Json} (spelled : Value text value) : Document text value := by
  simpa using Document.mk isSpace_nil spelled isSpace_nil

theorem member_quote (key : String) {text : List Char} {value : Json} (spelled : Value text value) :
    Member (quoting.quote key ++ ':' :: text) (key, value) := by
  have written := Member.mk isSpace_nil (characters_flatMap_escape key.toList) isSpace_nil spelled.document
  simpa [Text.QuoteStyle.quote] using written

mutual
theorem value_write (value : Json) : Value value.write value := by
  cases value with
  | null => exact .null
  | bool value =>
    cases value with
    | false => exact .boolFalse
    | true => exact .boolTrue
  | number value => exact .number (number_write value)
  | string text => exact value_quote text
  | array items =>
    cases items with
    | nil => exact .emptyArray isSpace_nil
    | cons item rest => exact .array (items_writeItems item rest)
  | object members =>
    cases members with
    | nil => exact .emptyObject isSpace_nil
    | cons member rest => exact .object (members_writeMembers member rest)
termination_by sizeOf value

theorem items_writeItems (item : Json) (rest : List Json) : Items (writeItems (item :: rest)) (item :: rest) := by
  have spelled := (value_write item).document
  cases rest with
  | nil => simpa [writeItems] using Items.last spelled
  | cons next rest => simpa [writeItems] using Items.cons spelled (items_writeItems next rest)
termination_by sizeOf (item :: rest)

theorem members_writeMembers (member : String × Json) (rest : List (String × Json)) :
    Members (writeMembers (member :: rest)) (member :: rest) := by
  obtain ⟨key, value⟩ := member
  have spelled := member_quote key (value_write value)
  cases rest with
  | nil => simpa [writeMembers] using Members.last spelled
  | cons next rest => simpa [writeMembers] using Members.cons spelled (members_writeMembers next rest)
termination_by sizeOf (member :: rest)
end

/-- Whatever its strings hold, the text of a value is well formed. -/
theorem document_render (value : Json) : Document value.render.toList value := by
  simpa [render] using (value_write value).document

end Json

end MethodSignatures
