import MethodSignatures.Proofs.Numerals
import MethodSignatures.Text.Cut
import MethodSignatures.Text.Visible

/-! # Where a quoted text ends

A quoted text can be told from whatever stands behind it: the quote that closes it is the first one without a
backslash, and no two texts are quoted alike (`Text.selfDelimiting_visible`). This does not depend on which characters
are hidden.
-/

namespace MethodSignatures.Text

/-! ## Characters -/

/-- The three ways in which a character is shown between quotes. -/
inductive Shown (c : Char) : List Char → Prop where
  | letter {letter : Char} (isEscape : (c, letter) ∈ visibleLetters) : Shown c ['\\', letter]
  | code : Shown c ('\\' :: 'u' :: '\x7b' :: Nat.toDigits 16 c.toNat ++ ['\x7d'])
  | plain (noQuote : c ≠ '"') (noBackslash : c ≠ '\\') : Shown c [c]

section

variable {hidden : Char → Bool}

theorem shown_escape (c : Char) : Shown c ((visible hidden).escape c) := by
  unfold QuoteStyle.escape
  cases found : (visible hidden).letters.lookup c with
  | some letter =>
    obtain ⟨before, after, letters, _⟩ := List.lookup_eq_some_iff.1 found
    have isEscape : (c, letter) ∈ (visible hidden).letters := by simp [letters]
    exact .letter isEscape
  | none =>
    have absent := List.lookup_eq_none_iff.1 found
    dsimp only
    split
    next => exact .code
    next =>
      -- A quote and a backslash have letters of their own.
      refine .plain ?_ ?_
      · rintro rfl
        simp [visible, visibleLetters] at absent
      · rintro rfl
        simp [visible, visibleLetters] at absent

/-- A letter stands for one character, and none of them introduces a code point. -/
theorem letters_unique : ∀ escape ∈ visibleLetters, escape.2 ≠ 'u' ∧
    ∀ other ∈ visibleLetters, escape.2 = other.2 → escape.1 = other.1 := by
  decide

theorem closing_not_mem_toDigits (n : Nat) : '\x7d' ∉ Nat.toDigits 16 n := by
  intro member
  have isDigit := isSome_hexValue?_of_mem_toDigits member
  rw [show hexValue? '\x7d' = none by decide] at isDigit
  cases isDigit

theorem Shown.unique {c d : Char} {text other rest behind : List Char} (shown : Shown c text)
    (otherShown : Shown d other) (same : text ++ rest = other ++ behind) : c = d ∧ rest = behind := by
  cases shown with
  | letter isEscape =>
    obtain ⟨noCode, unique⟩ := letters_unique _ isEscape
    cases otherShown with
    | letter otherIsEscape =>
      obtain ⟨sameLetter, sameRest⟩ := by simpa using same
      exact ⟨unique _ otherIsEscape sameLetter, sameRest⟩
    | code => simp [noCode] at same
    | plain _ noBackslash => simp [Ne.symm noBackslash] at same
  | code =>
    cases otherShown with
    | letter otherIsEscape =>
      obtain ⟨noCode, _⟩ := letters_unique _ otherIsEscape
      simp [Ne.symm noCode] at same
    | code =>
      -- The bracket that ends a code point is none of its digits.
      have sameCode : Nat.toDigits 16 c.toNat ++ '\x7d' :: rest = Nat.toDigits 16 d.toNat ++ '\x7d' :: behind := by
        simpa using same
      obtain ⟨sameDigits, sameRest⟩ :=
        eq_of_append_mark_eq (closing_not_mem_toDigits _) (closing_not_mem_toDigits _) sameCode
      exact ⟨Char.toNat_inj.1 (toDigits_sixteen_injective sameDigits), sameRest⟩
    | plain _ noBackslash => simp [Ne.symm noBackslash] at same
  | plain noQuote noBackslash =>
    cases otherShown with
    | letter _ => simp [noBackslash] at same
    | code => simp [noBackslash] at same
    | plain _ _ => simpa using same

theorem Shown.quote_ne {c : Char} {text rest behind : List Char} (shown : Shown c text) :
    text ++ rest ≠ '"' :: behind := by
  cases shown with
  | letter _ => simp
  | code => simp
  | plain noQuote _ => simp [noQuote]

/-! ## Texts -/

theorem flatMap_escape_unique {characters others rest behind : List Char}
    (same : characters.flatMap (visible hidden).escape ++ '"' :: rest =
      others.flatMap (visible hidden).escape ++ '"' :: behind) : characters = others ∧ rest = behind := by
  -- Were one text to end first, its quote would stand where the other one shows a character.
  induction characters generalizing others with
  | nil =>
    cases others with
    | nil => simpa using same
    | cons d others =>
      rw [List.flatMap_cons, List.append_assoc] at same
      exact absurd same.symm (shown_escape d).quote_ne
  | cons c characters inductionHypothesis =>
    cases others with
    | nil =>
      rw [List.flatMap_cons, List.append_assoc] at same
      exact absurd same (shown_escape c).quote_ne
    | cons d others =>
      rw [List.flatMap_cons, List.flatMap_cons, List.append_assoc, List.append_assoc] at same
      obtain ⟨rfl, sameRest⟩ := (shown_escape c).unique (shown_escape d) same
      obtain ⟨rfl, rfl⟩ := inductionHypothesis sameRest
      exact ⟨rfl, rfl⟩

end

/-- Behind a quoted text anything may follow, and still it can be told which text was quoted and what follows. -/
def QuoteStyle.SelfDelimiting (style : QuoteStyle) : Prop :=
  ∀ text other rest behind, style.quote text ++ rest = style.quote other ++ behind → text = other ∧ rest = behind

theorem selfDelimiting_visible (hidden : Char → Bool) : (visible hidden).SelfDelimiting := by
  intro text other rest behind same
  have sameBody : text.toList.flatMap (visible hidden).escape ++ '"' :: rest =
      other.toList.flatMap (visible hidden).escape ++ '"' :: behind := by
    simpa [QuoteStyle.quote] using same
  obtain ⟨sameText, sameRest⟩ := flatMap_escape_unique sameBody
  exact ⟨String.toList_inj.1 sameText, sameRest⟩

end MethodSignatures.Text
