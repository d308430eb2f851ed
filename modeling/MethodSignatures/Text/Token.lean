import MethodSignatures.Text.Blank

/-! # Tokens, gaps and words

The shapes of text that a signature is put together from. A token is ended by a gap of blanks, a word by
a single space.
-/

namespace MethodSignatures.Text

/-- Text that a blank ends: it is not empty and holds none. -/
def IsToken (text : List Char) : Prop :=
  text ≠ [] ∧ ∀ c ∈ text, isBlank c = false

def IsGap (text : List Char) : Prop :=
  text ≠ [] ∧ ∀ c ∈ text, isBlank c = true

/-- Text that a space ends: it is not empty and holds none. -/
def IsWord (text : List Char) : Prop :=
  text ≠ [] ∧ ' ' ∉ text

/-- Text of nothing but blanks, or of nothing at all. -/
def AllBlank (text : List Char) : Prop :=
  ∀ c ∈ text, isBlank c = true

/-- Text whose first character, if it has one, is no blank. -/
def StartsUnblank (text : List Char) : Prop :=
  ∀ c ∈ text.head?, isBlank c = false

def IsTrimmed (text : List Char) : Prop :=
  text ≠ [] ∧ StartsUnblank text ∧ StartsUnblank text.reverse

-- Quantifiers over the characters of a text are decided along the text, not over all characters.
instance (text : List Char) : Decidable (IsToken text) :=
  @instDecidableAnd (text ≠ []) _ _ (List.decidableBAll (isBlank · = false) text)

instance (text : List Char) : Decidable (IsGap text) :=
  @instDecidableAnd (text ≠ []) _ _ (List.decidableBAll (isBlank · = true) text)

instance (text : List Char) : Decidable (IsWord text) :=
  inferInstanceAs (Decidable (text ≠ [] ∧ ' ' ∉ text))

instance (text : List Char) : Decidable (AllBlank text) :=
  List.decidableBAll (isBlank · = true) text

instance (text : List Char) : Decidable (StartsUnblank text) :=
  Option.decidableForallMem text.head?

instance (text : List Char) : Decidable (IsTrimmed text) :=
  inferInstanceAs (Decidable (text ≠ [] ∧ StartsUnblank text ∧ StartsUnblank text.reverse))

@[simp]
theorem startsUnblank_nil : StartsUnblank [] := by
  simp [StartsUnblank]

@[simp]
theorem startsUnblank_cons {c : Char} {rest : List Char} : StartsUnblank (c :: rest) ↔ isBlank c = false := by
  simp [StartsUnblank]

theorem IsToken.startsUnblank {token : List Char} (h : IsToken token) (rest : List Char) :
    StartsUnblank (token ++ rest) := by
  obtain ⟨hne, hall⟩ := h
  cases token with
  | nil => exact absurd rfl hne
  | cons c token => simpa using hall c (by simp)

theorem isGap_space : IsGap [' '] := by
  simp [IsGap]

/-! ## Runs -/

section

variable {p : Char → Bool} {front other rest behind : List Char}

theorem dropWhile_append_of_boundary (inFront : ∀ c ∈ front, p c = true) (boundary : ∀ c ∈ rest.head?, p c = false) :
    (front ++ rest).dropWhile p = rest := by
  rw [List.dropWhile_append_of_pos inFront]
  cases rest with
  | nil => rfl
  | cons c rest => simp [boundary c rfl]

/-- A text has one longest run of characters of a kind in front. -/
theorem eq_of_run_append_eq (inFront : ∀ c ∈ front, p c = true) (inOther : ∀ c ∈ other, p c = true)
    (boundary : ∀ c ∈ rest.head?, p c = false) (otherBoundary : ∀ c ∈ behind.head?, p c = false)
    (same : front ++ rest = other ++ behind) : front = other ∧ rest = behind := by
  have sameRest : rest = behind := by
    rw [← dropWhile_append_of_boundary inFront boundary, same, dropWhile_append_of_boundary inOther otherBoundary]
  subst sameRest
  exact ⟨List.append_cancel_right same, rfl⟩

end

/-- None of the words begins with another one. -/
def PrefixFree (words : List String) : Prop :=
  ∀ word ∈ words, ∀ other ∈ words, word.toList <+: other.toList → word = other

/-- A text begins with one of the words at most. -/
theorem PrefixFree.eq_of_append_eq {words : List String} (prefixFree : PrefixFree words) {word other : String}
    (isWord : word ∈ words) (otherIsWord : other ∈ words) {rest behind : List Char}
    (same : word.toList ++ rest = other.toList ++ behind) : word = other ∧ rest = behind := by
  have isPrefix : word.toList <+: other.toList ++ behind := by
    rw [← same]
    exact List.prefix_append _ _
  have sameWord : word = other := by
    cases List.prefix_or_prefix_of_prefix isPrefix (List.prefix_append _ _) with
    | inl inOther => exact prefixFree word isWord other otherIsWord inOther
    | inr inWord => exact (prefixFree other otherIsWord word isWord inWord).symm
  subst sameWord
  exact ⟨rfl, List.append_cancel_left same⟩

end MethodSignatures.Text
