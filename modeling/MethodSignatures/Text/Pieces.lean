import MethodSignatures.Text.Listing

/-! # Pieces of a list

An argument list is written with a comma and a space between its members. `Reader.pieces` reads them one after
another. `pieces` says what they are: it cuts a text at every separator, so that also the empty text has one piece;
`joined` puts pieces together again.

Main statements: nothing is lost by cutting (`joined_pieces`), no piece can be cut further
(`not_separator_infix_of_mem_pieces`), and these two determine the pieces (`pieces_joined`). So the pieces of two
texts with a separator between them are the pieces of both (`pieces_append`).
-/

namespace MethodSignatures.Text

def separator : List Char := [',', ' ']

/-- Takes everything in front of the first separator, or everything that there is. -/
def Reader.piece : Reader (List Char) :=
  (Reader.upTo separator).orElse Reader.remainder

def Reader.pieces : Reader (List (List Char)) :=
  Reader.list (Reader.mark separator) Reader.piece

def joined (parts : List (List Char)) : List Char :=
  separator.intercalate parts

def extendFirst (c : Char) : List (List Char) → List (List Char)
  | [] => [[c]]
  | piece :: rest => (c :: piece) :: rest

/-- The pieces between the separators, empty ones kept. -/
def pieces : List Char → List (List Char)
  | [] => [[]]
  | ',' :: ' ' :: rest => [] :: pieces rest
  | c :: rest => extendFirst c (pieces rest)

theorem extendFirst_ne_nil (c : Char) (parts : List (List Char)) : extendFirst c parts ≠ [] := by
  cases parts <;> simp [extendFirst]

theorem pieces_ne_nil (text : List Char) : pieces text ≠ [] := by
  fun_cases pieces text <;> simp [extendFirst_ne_nil]

@[simp]
theorem joined_cons {piece : List Char} {rest : List (List Char)} (h : rest ≠ []) :
    joined (piece :: rest) = piece ++ separator ++ joined rest := by
  cases rest with
  | nil => exact absurd rfl h
  | cons next rest => simp [joined, List.intercalate]

theorem joined_extendFirst (c : Char) {parts : List (List Char)} (h : parts ≠ []) :
    joined (extendFirst c parts) = c :: joined parts := by
  cases parts with
  | nil => exact absurd rfl h
  | cons piece rest =>
    cases rest with
    | nil => simp [extendFirst, joined, List.intercalate]
    | cons next rest => simp [extendFirst]

theorem joined_pieces (text : List Char) : joined (pieces text) = text := by
  fun_induction pieces text with
  | case1 => rfl
  | case2 rest ih => simp [joined_cons (pieces_ne_nil rest), ih, separator]
  | case3 c rest _ ih => rw [joined_extendFirst c (pieces_ne_nil rest), ih]

theorem pieces_append_separator {piece : List Char} (h : ¬ separator <:+: piece) (rest : List Char) :
    pieces (piece ++ separator ++ rest) = piece :: pieces rest := by
  induction piece with
  | nil => simp [separator, pieces]
  | cons c tail ih =>
    have htail : ¬ separator <:+: tail := fun hin => h (hin.trans (List.suffix_cons c tail).isInfix)
    have hcut : ∀ following, ¬ (c = ',' ∧ tail ++ separator ++ rest = ' ' :: following) := by
      rintro following ⟨rfl, heq⟩
      cases tail with
      | nil => simp [separator] at heq
      | cons d tail =>
        obtain rfl : d = ' ' := by simpa using (List.cons.inj heq).1
        exact h ⟨[], tail, rfl⟩
    rw [List.cons_append, List.cons_append, pieces, ih htail]
    · rfl
    · exact fun following hc heq => hcut following ⟨hc, heq⟩

theorem pieces_of_not_infix {piece : List Char} (h : ¬ separator <:+: piece) : pieces piece = [piece] := by
  induction piece with
  | nil => rfl
  | cons c tail ih =>
    have htail : ¬ separator <:+: tail := fun hin => h (hin.trans (List.suffix_cons c tail).isInfix)
    rw [pieces, ih htail]
    · rfl
    · rintro following rfl rfl
      exact h ⟨[], following, rfl⟩

theorem joined_append {left right : List (List Char)} (leftNonempty : left ≠ []) (rightNonempty : right ≠ []) :
    joined (left ++ right) = joined left ++ separator ++ joined right := by
  induction left with
  | nil => exact absurd rfl leftNonempty
  | cons piece rest ih =>
    by_cases empty : rest = []
    · subst empty
      simpa [joined, List.intercalate] using joined_cons rightNonempty
    · rw [List.cons_append, joined_cons (by simp [empty]), ih empty, joined_cons empty]
      simp only [List.append_assoc]

theorem pieces_joined {parts : List (List Char)} (hne : parts ≠ [])
    (hfree : ∀ piece ∈ parts, ¬ separator <:+: piece) : pieces (joined parts) = parts := by
  induction parts with
  | nil => exact absurd rfl hne
  | cons piece rest ih =>
    by_cases hrest : rest = []
    · subst hrest
      simpa [joined, List.intercalate] using pieces_of_not_infix (hfree piece (by simp))
    · rw [joined_cons hrest, pieces_append_separator (hfree piece (by simp)),
        ih hrest fun other hmem => hfree other (by simp [hmem])]

theorem not_separator_infix_of_mem_pieces {text piece : List Char} (h : piece ∈ pieces text) :
    ¬ separator <:+: piece := by
  fun_induction pieces text generalizing piece with
  | case1 => simp_all [separator]
  | case2 rest ih =>
    rcases List.mem_cons.1 h with rfl | hmem
    · simp [separator]
    · exact ih hmem
  | case3 c rest hcut ih =>
    cases hparts : pieces rest with
    | nil => exact absurd hparts (pieces_ne_nil rest)
    | cons first others =>
      rw [hparts, extendFirst] at h
      rcases List.mem_cons.1 h with rfl | hmem
      · intro hin
        rcases List.infix_cons_iff.1 hin with hpre | hin
        · obtain ⟨following, heq⟩ := hpre
          have hc : c = ',' := by simpa [separator] using (List.cons.inj heq).1.symm
          have hfirst : first = ' ' :: following := by simpa [separator] using (List.cons.inj heq).2.symm
          have htext := joined_pieces rest
          rw [hparts, hfirst] at htext
          cases others with
          | nil => exact hcut following hc (by simpa [joined, List.intercalate] using htext.symm)
          | cons next others =>
            exact hcut _ hc (by simpa using htext.symm)
        · exact ih (hparts ▸ List.mem_cons_self) hin
      · exact ih (hparts ▸ List.mem_cons_of_mem _ hmem)

/-- Cutting is undone at a separator only: it neither vanishes nor gives rise to another one at its two ends. -/
theorem pieces_append (left right : List Char) :
    pieces (left ++ separator ++ right) = pieces left ++ pieces right := by
  have joinedBoth : joined (pieces left ++ pieces right) = left ++ separator ++ right := by
    rw [joined_append (pieces_ne_nil left) (pieces_ne_nil right), joined_pieces, joined_pieces]
  rw [← joinedBoth]
  apply pieces_joined
  · simp [pieces_ne_nil left]
  · intro piece member
    rcases List.mem_append.1 member with inLeft | inRight
    · exact not_separator_infix_of_mem_pieces inLeft
    · exact not_separator_infix_of_mem_pieces inRight

end MethodSignatures.Text
