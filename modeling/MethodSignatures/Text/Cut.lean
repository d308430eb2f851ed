import MethodSignatures.Text.Trim

/-! # Cutting a text in two

Three ways to divide a text once: after its leading token, at the first occurrence of a character and
at its last one. A cut drops what it cuts at and keeps everything else.
-/

namespace MethodSignatures.Text

/-- The leading token and what follows the run of blanks after it. `none` when the text is empty or
begins with a blank, and when no blank ends the token. -/
def cutToken? (text : List Char) : Option (List Char × List Char) :=
  let token := text.takeWhile (!isBlank ·)
  let rest := text.dropWhile (!isBlank ·)
  if token.isEmpty || rest.isEmpty then none else some (token, rest.dropWhile isBlank)

def cutFirst? (mark : Char) : List Char → Option (List Char × List Char)
  | [] => none
  | c :: rest =>
    if c = mark then some ([], rest)
    else (cutFirst? mark rest).map fun (before, after) => (c :: before, after)

def cutLast? (mark : Char) : List Char → Option (List Char × List Char)
  | [] => none
  | c :: rest =>
    match cutLast? mark rest with
    | some (before, after) => some (c :: before, after)
    | none => if c = mark then some ([], rest) else none

/-! ## What a cut finds -/

theorem cutToken?_append {token gap rest : List Char} (htoken : IsToken token) (hgap : IsGap gap)
    (hrest : StartsUnblank rest) : cutToken? (token ++ gap ++ rest) = some (token, rest) := by
  have hall : ∀ c ∈ token, (!isBlank c) = true := fun c hmem => by simp [htoken.2 c hmem]
  obtain ⟨hne, hblank⟩ := hgap
  cases gap with
  | nil => exact absurd rfl hne
  | cons c gap =>
    have hc : isBlank c = true := hblank c (by simp)
    have hdrop : (c :: (gap ++ rest)).dropWhile isBlank = rest := by
      rw [← List.cons_append, List.dropWhile_append_of_pos hblank, dropWhile_isBlank_of_startsUnblank hrest]
    simp [cutToken?, List.takeWhile_append_of_pos hall, List.dropWhile_append_of_pos hall, hc, htoken.1, hdrop]

theorem cutToken?_eq_some_iff {text token rest : List Char} :
    cutToken? text = some (token, rest) ↔
      ∃ gap, text = token ++ gap ++ rest ∧ IsToken token ∧ IsGap gap ∧ StartsUnblank rest := by
  constructor
  · intro h
    rw [cutToken?] at h
    split at h
    next => simp at h
    next hne =>
      obtain ⟨rfl, rfl⟩ := by simpa using h
      simp only [Bool.or_eq_true, List.isEmpty_iff, not_or] at hne
      refine ⟨(text.dropWhile (!isBlank ·)).takeWhile isBlank, ?_, ⟨hne.1, ?_⟩, ⟨?_, ?_⟩, startsUnblank_dropWhile _⟩
      · rw [List.append_assoc, List.takeWhile_append_dropWhile, List.takeWhile_append_dropWhile]
      · exact fun c hmem => by simpa using List.all_eq_true.1 List.all_takeWhile c hmem
      · have hhead := List.head?_dropWhile_not (!isBlank ·) text
        cases hdrop : text.dropWhile (!isBlank ·) with
        | nil => exact absurd hdrop hne.2
        | cons c rest => simp_all
      · exact List.all_eq_true.1 List.all_takeWhile
  · rintro ⟨gap, rfl, htoken, hgap, hrest⟩
    exact cutToken?_append htoken hgap hrest

theorem cutToken?_eq_none_iff {text : List Char} :
    cutToken? text = none ↔ ¬ StartsUnblank text ∨ ∀ c ∈ text, isBlank c = false := by
  have hdrop : ∀ rest : List Char, rest.dropWhile (!isBlank ·) = [] ↔ ∀ c ∈ rest, isBlank c = false := by
    intro rest
    induction rest with
    | nil => simp
    | cons c rest ih => by_cases hc : isBlank c = true <;> simp_all
  cases text with
  | nil => simp [cutToken?]
  | cons c rest => by_cases hc : isBlank c = true <;> simp [cutToken?, hc, hdrop]

theorem cutFirst?_eq_some_iff {mark : Char} {text before after : List Char} :
    cutFirst? mark text = some (before, after) ↔ text = before ++ mark :: after ∧ mark ∉ before := by
  induction text generalizing before after with
  | nil => simp [cutFirst?]
  | cons c rest ih =>
    by_cases hc : c = mark
    · subst hc
      cases before with
      | nil => simp [cutFirst?]
      | cons b before => simp [cutFirst?]; grind
    · cases before with
      | nil => simp [cutFirst?, hc]
      | cons b before =>
        simp only [cutFirst?, hc, if_false, Option.map_eq_some_iff, Prod.mk.injEq, Prod.exists,
          List.cons.injEq]
        grind

theorem cutFirst?_eq_none_iff {mark : Char} {text : List Char} : cutFirst? mark text = none ↔ mark ∉ text := by
  induction text with
  | nil => simp [cutFirst?]
  | cons c rest ih => by_cases hc : c = mark <;> simp_all [cutFirst?, Ne.symm]

/-- A text has one cut at the first occurrence of a character. -/
theorem eq_of_append_mark_eq {mark : Char} {before other after behind : List Char} (absent : mark ∉ before)
    (otherAbsent : mark ∉ other) (same : before ++ mark :: after = other ++ mark :: behind) :
    before = other ∧ after = behind := by
  have cut : cutFirst? mark (before ++ mark :: after) = some (other, behind) :=
    cutFirst?_eq_some_iff.2 ⟨same, otherAbsent⟩
  rw [cutFirst?_eq_some_iff.2 ⟨rfl, absent⟩] at cut
  exact Prod.mk.inj (Option.some.inj cut)

theorem cutLast?_eq_none_iff {mark : Char} {text : List Char} : cutLast? mark text = none ↔ mark ∉ text := by
  induction text with
  | nil => simp [cutLast?]
  | cons c rest ih =>
    cases hr : cutLast? mark rest with
    | none =>
      have hrest := ih.1 hr
      by_cases hc : c = mark
      · simp [cutLast?, hr, hc]
      · simp [cutLast?, hr, hc, hrest, Ne.symm hc]
    | some cut =>
      have hrest : mark ∈ rest := by grind
      simp [cutLast?, hr, hrest]

theorem cutLast?_eq_some_iff {mark : Char} {text before after : List Char} :
    cutLast? mark text = some (before, after) ↔ text = before ++ mark :: after ∧ mark ∉ after := by
  induction text generalizing before after with
  | nil => simp [cutLast?]
  | cons c rest ih =>
    cases hr : cutLast? mark rest with
    | none =>
      have hrest := cutLast?_eq_none_iff.1 hr
      cases before with
      | nil => simp [cutLast?, hr]; grind
      | cons b before => simp [cutLast?, hr]; grind
    | some cut =>
      obtain ⟨first, last⟩ := cut
      have hrest := ih.1 hr
      cases before with
      | nil => simp [cutLast?, hr]; grind
      | cons b before =>
        have := @ih before after
        simp only [hr, Option.some.injEq, Prod.mk.injEq] at this
        simp only [cutLast?, hr, Option.some.injEq, Prod.mk.injEq, List.cons.injEq, List.cons_append]
        grind

end MethodSignatures.Text
