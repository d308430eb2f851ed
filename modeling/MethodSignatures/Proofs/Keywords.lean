import Mathlib.Data.List.Basic
import MethodSignatures.Modifier.Basic
import MethodSignatures.Text.Token

/-! # Keywords at the front of a text and as the whole of one

No keyword leads another one. So it does not matter in which order they are tried, at most one of them leads a text, and a
text is read as a modifier exactly if it is found among the keywords (`Modifier.parse_eq`).
-/

namespace MethodSignatures.Modifier

/-! ## At the front of a text -/

theorem prefixFree_keywords : Text.PrefixFree (all.map keyword) := by
  unfold Text.PrefixFree
  decide

theorem eq_of_keyword_append_eq {modifier other : Modifier} {rest behind : String}
    (same : modifier.keyword ++ rest = other.keyword ++ behind) : modifier = other ∧ rest = behind := by
  have isKeyword : ∀ found : Modifier, found.keyword ∈ all.map keyword :=
    fun found => List.mem_map_of_mem found.mem_all
  have sameText : modifier.keyword.toList ++ rest.toList = other.keyword.toList ++ behind.toList := by
    rw [← String.toList_append, same, String.toList_append]
  obtain ⟨sameKeyword, sameRest⟩ :=
    prefixFree_keywords.eq_of_append_eq (isKeyword modifier) (isKeyword other) sameText
  exact ⟨eq_of_keyword_eq sameKeyword, String.toList_inj.1 sameRest⟩

theorem eq_keyword_append_of_leading? {text rest : String} {modifier : Modifier}
    (leads : leading? text = some (modifier, rest)) : text = modifier.keyword ++ rest := by
  obtain ⟨found, _, isPrefix⟩ := List.exists_of_findSome?_eq_some leads
  obtain ⟨behind, cut, same⟩ := Option.map_eq_some_iff.1 isPrefix
  obtain ⟨rfl, rfl⟩ := Prod.mk.inj same
  rw [← String.toList_inj, String.toList_append, String.toList_ofList]
  exact (List.isPrefixOf?_eq_some_iff_append_eq.1 cut).symm

theorem leading?_eq_some_iff {text rest : String} {modifier : Modifier} :
    leading? text = some (modifier, rest) ↔ text = modifier.keyword ++ rest := by
  constructor
  · exact eq_keyword_append_of_leading?
  · rintro rfl
    cases leads : leading? (modifier.keyword ++ rest) with
    | none =>
      have isPrefix : modifier.keyword.toList.isPrefixOf? (modifier.keyword ++ rest).toList = some rest.toList :=
        List.isPrefixOf?_eq_some_iff_append_eq.2 String.toList_append.symm
      have notPrefix := List.findSome?_eq_none_iff.1 leads modifier modifier.mem_tried
      rw [isPrefix] at notPrefix
      cases notPrefix
    | some found =>
      -- Another keyword might be tried first, but it cannot lead the same text.
      obtain ⟨found, behind⟩ := found
      obtain ⟨rfl, rfl⟩ := eq_of_keyword_append_eq (eq_keyword_append_of_leading? leads)
      rfl

theorem parseFront_eq_ok_iff {text rest : String} {modifier : Modifier} :
    parseFront text = .ok (modifier, rest) ↔ text = modifier.keyword ++ rest := by
  rw [← leading?_eq_some_iff, parseFront]
  cases leading? text <;> simp

theorem parseFront_eq_error_iff {text : String} {fault : FrontFault} :
    parseFront text = .error fault ↔
      fault = .noKeyword text ∧ ∀ modifier rest, text ≠ keyword modifier ++ rest := by
  simp only [ne_eq, ← leading?_eq_some_iff, parseFront]
  cases leads : leading? text with
  | none => simp [eq_comm]
  | some found =>
    obtain ⟨modifier, rest⟩ := found
    simp

/-! ## As a whole text -/

theorem parse_eq_ok_iff {text : String} {modifier : Modifier} :
    parse text = .ok modifier ↔ text = modifier.keyword := by
  have whole : text = modifier.keyword ↔ parseFront text = .ok (modifier, "") := by
    rw [parseFront_eq_ok_iff, String.append_empty]
  rw [whole, parse]
  cases parseFront text with
  | error fault => simp
  | ok found =>
    obtain ⟨found, rest⟩ := found
    by_cases exhausted : rest = ""
    · simp [exhausted]
    · simp [exhausted]

/-- Whatever keeps a text from being read, it is refused as a whole. -/
theorem eq_unknownModifier_of_parse {text : String} {error : SignatureError} (failed : parse text = .error error) :
    error = .unknownModifier text := by
  unfold parse at failed
  split at failed
  next => exact (Except.error.inj failed).symm
  next =>
    split at failed
    next => cases failed
    next => exact (Except.error.inj failed).symm

theorem parse_eq (text : String) :
    parse text =
      match ofKeyword? text with
      | some modifier => .ok modifier
      | none => .error (.unknownModifier text) := by
  cases isKeyword : ofKeyword? text with
  | some modifier => exact parse_eq_ok_iff.2 (ofKeyword?_eq_some_iff.1 isKeyword)
  | none =>
    cases parsed : parse text with
    | error error => rw [eq_unknownModifier_of_parse parsed]
    | ok modifier => exact absurd (parse_eq_ok_iff.1 parsed) (ofKeyword?_eq_none_iff.1 isKeyword modifier)

theorem parse_eq_error_iff {text : String} {error : SignatureError} :
    parse text = .error error ↔ error = .unknownModifier text ∧ ∀ modifier, text ≠ keyword modifier := by
  rw [← ofKeyword?_eq_none_iff, parse_eq]
  cases ofKeyword? text with
  | none => simp [eq_comm]
  | some found => simp

end MethodSignatures.Modifier
