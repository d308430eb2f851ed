import Mathlib.Data.List.Infix
import MethodSignatures.Proofs.Arguments

/-! # Cutting an argument list

The pieces of an argument list are read in turns that come to an end, without a fault and at the end of the text. They
are the only cut of the text, one more than it has separators (`Argument.list_cut_at_separators`). So no text is refused
as a whole for want of pieces: where the whole text is reported, it is its own only piece.
-/

namespace MethodSignatures

namespace Text

/-- The number of places at which `mark` stands in a text. -/
def occurrences (mark text : List Char) : Nat :=
  text.tails.countP mark.isPrefixOf

theorem occurrences_cons (mark rest : List Char) (c : Char) :
    occurrences mark (c :: rest) = occurrences mark rest + if mark.isPrefixOf (c :: rest) then 1 else 0 := by
  rw [occurrences, List.tails_cons, List.countP_cons, occurrences]

theorem length_extendFirst (c : Char) {parts : List (List Char)} (nonempty : parts ≠ []) :
    (extendFirst c parts).length = parts.length := by
  cases parts with
  | nil => exact absurd rfl nonempty
  | cons piece rest => rfl

theorem length_pieces (text : List Char) : (pieces text).length = occurrences separator text + 1 := by
  fun_induction pieces text with
  | case1 => rfl
  | case2 rest inductionHypothesis =>
    -- The space of a separator begins no other one.
    have atComma : separator.isPrefixOf (',' :: ' ' :: rest) = true := rfl
    have atSpace : separator.isPrefixOf (' ' :: rest) = false := rfl
    simp only [List.length_cons, inductionHypothesis, occurrences_cons, atComma, atSpace]
    simp
  | case3 c rest noCut inductionHypothesis =>
    have noSeparator : separator.isPrefixOf (c :: rest) = false := by
      rw [Bool.eq_false_iff, ne_eq, List.isPrefixOf_iff_prefix]
      rintro ⟨following, same⟩
      obtain ⟨comma, space⟩ := List.cons.inj same
      exact noCut following comma.symm space.symm
    simp [length_extendFirst c (pieces_ne_nil rest), inductionHypothesis, occurrences_cons, noSeparator]

end Text

namespace Argument

theorem parseList_eq_error_whole_iff {text : List Char} :
    parseList text = .error ⟨0, .ofList text⟩ ↔ text ≠ [] ∧ ¬ Text.separator <:+: text ∧ ¬ Readable text := by
  constructor
  · intro refused
    have nonempty : text ≠ [] := by
      rintro rfl
      cases refused
    rw [parseList_of_ne_nil nonempty, ofPieces_eq_error_iff] at refused
    obtain ⟨index, place, found, unreadable, _⟩ := refused
    rw [String.toList_ofList] at found unreadable
    exact ⟨nonempty, Text.not_separator_infix_of_mem_pieces (List.mem_of_getElem? found), unreadable⟩
  · rintro ⟨nonempty, noSeparator, unreadable⟩
    rw [parseList_of_ne_nil nonempty, Text.pieces_of_not_infix noSeparator, ofPieces_eq_error_iff]
    rw [← String.toList_ofList (l := text)] at unreadable
    exact ⟨0, rfl, by simp, unreadable, by simp⟩

/-- The turns in which the pieces of a text are read come to an end, and reading cannot fail. It leaves nothing of the
text, and gives the only list of pieces that the text can be cut into at its separators. What is refused is always one
of them, never the text in their place. -/
theorem list_cut_at_separators (text : List Char) : ∃ parts,
    (∃ first rest, Text.Reader.piece.read text = .ok (first, rest) ∧
      Text.Listing.Ends (.mark Text.separator) .piece ⟨[first], rest⟩ ⟨parts, []⟩) ∧
    Text.Reader.pieces.read text = .ok (parts, []) ∧
    (∀ other, Text.IsCut text other ↔ other = parts) ∧
    parts.length = Text.occurrences Text.separator text + 1 ∧
    parseList text = (if text = [] then .ok [] else ofPieces 0 parts) ∧
    (∀ whole, readList text ≠ .error (.uncut whole)) ∧
    (parseList text = .error ⟨0, .ofList text⟩ ↔ text ≠ [] ∧ ¬ Text.separator <:+: text ∧ ¬ Readable text) := by
  refine ⟨Text.pieces text, Text.exists_ends_pieces text, Text.Reader.read_pieces text, fun other => Text.isCut_iff,
    Text.length_pieces text, ?_, ?_, parseList_eq_error_whole_iff⟩
  · by_cases empty : text = []
    · subst empty
      exact parseList_nil
    · rw [parseList_of_ne_nil empty, if_neg empty]
  · intro whole uncut
    obtain ⟨refusal, isRefused⟩ := exists_refused_of_readList uncut
    cases isRefused

/-- A piece may be empty, end in a comma or begin with a space. -/
example : Text.Reader.pieces.read ", a,,  b".toList = .ok ([[], ['a', ','], [' ', 'b']], []) := by rfl

end Argument

end MethodSignatures
