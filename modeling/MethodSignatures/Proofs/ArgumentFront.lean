import MethodSignatures.Proofs.Arguments

/-! # Reading an argument at the front of a text

A text has one of four shapes: it begins with an argument (`Argument.front_eq_ok_iff`), no word stands at its front, it is
one word, or a word and a space stand before no other word (`Argument.front_eq_error_iff`). Each shape has its own outcome,
so that the outcome of a reading tells the shape of the text and the place where reading stopped.
-/

namespace MethodSignatures

namespace Argument

/-! ## Outcomes -/

/-- Reading stops where a word is missing, or at the end of a text that is one word. -/
theorem front_eq_error_iff {text : List Char} {fault : Fault} :
    front text = .error fault ↔
      (fault = .emptyToken (.ofList text) ∧ fault.rest = .ofList text ∧ Text.StartsNoWord text) ∨
      (fault = .missingSpace "" ∧ fault.rest = "" ∧ text ≠ [] ∧ ' ' ∉ text) ∨
      ∃ type rest, fault = .emptyToken (.ofList rest) ∧ fault.rest = .ofList rest ∧ text = type ++ ' ' :: rest ∧
        Text.IsWord type ∧ Text.StartsNoWord rest := by
  simp only [front, bind_eq_error_iff, Prod.exists, token_eq_ok_iff, token_eq_error_iff, space_eq_ok_iff,
    space_eq_error_iff]
  constructor
  · rintro (⟨rfl, startsNoWord⟩ | ⟨type, behind, ⟨typeWord, rfl, boundary⟩, failed⟩)
    · exact .inl ⟨rfl, rfl, startsNoWord⟩
    · rcases failed with ⟨rfl, noSpace⟩ | ⟨rest, rfl, ⟨rfl, startsNoWord⟩ | ⟨_, _, _, named⟩⟩
      · -- A word that no space ends goes to the end of the text.
        rcases Text.startsNoWord_iff.1 boundary with rfl | ⟨rest, rfl⟩
        · exact .inr (.inl ⟨rfl, rfl, by simpa using typeWord.1, by simpa using typeWord.2⟩)
        · exact absurd rfl noSpace
      · exact .inr (.inr ⟨type.toList, rest, rfl, rfl, rfl, typeWord, startsNoWord⟩)
      · cases named
  · rintro (⟨rfl, _, startsNoWord⟩ | ⟨rfl, _, nonempty, noSpace⟩ | ⟨type, rest, rfl, _, rfl, typeWord, startsNoWord⟩)
    · exact .inl ⟨rfl, startsNoWord⟩
    · have isWord : Text.IsWord (String.ofList text).toList := by simpa using ⟨nonempty, noSpace⟩
      exact .inr ⟨.ofList text, [], ⟨isWord, by simp, Text.startsNoWord_nil⟩, .inl ⟨rfl, by simp⟩⟩
    · have isWord : Text.IsWord (String.ofList type).toList := by simpa using typeWord
      exact .inr ⟨.ofList type, ' ' :: rest, ⟨isWord, by simp, Text.startsNoWord_space rest⟩,
        .inr ⟨rest, rfl, .inl ⟨rfl, startsNoWord⟩⟩⟩

/-! ## Texts -/

section

variable {text rest : String} {argument : Argument} {fault : Fault}

theorem parseFront_eq_ok_iff_front :
    parseFront text = .ok (argument, rest) ↔ front text.toList = .ok (argument, rest.toList) := by
  rw [parseFront]
  cases read : front text.toList with
  | error fault => simp [Except.map]
  | ok found =>
    obtain ⟨found, behind⟩ := found
    simp [Except.map, ← String.toList_inj]

theorem parseFront_eq_error_iff_front : parseFront text = .error fault ↔ front text.toList = .error fault := by
  rw [parseFront]
  cases read : front text.toList <;> simp [Except.map]

theorem parseFront_eq_ok_iff :
    parseFront text = .ok (argument, rest) ↔
      text = argument.type ++ " " ++ argument.name ++ rest ∧ Text.IsWord argument.type.toList ∧
        Text.IsWord argument.name.toList ∧ Text.StartsNoWord rest.toList := by
  have sameText : text = argument.type ++ " " ++ argument.name ++ rest ↔
      text.toList = argument.type.toList ++ ' ' :: (argument.name.toList ++ rest.toList) := by
    rw [← String.toList_inj]
    simp
  rw [parseFront_eq_ok_iff_front, front_eq_ok_iff, sameText]
  constructor
  · intro words
    obtain ⟨typeWord, nameWord, textEq, startsNoWord⟩ := words
    exact ⟨textEq, typeWord, nameWord, startsNoWord⟩
  · intro words
    obtain ⟨textEq, typeWord, nameWord, startsNoWord⟩ := words
    exact ⟨typeWord, nameWord, textEq, startsNoWord⟩

/-- A type alone at the front of a text is the same thing of a string as of its characters. -/
theorem exists_type_alone_iff :
    (∃ type rest, fault = .emptyToken (.ofList rest) ∧ fault.rest = .ofList rest ∧ text.toList = type ++ ' ' :: rest ∧
        Text.IsWord type ∧ Text.StartsNoWord rest) ↔
      ∃ type rest, fault = .emptyToken rest ∧ fault.rest = rest ∧ text = type ++ " " ++ rest ∧
        Text.IsWord type.toList ∧ Text.StartsNoWord rest.toList := by
  constructor
  · intro cut
    obtain ⟨type, rest, faultEq, restEq, textEq, isWord, startsNoWord⟩ := cut
    refine ⟨.ofList type, .ofList rest, faultEq, restEq, ?_, by simpa using isWord, by simpa using startsNoWord⟩
    rw [← String.toList_inj]
    simp [textEq]
  · intro cut
    obtain ⟨type, rest, faultEq, restEq, rfl, isWord, startsNoWord⟩ := cut
    exact ⟨type.toList, rest.toList, by simpa using faultEq, by simpa using restEq, by simp, isWord, startsNoWord⟩

theorem parseFront_eq_error_iff :
    parseFront text = .error fault ↔
      (fault = .emptyToken text ∧ fault.rest = text ∧ Text.StartsNoWord text.toList) ∨
      (fault = .missingSpace "" ∧ fault.rest = "" ∧ text ≠ "" ∧ ' ' ∉ text.toList) ∨
      ∃ type rest, fault = .emptyToken rest ∧ fault.rest = rest ∧ text = type ++ " " ++ rest ∧
        Text.IsWord type.toList ∧ Text.StartsNoWord rest.toList := by
  rw [parseFront_eq_error_iff_front, front_eq_error_iff, String.ofList_toList, exists_type_alone_iff, ne_eq,
    String.toList_eq_nil_iff]

end

/-! ## Whole texts -/

theorem parse_eq_ok_iff_parseFront {text : String} {argument : Argument} :
    parse text = .ok argument ↔ parseFront text = .ok (argument, "") := by
  rw [parse]
  cases read : parseFront text with
  | error fault => simp
  | ok found =>
    obtain ⟨found, rest⟩ := found
    by_cases exhausted : rest = ""
    · simp [exhausted]
    · simp [exhausted]

theorem parse_eq_error_iff {text : String} {fault : Fault} :
    parse text = .error fault ↔ parseFront text = .error fault ∨
      ∃ argument rest, parseFront text = .ok (argument, rest) ∧ rest ≠ "" ∧ fault = .leftover rest ∧
        fault.rest = rest := by
  cases read : parseFront text with
  | error other => simp [parse, read]
  | ok found =>
    obtain ⟨found, rest⟩ := found
    constructor
    · intro failed
      by_cases exhausted : rest = ""
      · simp [parse, read, exhausted] at failed
      · simp only [parse, read, String.isEmpty_iff, if_neg exhausted] at failed
        obtain rfl := Except.error.inj failed
        exact .inr ⟨found, rest, rfl, exhausted, rfl, rfl⟩
    · rintro (failed | ⟨argument, behind, same, nonempty, rfl, _⟩)
      · cases failed
      · obtain ⟨_, rfl⟩ := Prod.mk.inj (Except.ok.inj same)
        simp [parse, read, nonempty]

/-- An argument is read from the front of a text that is two words with one space between them, up to a space or to the
end. Any other text is refused where a word is missing, or at its end if it is one word only; and a text that goes on
behind its argument is refused there when it is read as a whole. What was read and what is left make up the text. -/
theorem parseFront_classifies (text : String) :
    (∀ argument rest, parseFront text = .ok (argument, rest) ↔
      text = argument.type ++ " " ++ argument.name ++ rest ∧ Text.IsWord argument.type.toList ∧
        Text.IsWord argument.name.toList ∧ Text.StartsNoWord rest.toList) ∧
      (∀ fault, parseFront text = .error fault ↔
        (fault = .emptyToken text ∧ fault.rest = text ∧ Text.StartsNoWord text.toList) ∨
        (fault = .missingSpace "" ∧ fault.rest = "" ∧ text ≠ "" ∧ ' ' ∉ text.toList) ∨
        ∃ type rest, fault = .emptyToken rest ∧ fault.rest = rest ∧ text = type ++ " " ++ rest ∧
          Text.IsWord type.toList ∧ Text.StartsNoWord rest.toList) ∧
      (∀ argument, parse text = .ok argument ↔ parseFront text = .ok (argument, "")) ∧
      (∀ fault, parse text = .error fault ↔ parseFront text = .error fault ∨
        ∃ argument rest, parseFront text = .ok (argument, rest) ∧ rest ≠ "" ∧ fault = .leftover rest ∧
          fault.rest = rest) ∧
      ∀ argument rest, parseFront text = .ok (argument, rest) → argument.render ++ rest = text := by
  refine ⟨fun argument rest => parseFront_eq_ok_iff, fun fault => parseFront_eq_error_iff,
    fun argument => parse_eq_ok_iff_parseFront, fun fault => parse_eq_error_iff, ?_⟩
  intro argument rest read
  obtain ⟨rfl, _⟩ := parseFront_eq_ok_iff.1 read
  rfl

/-- A tab is no space but a part of the word it stands in. Behind the name only a space may stand, and a second space
behind the type leaves no name. -/
theorem parseFront_classifies_tab :
    parseFront "int\tx y z" = .ok (⟨"int\tx", "y"⟩, " z") ∧ parse "int\tx y z" = .error (.leftover " z") ∧
      (⟨"int\tx", "y"⟩ : Argument).render ++ " z" = "int\tx y z" ∧
      parseFront "int  x" = .error (.emptyToken " x") := by
  obtain ⟨reads, _, _, refuses, restores⟩ := parseFront_classifies "int\tx y z"
  obtain ⟨_, fails, _⟩ := parseFront_classifies "int  x"
  have read : parseFront "int\tx y z" = .ok (⟨"int\tx", "y"⟩, " z") :=
    (reads _ _).2 ⟨by decide, by decide, by decide, by decide⟩
  refine ⟨read, (refuses _).2 (.inr ⟨_, _, read, by decide, rfl, rfl⟩), restores _ _ read, (fails _).2 ?_⟩
  exact .inr (.inr ⟨"int", " x", rfl, rfl, by decide, by decide, by decide⟩)

end Argument

end MethodSignatures
