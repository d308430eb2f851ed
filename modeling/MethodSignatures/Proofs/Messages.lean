import MethodSignatures.Error
import MethodSignatures.Proofs.Numerals
import MethodSignatures.Text.Cut

/-! # Messages identify errors

A message holds the text that an error is about as it is, so that a message may stand within another one. All the same
it belongs to one error only (`SignatureError.message_eq_iff`): its first words tell the kind, no reason is the end of
another one, and a place ends at the space behind it.
-/

namespace MethodSignatures

theorem OutlineFault.eq_of_append_reason_eq {front before : List Char} {fault other : OutlineFault}
    (same : front ++ fault.reason.toList = before ++ other.reason.toList) : front = before ∧ fault = other := by
  have isSuffix : fault.reason.toList <:+ front ++ fault.reason.toList := List.suffix_append _ _
  have otherIsSuffix : other.reason.toList <:+ front ++ fault.reason.toList := by
    rw [same]
    exact List.suffix_append _ _
  -- Both reasons end one text, so one of them ends the other.
  have sameFault : fault = other := by
    cases List.suffix_or_suffix_of_suffix isSuffix otherIsSuffix with
    | inl inOther => exact eq_of_reason_suffix inOther
    | inr inFault => exact (eq_of_reason_suffix inFault).symm
  subst sameFault
  exact ⟨List.append_cancel_right same, rfl⟩

namespace SignatureError

/-! ## Kinds -/

/-- The words that the messages of a kind begin with. -/
def opening : SignatureError → String
  | empty => "signature is empty"
  | malformed _ _ => "malformed signature `"
  | badArgument _ _ => "malformed argument #"
  | unknownModifier _ => "unknown access modifier `"

def openings : List String :=
  ["signature is empty", "malformed signature `", "malformed argument #", "unknown access modifier `"]

theorem opening_mem (error : SignatureError) : error.opening ∈ openings := by
  cases error <;> simp [opening, openings]

theorem prefixFree_openings : Text.PrefixFree openings := by
  unfold Text.PrefixFree
  decide

/-- What a message says of the error besides its kind. -/
def details : SignatureError → List Char
  | empty => []
  | malformed text fault => text.toList ++ "`: ".toList ++ fault.reason.toList
  | badArgument position text =>
    Nat.toDigits 10 position ++ ' ' :: '`' :: (text.toList ++ "`: expected `<type> <name>`".toList)
  | unknownModifier text => text.toList ++ "`".toList

theorem toList_message (error : SignatureError) : error.message.toList = error.opening.toList ++ error.details := by
  cases error with
  | empty =>
    have wording : empty.message = "signature is empty" := rfl
    simp only [wording, opening, details, List.append_nil]
  | malformed text fault =>
    have wording : (malformed text fault).message = "malformed signature `" ++ text ++ "`: " ++ fault.reason := rfl
    simp only [wording, opening, details, String.toList_append, List.append_assoc]
  | badArgument position text =>
    have wording : (badArgument position text).message =
      "malformed argument #" ++ toString position ++ " `" ++ text ++ "`: expected `<type> <name>`" := rfl
    simp [wording, opening, details]
  | unknownModifier text =>
    have wording : (unknownModifier text).message = "unknown access modifier `" ++ text ++ "`" := rfl
    simp only [wording, opening, details, String.toList_append, List.append_assoc]

/-- Equal messages begin with the same words and go on alike. -/
theorem opening_eq_and_details_eq {error other : SignatureError} (same : error.message = other.message) :
    error.opening = other.opening ∧ error.details = other.details := by
  have sameText : error.opening.toList ++ error.details = other.opening.toList ++ other.details := by
    rw [← toList_message, ← toList_message, same]
  exact prefixFree_openings.eq_of_append_eq error.opening_mem other.opening_mem sameText

/-! ## Messages -/

theorem message_injective : Function.Injective message := by
  intro error other same
  obtain ⟨sameOpening, sameDetails⟩ := opening_eq_and_details_eq same
  cases error with
  | empty =>
    cases other with
    | empty => rfl
    | malformed | badArgument | unknownModifier => simp [opening] at sameOpening
  | malformed text fault =>
    cases other with
    | malformed otherText otherFault =>
      obtain ⟨sameFront, rfl⟩ := OutlineFault.eq_of_append_reason_eq sameDetails
      obtain rfl := String.toList_inj.1 (List.append_cancel_right sameFront)
      rfl
    | empty | badArgument | unknownModifier => simp [opening] at sameOpening
  | badArgument position text =>
    cases other with
    | badArgument otherPosition otherText =>
      -- The place is read up to the first space, whatever the text behind it holds.
      have noSpace : ∀ n, ' ' ∉ Nat.toDigits 10 n := by
        intro n member
        simpa using Text.isDigit_of_mem_toDigits member
      obtain ⟨sameDigits, sameRest⟩ := Text.eq_of_append_mark_eq (noSpace _) (noSpace _) sameDetails
      obtain rfl := Text.toDigits_ten_injective sameDigits
      obtain rfl := String.toList_inj.1 (List.append_cancel_right (List.cons.inj sameRest).2)
      rfl
    | empty | malformed | unknownModifier => simp [opening] at sameOpening
  | unknownModifier text =>
    cases other with
    | unknownModifier otherText =>
      obtain rfl := String.toList_inj.1 (List.append_cancel_right sameDetails)
      rfl
    | empty | malformed | badArgument => simp [opening] at sameOpening

/-- The message tells the error: its kind, and every text, place and reason in it. This holds of all errors, and so of
those of reading a signature or a modifier, whatever was read. -/
theorem message_eq_iff (error other : SignatureError) : error.message = other.message ↔ error = other :=
  message_injective.eq_iff

end SignatureError

end MethodSignatures
