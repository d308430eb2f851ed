import MethodSignatures.Proofs.Dump.Spelling
import MethodSignatures.Signature.Dump

/-! # The dumps of results

A result is dumped with names that a sign ends (`Dump.named_ofOutcome`), and no two results have the same dump
(`Dump.ofOutcome_injective`). So either layout of its dump tells a result, whatever the texts in it hold and whichever
characters are hidden in them.
-/

namespace MethodSignatures

open Dump

/-! ## Names -/

theorem Modifier.named_dump (modifier : Modifier) : Named modifier.dump := by
  cases modifier with
  | publ | priv | prot => exact .word (by decide)

theorem Dump.named_ofOption {value : Option Dump} (named : ∀ dump ∈ value, Named dump) : Named (ofOption value) := by
  cases value with
  | none => exact .word (by decide)
  | some dump =>
    refine .group (by decide) ?_
    simpa using named dump rfl

theorem Argument.named_dump (argument : Argument) : Named argument.dump := by
  refine .group (by decide) ?_
  simp only [List.forall_mem_cons]
  exact ⟨.field (by decide) (.quoted _), .field (by decide) (.quoted _), by simp⟩

theorem Signature.named_dump (signature : Signature) : Named signature.dump := by
  have modifierNamed : Named (ofOption (signature.modifier.map Modifier.dump)) := by
    apply named_ofOption
    simp [Modifier.named_dump]
  have argumentsNamed : Named (.group "" .square (signature.arguments.map Argument.dump)) := by
    refine .group (by decide) ?_
    simp [Argument.named_dump]
  refine .group (by decide) ?_
  simp only [List.forall_mem_cons]
  exact ⟨.field (by decide) modifierNamed, .field (by decide) (.quoted _),
    .field (by decide) (.quoted _), .field (by decide) argumentsNamed, by simp⟩

theorem ErrorValue.named_dump (error : ErrorValue) : Named error.dump := by
  cases error with
  | empty => exact .word (by decide)
  | malformed text reason =>
    refine .group (by decide) ?_
    simp only [List.forall_mem_cons]
    exact ⟨.field (by decide) (.quoted _), .field (by decide) (.quoted _), by simp⟩
  | badArgument position text =>
    refine .group (by decide) ?_
    simp only [List.forall_mem_cons]
    exact ⟨.field (by decide) (.number _), .field (by decide) (.quoted _), by simp⟩
  | unknownModifier text =>
    refine .group (by decide) ?_
    simpa using Named.quoted text

theorem Dump.named_ofOutcome (outcome : Except ErrorValue Signature) : Named (ofOutcome outcome) := by
  cases outcome with
  | ok signature =>
    refine .group (by decide) ?_
    simpa using signature.named_dump
  | error error =>
    refine .group (by decide) ?_
    simpa using error.named_dump

/-! ## Values -/

theorem Modifier.dump_injective : Function.Injective Modifier.dump := by
  intro modifier other same
  cases modifier <;> cases other <;> simp [dump] at same ⊢

theorem Dump.ofOption_map_injective : Function.Injective fun modifier : Option Modifier =>
    ofOption (modifier.map Modifier.dump) := by
  intro modifier other same
  cases modifier with
  | none =>
    cases other with
    | none => rfl
    | some other => simp [ofOption] at same
  | some modifier =>
    cases other with
    | none => simp [ofOption] at same
    | some other => simpa [ofOption, Modifier.dump_injective.eq_iff] using same

theorem Argument.dump_injective : Function.Injective Argument.dump := by
  rintro ⟨type, name⟩ ⟨otherType, otherName⟩ same
  simpa [dump] using same

theorem Signature.dump_injective : Function.Injective Signature.dump := by
  rintro ⟨modifier, returnType, name, arguments⟩ ⟨otherModifier, otherReturnType, otherName, otherArguments⟩ same
  simp only [dump, Dump.group.injEq, List.cons.injEq, Dump.field.injEq, Dump.quoted.injEq, true_and, and_true] at same
  obtain ⟨sameModifier, rfl, rfl, sameArguments⟩ := same
  obtain rfl := ofOption_map_injective sameModifier
  obtain rfl := List.map_injective_iff.2 Argument.dump_injective sameArguments
  rfl

theorem ErrorValue.dump_injective : Function.Injective ErrorValue.dump := by
  intro error other same
  cases error <;> cases other <;> simp_all [dump]

theorem Dump.ofOutcome_injective : Function.Injective ofOutcome := by
  intro outcome other same
  cases outcome with
  | ok signature =>
    cases other with
    | ok _ => simpa [ofOutcome, Signature.dump_injective.eq_iff] using same
    | error _ => simp [ofOutcome] at same
  | error error =>
    cases other with
    | ok _ => simp [ofOutcome] at same
    | error _ => simpa [ofOutcome, ErrorValue.dump_injective.eq_iff] using same

theorem SignatureError.value_injective : Function.Injective SignatureError.value := by
  intro error other same
  cases error with
  | malformed text fault =>
    cases other with
    | malformed otherText otherFault =>
      -- A fault is told by its words alone.
      obtain ⟨rfl, sameReason⟩ := ErrorValue.malformed.inj same
      obtain rfl : fault = otherFault := OutlineFault.eq_of_reason_suffix (by simp [sameReason])
      rfl
    | empty | badArgument | unknownModifier => cases same
  | empty | badArgument | unknownModifier => cases other <;> simp_all [value]

/-- The cause of a failed reading is in its dump: the words of a reason belong to one fault. -/
theorem Dump.ofResult_injective : Function.Injective ofResult := by
  intro result other same
  have sameOutcome : result.mapError SignatureError.value = other.mapError SignatureError.value :=
    ofOutcome_injective same
  cases result with
  | ok _ =>
    cases other with
    | ok _ => simpa [Except.mapError] using sameOutcome
    | error _ => cases sameOutcome
  | error _ =>
    cases other with
    | ok _ => cases sameOutcome
    | error _ => rw [SignatureError.value_injective (Except.error.inj sameOutcome)]

/-! ## Texts -/

namespace Dump

variable (outcome other : Except ErrorValue Signature)

theorem compactIn_ofOutcome_eq_iff (hidden : Char → Bool) :
    (ofOutcome outcome).compactIn (Text.visible hidden) =
      (ofOutcome other).compactIn (Text.visible hidden) ↔ outcome = other := by
  constructor
  · intro same
    exact ofOutcome_injective ((named_ofOutcome outcome).eq_of_compactIn_eq (named_ofOutcome other)
      (Text.selfDelimiting_visible hidden) same)
  · rintro rfl
    rfl

theorem indentedIn_ofOutcome_eq_iff (hidden : Char → Bool) (depth : Nat) :
    (ofOutcome outcome).indentedIn (Text.visible hidden) depth =
      (ofOutcome other).indentedIn (Text.visible hidden) depth ↔ outcome = other := by
  constructor
  · intro same
    exact ofOutcome_injective ((named_ofOutcome outcome).eq_of_indentedIn_eq (named_ofOutcome other)
      (Text.selfDelimiting_visible hidden) same)
  · rintro rfl
    rfl

/-- Two results have the same text, on one line or with a line for each member, only if they are equal. It does not
matter which characters are hidden. -/
theorem ofOutcome_text_eq_iff (hidden : Char → Bool) :
    ((ofOutcome outcome).compactIn (Text.visible hidden) = (ofOutcome other).compactIn (Text.visible hidden) ↔
        outcome = other) ∧
      ((ofOutcome outcome).indentedIn (Text.visible hidden) 0 = (ofOutcome other).indentedIn (Text.visible hidden) 0 ↔
        outcome = other) :=
  ⟨compactIn_ofOutcome_eq_iff outcome other hidden, indentedIn_ofOutcome_eq_iff outcome other hidden 0⟩

end Dump

end MethodSignatures
