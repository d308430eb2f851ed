import MethodSignatures.Proofs.Json.Reading
import MethodSignatures.Proofs.Json.Writing
import MethodSignatures.Signature.Json

/-! # The JSON of signatures

The JSON text of a signature spells one value, the object of its fields (`Signature.json_spells_fields`). A text that
is written is the only one for its value, and no two signatures have the same value, so that the text tells which
signature it was written for.
-/

namespace MethodSignatures

namespace Json

theorem document_render_iff {value other : Json} : Document value.render.toList other ↔ other = value := by
  constructor
  · exact fun spelled => spelled.unique (document_render value)
  · rintro rfl
    exact document_render other

theorem render_injective : Function.Injective render := by
  intro value other sameText
  have spelled := document_render value
  rw [sameText] at spelled
  exact document_render_iff.1 spelled

theorem read?_render (value : Json) : read? value.render = some value := by
  simpa using read?_ofList (document_render value)

end Json

theorem Modifier.toJson_injective : Function.Injective Modifier.toJson := by
  intro modifier other same
  exact eq_of_keyword_eq (Json.string.inj same)

theorem Argument.toJson_injective : Function.Injective Argument.toJson := by
  rintro ⟨type, name⟩ ⟨otherType, otherName⟩ same
  simpa [toJson] using same

theorem Argument.settle_toJson (argument : Argument) : argument.toJson.settle = argument.toJson := by
  rw [toJson, Json.settle, Json.settleMembers_eq_self]
  · simp
  · simp [Json.settle]

namespace Signature

/-- Null is no keyword, so that a signature without modifier is told from those that have one. -/
theorem eq_of_modifierJson_eq {modifier other : Option Modifier}
    (same : (modifier.map Modifier.toJson).getD .null = (other.map Modifier.toJson).getD .null) : modifier = other := by
  cases modifier with
  | none =>
    cases other with
    | none => rfl
    | some other => simp [Modifier.toJson] at same
  | some modifier =>
    cases other with
    | none => simp [Modifier.toJson] at same
    | some other => exact congrArg some (Modifier.toJson_injective same)

theorem toJson_injective : Function.Injective toJson := by
  rintro ⟨modifier, returnType, name, arguments⟩ ⟨otherModifier, otherReturnType, otherName, otherArguments⟩ same
  simp only [toJson, Json.object.injEq, List.cons.injEq, Prod.mk.injEq, Json.string.injEq, Json.array.injEq, true_and,
    and_true] at same
  obtain ⟨sameModifier, rfl, rfl, sameArguments⟩ := same
  obtain rfl := eq_of_modifierJson_eq sameModifier
  obtain rfl := List.map_injective_iff.2 Argument.toJson_injective sameArguments
  rfl

theorem settle_toJson (signature : Signature) : signature.toJson.settle = signature.toJson := by
  have modifierSettled : ((signature.modifier.map Modifier.toJson).getD .null).settle =
      (signature.modifier.map Modifier.toJson).getD .null := by
    cases signature.modifier <;> rfl
  have argumentsSettled : Json.settleItems (signature.arguments.map Argument.toJson) =
      signature.arguments.map Argument.toJson := by
    apply Json.settleItems_eq_self
    simp [Argument.settle_toJson]
  rw [toJson, Json.settle, Json.settleMembers_eq_self]
  · simp
  · simp [modifierSettled, Json.settle, argumentsSettled]

theorem parse?_render_toJson (signature : Signature) :
    Json.parse? signature.toJson.render = some signature.toJson := by
  rw [Json.parse?, Json.read?_render, Option.map_some, settle_toJson]

/-- The text of a signature is well formed and spells one value, the object of its fields, which is read from it. So two
signatures have the same text only if they are equal. -/
theorem json_spells_fields (signature : Signature) :
    (∀ value, Json.Document signature.toJson.render.toList value ↔
      value = .object
        [("accessModifier",
            match signature.modifier with
            | none => .null
            | some modifier => .string modifier.keyword),
         ("returnType", .string signature.returnType),
         ("methodName", .string signature.name),
         ("arguments", .array (signature.arguments.map fun argument =>
            .object [("type", .string argument.type), ("name", .string argument.name)]))]) ∧
      (∀ value, Json.parse? signature.toJson.render = some value ↔
        Json.Document signature.toJson.render.toList value) ∧
      ∀ other : Signature, signature.toJson.render = other.toJson.render ↔ signature = other := by
  refine ⟨?_, ?_, ?_⟩
  · intro value
    rw [Json.document_render_iff]
    obtain ⟨modifier, returnType, name, arguments⟩ := signature
    cases modifier <;> rfl
  · intro value
    rw [parse?_render_toJson, Option.some.injEq, Json.document_render_iff, eq_comm]
  · intro other
    rw [Json.render_injective.eq_iff, toJson_injective.eq_iff]

end Signature

end MethodSignatures
