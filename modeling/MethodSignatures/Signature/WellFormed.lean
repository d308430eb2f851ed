import MethodSignatures.Signature.Basic
import MethodSignatures.Text.Token

/-! # Well-formed signatures

The fields of a signature hold any texts, but not every text can stand in a field and be read again. A
well-formed signature is one whose fields fit their places.
-/

namespace MethodSignatures

/-- A type that ends in a comma would make a separator with the space behind it. -/
structure Argument.WellFormed (argument : Argument) : Prop where
  type_isWord : Text.IsWord argument.type.toList
  name_isWord : Text.IsWord argument.name.toList
  type_noComma : argument.type.toList.getLast? ≠ some ','

/-- A return type may be a keyword only behind a modifier. -/
structure Signature.WellFormed (signature : Signature) : Prop where
  returnType_isToken : Text.IsToken signature.returnType.toList
  returnType_noKeyword : signature.modifier = none → Modifier.ofKeyword? signature.returnType = none
  name_isTrimmed : Text.IsTrimmed signature.name.toList
  name_noOpening : '(' ∉ signature.name.toList
  arguments_wellFormed : ∀ argument ∈ signature.arguments, argument.WellFormed

theorem Argument.wellFormed_iff {argument : Argument} :
    argument.WellFormed ↔ Text.IsWord argument.type.toList ∧ Text.IsWord argument.name.toList ∧
      argument.type.toList.getLast? ≠ some ',' :=
  ⟨fun h => ⟨h.1, h.2, h.3⟩, fun ⟨h₁, h₂, h₃⟩ => ⟨h₁, h₂, h₃⟩⟩

instance (argument : Argument) : Decidable argument.WellFormed :=
  decidable_of_iff' _ Argument.wellFormed_iff

theorem Signature.wellFormed_iff {signature : Signature} :
    signature.WellFormed ↔ Text.IsToken signature.returnType.toList ∧
      (signature.modifier = none → Modifier.ofKeyword? signature.returnType = none) ∧
      Text.IsTrimmed signature.name.toList ∧ '(' ∉ signature.name.toList ∧
      ∀ argument ∈ signature.arguments, argument.WellFormed :=
  ⟨fun h => ⟨h.1, h.2, h.3, h.4, h.5⟩, fun ⟨h₁, h₂, h₃, h₄, h₅⟩ => ⟨h₁, h₂, h₃, h₄, h₅⟩⟩

instance (signature : Signature) : Decidable signature.WellFormed :=
  decidable_of_iff' _ Signature.wellFormed_iff

end MethodSignatures
