import MethodSignatures.Signature.WellFormed
import MethodSignatures.Text.Pieces

/-! # Layouts

One signature has many texts. They differ in the blanks behind the head tokens and the name, and in what
follows the closing bracket. A `Layout` fixes all of that; the text of a signature in the canonical layout is
the one that `Signature.render` writes.
-/

namespace MethodSignatures

/-- The parts of a text that a signature does not keep. -/
structure Layout where
  /-- The blanks behind the modifier. They are left out where there is none. -/
  modifierGap : List Char
  typeGap : List Char
  nameGap : List Char
  tail : List Char

namespace Layout

/-- The head has gaps, the name may have one, and the tail closes no bracket. -/
structure Admissible (layout : Layout) : Prop where
  modifierGap_isGap : Text.IsGap layout.modifierGap
  typeGap_isGap : Text.IsGap layout.typeGap
  nameGap_blank : ∀ c ∈ layout.nameGap, Text.isBlank c = true
  tail_noClosing : ')' ∉ layout.tail

/-- Single spaces in the head, and nothing else. -/
def canonical : Layout where
  modifierGap := [' ']
  typeGap := [' ']
  nameGap := []
  tail := []

theorem admissible_canonical : canonical.Admissible where
  modifierGap_isGap := Text.isGap_space
  typeGap_isGap := Text.isGap_space
  nameGap_blank := by simp [canonical]
  tail_noClosing := by simp [canonical]

end Layout

namespace Signature

/-- The modifier of a signature and the gap behind it. -/
def spellModifier (layout : Layout) : Option Modifier → List Char
  | none => []
  | some modifier => modifier.keyword.toList ++ layout.modifierGap

def spellArguments (arguments : List Argument) : List Char :=
  Text.joined (arguments.map fun argument => argument.type.toList ++ ' ' :: argument.name.toList)

/-- The text of a signature in a layout. -/
def spell (signature : Signature) (layout : Layout) : List Char :=
  spellModifier layout signature.modifier ++ signature.returnType.toList ++ layout.typeGap ++
    signature.name.toList ++ layout.nameGap ++ '(' :: spellArguments signature.arguments ++ ')' :: layout.tail

theorem toList_renderArguments (arguments : List Argument) :
    (renderArguments arguments).toList = spellArguments arguments := by
  simp [renderArguments, spellArguments, Text.joined, Text.separator, String.toList_intercalate,
    Function.comp_def, Argument.render]

theorem toList_render (signature : Signature) : signature.render.toList = signature.spell .canonical := by
  simp only [render, spell, String.toList_append, toList_renderArguments]
  cases signature.modifier <;> simp [renderModifier, spellModifier, Layout.canonical]

end Signature

end MethodSignatures
