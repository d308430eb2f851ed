import MethodSignatures.Proofs.Arguments
import MethodSignatures.Proofs.Outline

/-! # The language of signatures

The texts that are read as a signature are its spellings in the admissible layouts, and only a well-formed
signature is read from one. The canonical text is one of them, so that reading undoes rendering for the
well-formed signatures and for no others.
-/

namespace MethodSignatures

theorem Text.IsTrimmed.startsUnblank {text : List Char} (isTrimmed : IsTrimmed text) (rest : List Char) :
    StartsUnblank (text ++ rest) := by
  obtain ⟨nonempty, startsUnblank, _⟩ := isTrimmed
  cases text with
  | nil => exact absurd rfl nonempty
  | cons c text => simpa using startsUnblank

/-- What stands in front of the first opening bracket. -/
def Text.frontOf (text : List Char) : List Char :=
  text.takeWhile (· ≠ '(')

theorem Text.frontOf_append {front rest : List Char} (absent : '(' ∉ front) : frontOf (front ++ '(' :: rest) = front :=
  (span_ne_append absent (by simp)).1

namespace Signature

/-- The name and the gap behind it reach up to the bracket that opens the arguments. -/
theorem WellFormed.not_mem_name_gap {signature : Signature} {layout : Layout} (wellFormed : signature.WellFormed)
    (admissible : layout.Admissible) : '(' ∉ signature.name.toList ++ layout.nameGap := by
  have gap : '(' ∉ layout.nameGap := Text.AllBlank.not_mem admissible.nameGap_blank (by decide)
  simp [wellFormed.name_noOpening, gap]

/-! ## Spellings are read -/

/-- The head of a spelling, with the body behind it. -/
def spelledHead (signature : Signature) (layout : Layout) : Head where
  modifier := signature.modifier
  returnType := signature.returnType
  rest := signature.name.toList ++ layout.nameGap ++
    '(' :: (spellArguments signature.arguments ++ ')' :: layout.tail)

def spelledBody (signature : Signature) (layout : Layout) : Body where
  name := signature.name
  argumentText := spellArguments signature.arguments
  tail := layout.tail

theorem WellFormed.spelledHead_fills {signature : Signature} {layout : Layout} (wellFormed : signature.WellFormed)
    (admissible : layout.Admissible) : (signature.spelledHead layout).Fills layout (signature.spell layout) where
  modifierGap_isGap := admissible.modifierGap_isGap
  typeGap_isGap := admissible.typeGap_isGap
  returnType_isToken := wellFormed.returnType_isToken
  returnType_noKeyword := wellFormed.returnType_noKeyword
  rest_startsUnblank := by
    rw [spelledHead, List.append_assoc]
    exact wellFormed.name_isTrimmed.startsUnblank _
  text_eq := by simp only [spell, spelledHead, List.append_assoc, List.cons_append]

theorem WellFormed.spelledBody_fills {signature : Signature} {layout : Layout} (wellFormed : signature.WellFormed)
    (admissible : layout.Admissible) :
    (signature.spelledBody layout).Fills layout (signature.spelledHead layout).rest where
  nameGap_blank := admissible.nameGap_blank
  tail_noClosing := admissible.tail_noClosing
  tail_eq := rfl
  name_isTrimmed := wellFormed.name_isTrimmed
  name_noOpening := wellFormed.name_noOpening
  text_eq := rfl

theorem WellFormed.parse_of_spell {signature : Signature} {layout : Layout} {text : String}
    (wellFormed : signature.WellFormed) (admissible : layout.Admissible)
    (spelled : text.toList = signature.spell layout) : parse text = .ok signature := by
  apply parse_eq_ok_iff_complete.2
  refine ⟨signature.spelledHead layout, signature.spelledBody layout, ?_, rfl, rfl, rfl⟩
  have headRead : Head.read text.toList = .ok (signature.spelledHead layout) := by
    rw [spelled]
    exact (wellFormed.spelledHead_fills admissible).read
  have listRead : Argument.readList (signature.spelledBody layout).argumentText = .ok signature.arguments :=
    Argument.readList_eq_ok_iff.2 ⟨rfl, wellFormed.arguments_wellFormed⟩
  exact .complete headRead (wellFormed.spelledBody_fills admissible).read listRead

/-! ## Only spellings are read -/

theorem exists_spell_of_parse {signature : Signature} {text : String} (parsed : parse text = .ok signature) :
    signature.WellFormed ∧ ∃ layout : Layout, layout.Admissible ∧ text.toList = signature.spell layout := by
  obtain ⟨head, body, stages, sameModifier, sameType, sameName⟩ := parse_eq_ok_iff_complete.1 parsed
  cases stages with
  | complete headRead bodyRead listRead =>
    obtain ⟨layout, headFills, bodyFills⟩ := exists_layout_of_outline headRead bodyRead
    obtain ⟨argumentsEq, argumentsWellFormed⟩ := Argument.readList_eq_ok_iff.1 listRead
    have wellFormed : signature.WellFormed := by
      refine ⟨?_, ?_, ?_, ?_, argumentsWellFormed⟩
      · exact sameType ▸ headFills.returnType_isToken
      · exact sameType ▸ sameModifier ▸ headFills.returnType_noKeyword
      · exact sameName ▸ bodyFills.name_isTrimmed
      · exact sameName ▸ bodyFills.name_noOpening
    refine ⟨wellFormed, layout, headFills.admissible bodyFills, ?_⟩
    rw [headFills.text_eq, bodyFills.text_eq, argumentsEq, sameModifier, sameType, sameName]
    simp only [spell, List.append_assoc, List.cons_append]

theorem parse_eq_ok_iff_spell {signature : Signature} {text : String} :
    parse text = .ok signature ↔
      signature.WellFormed ∧ ∃ layout : Layout, layout.Admissible ∧ text.toList = signature.spell layout := by
  constructor
  · exact exists_spell_of_parse
  · intro spelling
    obtain ⟨wellFormed, layout, admissible, spelled⟩ := spelling
    exact wellFormed.parse_of_spell admissible spelled

theorem WellFormed.parse_render {signature : Signature} (wellFormed : signature.WellFormed) :
    parse signature.render = .ok signature :=
  wellFormed.parse_of_spell Layout.admissible_canonical (toList_render signature)

theorem wellFormed_of_parse {signature : Signature} {text : String} (parsed : parse text = .ok signature) :
    signature.WellFormed :=
  (exists_spell_of_parse parsed).1

/-- The canonical text is a spelling whether or not the signature is well formed; it is read as the signature
exactly where it is. -/
theorem parse_render_eq_ok_iff {signature : Signature} :
    parse signature.render = .ok signature ↔ signature.WellFormed := by
  constructor
  · exact wellFormed_of_parse
  · exact WellFormed.parse_render

end Signature

end MethodSignatures
