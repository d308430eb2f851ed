import MethodSignatures.Proofs.Language

/-! # Brackets in front of the argument list

The last closing bracket of a text closes its argument list. The opening one is looked for behind the head only, so
that it need not be the first of the text: a token of the head, or the name, may hold brackets. This happens exactly
where the text in front of the first opening bracket has no return type and name of its own, or has a closing
bracket (`Signature.brackets_of_parse`).
-/

namespace MethodSignatures

def Text.NoBrackets (text : List Char) : Prop :=
  '(' ∉ text ∧ ')' ∉ text

/-- The text in front of the first opening bracket has a return type and a name, and no closing bracket. -/
def HasPlainFront (text : List Char) : Prop :=
  ')' ∉ Text.frontOf text ∧ ∃ head, Head.read (Text.frontOf text) = .ok head ∧ head.rest ≠ []

namespace Text

theorem noBrackets_append {front rest : List Char} :
    NoBrackets (front ++ rest) ↔ NoBrackets front ∧ NoBrackets rest := by
  simp only [NoBrackets, List.mem_append, not_or]
  exact and_and_and_comm

theorem AllBlank.noBrackets {text : List Char} (allBlank : AllBlank text) : NoBrackets text :=
  ⟨allBlank.not_mem (by decide), allBlank.not_mem (by decide)⟩

end Text

theorem Modifier.noBrackets_keyword (modifier : Modifier) : Text.NoBrackets modifier.keyword.toList := by
  cases modifier <;> exact ⟨by decide, by decide⟩

/-- A text that goes on behind the head is read with the same head. -/
theorem Head.read_append {text more : List Char} {head : Head} (headRead : Head.read text = .ok head)
    (nonempty : head.rest ≠ []) : Head.read (text ++ more) = .ok { head with rest := head.rest ++ more } := by
  obtain ⟨layout, modifierGap, typeGap, isToken, noKeyword, startsUnblank, textEq⟩ := Head.exists_fills_of_read headRead
  have fills : Head.Fills { head with rest := head.rest ++ more } layout (text ++ more) := by
    refine ⟨modifierGap, typeGap, isToken, noKeyword, ?_, ?_⟩
    · cases rest : head.rest with
      | nil => exact absurd rest nonempty
      | cons c behind =>
        rw [rest] at startsUnblank
        simpa using startsUnblank
    · rw [textEq]
      simp only [List.append_assoc]
  exact fills.read

namespace Signature

/-- The text of a signature in a layout up to the bracket that opens its arguments. -/
def spellFront (signature : Signature) (layout : Layout) : List Char :=
  spellModifier layout signature.modifier ++ signature.returnType.toList ++ layout.typeGap ++
    (signature.name.toList ++ layout.nameGap)

theorem spell_eq_spellFront (signature : Signature) (layout : Layout) :
    signature.spell layout =
      signature.spellFront layout ++ '(' :: (spellArguments signature.arguments ++ ')' :: layout.tail) := by
  simp only [spell, spellFront, List.append_assoc, List.cons_append]

theorem noBrackets_spellFront_iff {signature : Signature} {layout : Layout} (admissible : layout.Admissible) :
    Text.NoBrackets (signature.spellFront layout) ↔
      Text.NoBrackets signature.returnType.toList ∧ Text.NoBrackets signature.name.toList := by
  have modifierGap : Text.NoBrackets layout.modifierGap := Text.AllBlank.noBrackets admissible.modifierGap_isGap.2
  have typeGap : Text.NoBrackets layout.typeGap := Text.AllBlank.noBrackets admissible.typeGap_isGap.2
  have nameGap : Text.NoBrackets layout.nameGap := Text.AllBlank.noBrackets admissible.nameGap_blank
  have lead : Text.NoBrackets (spellModifier layout signature.modifier) := by
    cases signature.modifier with
    | none => simp [spellModifier, Text.NoBrackets]
    | some modifier => exact Text.noBrackets_append.2 ⟨modifier.noBrackets_keyword, modifierGap⟩
  simp only [spellFront, Text.noBrackets_append, lead, typeGap, nameGap, true_and, and_true]

/-- The front of a spelling is read with the head of the spelling. -/
theorem WellFormed.read_spellFront {signature : Signature} {layout : Layout} (wellFormed : signature.WellFormed)
    (admissible : layout.Admissible) : Head.read (signature.spellFront layout) =
      .ok { signature.spelledHead layout with rest := signature.name.toList ++ layout.nameGap } := by
  have fills : Head.Fills { signature.spelledHead layout with rest := signature.name.toList ++ layout.nameGap } layout
      (signature.spellFront layout) :=
    { wellFormed.spelledHead_fills admissible with
      rest_startsUnblank := wellFormed.name_isTrimmed.startsUnblank _
      text_eq := rfl }
  exact fills.read

theorem WellFormed.hasPlainFront_iff {signature : Signature} {layout : Layout} (wellFormed : signature.WellFormed)
    (admissible : layout.Admissible) :
    HasPlainFront (signature.spell layout) ↔ Text.NoBrackets (signature.spellFront layout) := by
  have nameFree := wellFormed.not_mem_name_gap admissible
  constructor
  · intro plain
    obtain ⟨noClosing, head, headRead, nonempty⟩ := plain
    have hasOpening : '(' ∈ signature.spell layout := by simp [spell_eq_spellFront]
    obtain ⟨before, inner, spelled, noOpening⟩ := List.eq_append_cons_of_mem hasOpening
    rw [spelled, Text.frontOf_append noOpening] at noClosing headRead
    -- The head of the front is the head of the text, so that both end their names at the same bracket.
    have wholeRead : Head.read (signature.spell layout) = .ok { head with rest := head.rest ++ '(' :: inner } := by
      rw [spelled]
      exact Head.read_append headRead nonempty
    rw [(wellFormed.spelledHead_fills admissible).read] at wholeRead
    have restEq : signature.name.toList ++ layout.nameGap ++ '(' :: (spellArguments signature.arguments ++
        ')' :: layout.tail) = head.rest ++ '(' :: inner := congrArg Head.rest (Except.ok.inj wholeRead)
    have restFree : '(' ∉ head.rest := by
      obtain ⟨_, fills⟩ := Head.exists_fills_of_read headRead
      rw [fills.text_eq, List.mem_append, not_or] at noOpening
      exact noOpening.2
    have sameName : signature.name.toList ++ layout.nameGap = head.rest := by
      rw [← Text.frontOf_append nameFree, restEq, Text.frontOf_append restFree]
    have sameInner : '(' :: (spellArguments signature.arguments ++ ')' :: layout.tail) = '(' :: inner := by
      rw [sameName] at restEq
      exact List.append_cancel_left restEq
    have sameFront : signature.spellFront layout = before := by
      rw [spell_eq_spellFront, sameInner] at spelled
      exact List.append_cancel_right spelled
    rw [sameFront]
    exact ⟨noOpening, noClosing⟩
  · intro noBrackets
    have front : Text.frontOf (signature.spell layout) = signature.spellFront layout := by
      rw [spell_eq_spellFront]
      exact Text.frontOf_append noBrackets.1
    rw [HasPlainFront, front]
    refine ⟨noBrackets.2, _, wellFormed.read_spellFront admissible, ?_⟩
    simp [wellFormed.name_isTrimmed.1]

/-- Of a text that is read, the last closing bracket closes the argument list. The opening bracket of the list is the
first of the text, with no closing one before it, exactly where neither the return type nor the name holds a bracket,
and exactly where the text has a plain front. -/
theorem brackets_of_parse {text : String} {signature : Signature} (parsed : parse text = .ok signature) :
    ∃ front tail, text.toList = front ++ '(' :: (spellArguments signature.arguments ++ ')' :: tail) ∧ ')' ∉ tail ∧
      (Text.NoBrackets front ↔ Text.NoBrackets signature.returnType.toList ∧ Text.NoBrackets signature.name.toList) ∧
      (Text.NoBrackets front ↔ HasPlainFront text.toList) := by
  obtain ⟨wellFormed, layout, admissible, spelled⟩ := exists_spell_of_parse parsed
  refine ⟨signature.spellFront layout, layout.tail, ?_, admissible.tail_noClosing, ?_, ?_⟩
  · rw [spelled]
    exact spell_eq_spellFront signature layout
  · exact noBrackets_spellFront_iff admissible
  · rw [spelled]
    exact (wellFormed.hasPlainFront_iff admissible).symm

/-- Without a return type behind its modifier a text may still be read, since the blanks within its argument list
divide it: the name and the first opening bracket go to the return type. A closing bracket in front of the first
opening one goes to the name. -/
theorem parse_bracketed_front :
    parse "public log(int a, Fn(x) b)" = .ok ⟨some .publ, "log(int", "a, Fn", [⟨"x)", "b"⟩]⟩ ∧
      parse "void log)(int a)" = .ok ⟨none, "void", "log)", [⟨"int", "a"⟩]⟩ :=
  ⟨rfl, rfl⟩

/-- The front of the first text ends at `log`, which is no return type and name. -/
theorem brackets_of_parse_bracketed_type :
    ∃ front tail, "public log(int a, Fn(x) b)".toList = front ++ '(' :: ("x) b".toList ++ ')' :: tail) ∧
      ')' ∉ tail ∧ ¬ Text.NoBrackets front := by
  have parsed : parse "public log(int a, Fn(x) b)" = .ok ⟨some .publ, "log(int", "a, Fn", [⟨"x)", "b"⟩]⟩ := by rfl
  obtain ⟨front, tail, textEq, noClosing, fields, _⟩ := brackets_of_parse parsed
  refine ⟨front, tail, textEq, noClosing, ?_⟩
  rw [fields]
  intro plain
  exact plain.1.1 (by decide)

end Signature

end MethodSignatures
