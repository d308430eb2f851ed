import MethodSignatures.Proofs.Faults
import MethodSignatures.Proofs.Language

/-! # Canonical texts

`Layout.ofText` reads off a text what its signature does not keep. A text that is read as a signature is the
spelling of that signature in this layout and in no other one (`Signature.WellFormed.ofText_spell`), so that it is
the canonical text exactly where its layout is the canonical one.
-/

namespace MethodSignatures

open OutlineFault

namespace Text

/-! ## Parts of a text -/

/-- The run of blanks behind the leading token. -/
def gapAfterToken (text : List Char) : List Char :=
  (text.dropWhile (!isBlank ·)).takeWhile isBlank

/-- The blanks that end a text. -/
def trailingBlanks (text : List Char) : List Char :=
  (text.reverse.takeWhile isBlank).reverse

/-- What stands behind the last mark of a text that has one. -/
def behindLast (mark : Char) (text : List Char) : List Char :=
  (text.reverse.takeWhile (· ≠ mark)).reverse

theorem leadToken_append_gapAfterToken_append (text : List Char) :
    leadToken text ++ (gapAfterToken text ++ afterToken text) = text := by
  rw [leadToken, gapAfterToken, afterToken, List.takeWhile_append_dropWhile, List.takeWhile_append_dropWhile]

/-- A token and the gap behind it are found again, whatever follows them. -/
theorem parts_append {token gap rest : List Char} (isToken : IsToken token) (isGap : IsGap gap)
    (startsUnblank : StartsUnblank rest) :
    leadToken (token ++ gap ++ rest) = token ∧ gapAfterToken (token ++ gap ++ rest) = gap ∧
      afterToken (token ++ gap ++ rest) = rest := by
  have cut := cutToken?_append isToken isGap startsUnblank
  rw [cutToken?_eq_ite] at cut
  split at cut
  next =>
    obtain ⟨tokenEq, restEq⟩ := Prod.mk.inj (Option.some.inj cut)
    -- The gap is what remains of the text when the token and the rest are taken off its two ends.
    have whole := leadToken_append_gapAfterToken_append (token ++ gap ++ rest)
    rw [tokenEq, restEq, List.append_assoc token gap rest] at whole
    have gapEq := List.append_cancel_right (List.append_cancel_left whole)
    rw [← List.append_assoc] at gapEq
    exact ⟨tokenEq, gapEq, restEq⟩
  next => cases cut

theorem trailingBlanks_append {front gap : List Char} (endsUnblank : StartsUnblank front.reverse)
    (gapBlank : AllBlank gap) : trailingBlanks (front ++ gap) = gap := by
  have reverseBlank : ∀ c ∈ gap.reverse, isBlank c = true := by
    intro c member
    exact gapBlank c (List.mem_reverse.1 member)
  have stops : front.reverse.takeWhile isBlank = [] := by
    cases reversed : front.reverse with
    | nil => rfl
    | cons c rest =>
      have unblank : isBlank c = false := by simpa [reversed] using endsUnblank
      simp [unblank]
  rw [trailingBlanks, List.reverse_append, List.takeWhile_append_of_pos reverseBlank, stops, List.append_nil,
    List.reverse_reverse]

theorem behindLast_append {mark : Char} {front rest : List Char} (absent : mark ∉ rest) :
    behindLast mark (front ++ mark :: rest) = rest := by
  have absentReversed : mark ∉ rest.reverse := by simpa using absent
  have stops : ∀ c ∈ (mark :: front.reverse).head?, c = mark := by simp
  have reversed : (front ++ mark :: rest).reverse = rest.reverse ++ mark :: front.reverse := by simp
  rw [behindLast, reversed, (span_ne_append absentReversed stops).1, List.reverse_reverse]

end Text

/-! ## The layout of a text -/

attribute [ext] Layout

namespace Layout

/-- The blanks behind the head tokens and the name of a text, and what stands behind its last closing bracket. A
text without modifier is given the gap that the canonical layout has in its place. -/
def ofText (text : List Char) : Layout where
  modifierGap := if StartsWithKeyword text then Text.gapAfterToken text else canonical.modifierGap
  typeGap := Text.gapAfterToken (if StartsWithKeyword text then Text.afterToken text else text)
  nameGap := Text.trailingBlanks (Text.frontOf (bodyText text))
  tail := Text.behindLast ')' text

/-- What a text with the given modifier shows of a layout. Where there is no modifier, the blanks behind it are
not written. -/
def shownBy (layout : Layout) (modifier : Option Modifier) : Layout :=
  { layout with modifierGap := if modifier.isSome then layout.modifierGap else canonical.modifierGap }

theorem canonical_shownBy (modifier : Option Modifier) : canonical.shownBy modifier = canonical := by
  simp [shownBy]

end Layout

/-- The head of a text tells whether it has a modifier, and the gaps of the layout. -/
theorem Head.Fills.ofText_gaps {head : Head} {layout : Layout} {text : List Char} (fills : head.Fills layout text) :
    (Layout.ofText text).modifierGap = (layout.shownBy head.modifier).modifierGap ∧
      (Layout.ofText text).typeGap = layout.typeGap ∧ bodyText text = head.rest := by
  have headRead := fills.read
  have restEq := Head.rest_eq_bodyText headRead
  obtain ⟨modifierGap, typeGap, isToken, noKeyword, startsUnblank, textEq⟩ := fills
  obtain ⟨modifier, returnType, rest⟩ := head
  -- The leading token is the return type or a keyword, and no return type that is a keyword stands first.
  cases modifier with
  | none =>
    have spelled : text = returnType.toList ++ layout.typeGap ++ rest := by
      simpa [Signature.spellModifier] using textEq
    obtain ⟨tokenEq, gapEq, _⟩ := Text.parts_append isToken typeGap startsUnblank
    rw [← spelled] at tokenEq gapEq
    have noStart : ¬ StartsWithKeyword text := by
      simp [startsWithKeyword_iff, tokenEq, noKeyword]
    refine ⟨?_, ?_, restEq.symm⟩
    · simp only [Layout.ofText, if_neg noStart]
      rfl
    · simpa only [Layout.ofText, if_neg noStart] using gapEq
  | some modifier =>
    have spelled : text = modifier.keyword.toList ++ layout.modifierGap ++
        (returnType.toList ++ layout.typeGap ++ rest) := by
      simpa [Signature.spellModifier] using textEq
    have typeStarts : Text.StartsUnblank (returnType.toList ++ layout.typeGap ++ rest) := by
      rw [List.append_assoc]
      exact isToken.startsUnblank _
    obtain ⟨tokenEq, gapEq, afterEq⟩ := Text.parts_append modifier.isToken_keyword modifierGap typeStarts
    rw [← spelled] at tokenEq gapEq afterEq
    have starts : StartsWithKeyword text := ⟨modifier, modifier.mem_all, tokenEq⟩
    refine ⟨?_, ?_, restEq.symm⟩
    · simp only [Layout.ofText, if_pos starts]
      exact gapEq
    · simp only [Layout.ofText, if_pos starts, afterEq]
      exact (Text.parts_append isToken typeGap startsUnblank).2.1

namespace Signature

theorem spell_shownBy (signature : Signature) (layout : Layout) :
    signature.spell (layout.shownBy signature.modifier) = signature.spell layout := by
  unfold spell
  cases signature.modifier <;> rfl

/-- A spelling shows its layout. -/
theorem WellFormed.ofText_spell {signature : Signature} {layout : Layout} (wellFormed : signature.WellFormed)
    (admissible : layout.Admissible) :
    Layout.ofText (signature.spell layout) = layout.shownBy signature.modifier := by
  obtain ⟨modifierGapEq, typeGapEq, bodyEq⟩ := (wellFormed.spelledHead_fills admissible).ofText_gaps
  have nameGapEq : (Layout.ofText (signature.spell layout)).nameGap = layout.nameGap := by
    have front : Text.frontOf (bodyText (signature.spell layout)) = signature.name.toList ++ layout.nameGap := by
      rw [bodyEq]
      exact Text.frontOf_append (wellFormed.not_mem_name_gap admissible)
    simp only [Layout.ofText, front]
    exact Text.trailingBlanks_append wellFormed.name_isTrimmed.2.2 admissible.nameGap_blank
  have tailEq : (Layout.ofText (signature.spell layout)).tail = layout.tail :=
    Text.behindLast_append admissible.tail_noClosing
  exact Layout.ext modifierGapEq typeGapEq nameGapEq tailEq

theorem render_eq_iff_ofText_eq_canonical {signature : Signature} {text : String}
    (parsed : parse text = .ok signature) :
    signature.render = text ↔ Layout.ofText text.toList = .canonical := by
  obtain ⟨wellFormed, layout, admissible, spelled⟩ := exists_spell_of_parse parsed
  have layoutEq : Layout.ofText text.toList = layout.shownBy signature.modifier := by
    rw [spelled]
    exact wellFormed.ofText_spell admissible
  constructor
  · intro rendered
    -- The text is spelt in the canonical layout as well, and it shows one layout only.
    rw [← rendered, toList_render, wellFormed.ofText_spell Layout.admissible_canonical, Layout.canonical_shownBy]
  · intro isCanonical
    apply String.toList_inj.1
    calc signature.render.toList = signature.spell .canonical := toList_render signature
      _ = signature.spell (layout.shownBy signature.modifier) := by rw [← isCanonical, layoutEq]
      _ = signature.spell layout := spell_shownBy signature layout
      _ = text.toList := spelled.symm

theorem WellFormed.eq_of_render_eq {left right : Signature} (leftWellFormed : left.WellFormed)
    (rightWellFormed : right.WellFormed) (sameText : left.render = right.render) : left = right := by
  have reread := leftWellFormed.parse_render
  rw [sameText, rightWellFormed.parse_render] at reread
  exact (Except.ok.inj reread).symm

/-- Rendering what was read loses the layout of a text and nothing else: canonical texts come back unchanged,
signatures that are told apart have different texts, and reading a second time changes nothing. -/
theorem render_of_parse_canonical :
    (∀ text signature, parse text = .ok signature →
        (signature.render = text ↔ Layout.ofText text.toList = .canonical)) ∧
      (∀ text other left right, parse text = .ok left → parse other = .ok right →
        (left = right ↔ left.render = right.render)) ∧
      ∀ written reread : Signature, parse written.render = .ok reread → parse reread.render = .ok reread := by
  refine ⟨?_, ?_, ?_⟩
  · intro text signature parsed
    exact render_eq_iff_ofText_eq_canonical parsed
  · intro text other left right leftParsed rightParsed
    constructor
    · intro same
      rw [same]
    · exact (wellFormed_of_parse leftParsed).eq_of_render_eq (wellFormed_of_parse rightParsed)
  · intro written reread parsed
    exact (wellFormed_of_parse parsed).parse_render

/-- A text in a wide layout is not given back, and a keyword written as a return type comes back as a modifier once
and for all. -/
theorem render_of_parse_canonical_keyword :
    (parse "private\t int f (int a) throws" = .ok ⟨some .priv, "int", "f", [⟨"int", "a"⟩]⟩ ∧
      render ⟨some .priv, "int", "f", [⟨"int", "a"⟩]⟩ ≠ "private\t int f (int a) throws") ∧
    parse (render ⟨none, "public", "int f", []⟩) = .ok ⟨some .publ, "int", "f", []⟩ ∧
      parse (render ⟨some .publ, "int", "f", []⟩) = .ok ⟨some .publ, "int", "f", []⟩ := by
  obtain ⟨givesBack, _, settles⟩ := render_of_parse_canonical
  have wide : parse "private\t int f (int a) throws" = .ok ⟨some .priv, "int", "f", [⟨"int", "a"⟩]⟩ := by rfl
  have moved : parse (render ⟨none, "public", "int f", []⟩) = .ok ⟨some .publ, "int", "f", []⟩ := by rfl
  refine ⟨⟨wide, ?_⟩, moved, settles _ _ moved⟩
  intro sameText
  have noTail : " throws".toList = [] := congrArg Layout.tail ((givesBack _ _ wide).1 sameText)
  exact absurd noTail (by decide)

end Signature

end MethodSignatures
