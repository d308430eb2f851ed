import MethodSignatures.Proofs.Keywords
import MethodSignatures.Proofs.Reading
import MethodSignatures.Signature.Layout
import MethodSignatures.Signature.Outline

/-! # Reading heads and bodies

`Head.Fills` and `Body.Fills` relate the two halves of an outline to the texts that write them in a layout.
Both halves are read from such texts (`Head.Fills.read`, `Body.Fills.read`) and from no others
(`exists_layout_of_outline`).
-/

namespace MethodSignatures

theorem Modifier.isToken_keyword (modifier : Modifier) : Text.IsToken modifier.keyword.toList := by
  cases modifier <;> decide

/-! ## Heads -/

/-- `text` writes `head` in the gaps of `layout` and goes on with what the head leaves unread. -/
structure Head.Fills (head : Head) (layout : Layout) (text : List Char) : Prop where
  modifierGap_isGap : Text.IsGap layout.modifierGap
  typeGap_isGap : Text.IsGap layout.typeGap
  returnType_isToken : Text.IsToken head.returnType.toList
  returnType_noKeyword : head.modifier = none → Modifier.ofKeyword? head.returnType = none
  rest_startsUnblank : Text.StartsUnblank head.rest
  text_eq : text =
    Signature.spellModifier layout head.modifier ++ head.returnType.toList ++ layout.typeGap ++ head.rest

namespace Head

theorem Fills.read {head : Head} {layout : Layout} {text : List Char} (fills : head.Fills layout text) :
    Head.read text = .ok head := by
  obtain ⟨modifierGap, typeGap, isToken, noKeyword, startsUnblank, rfl⟩ := fills
  have cutType : Text.cutToken? (head.returnType.toList ++ layout.typeGap ++ head.rest) =
      some (head.returnType.toList, head.rest) := Text.cutToken?_append isToken typeGap startsUnblank
  obtain ⟨modifier, returnType, rest⟩ := head
  cases modifier with
  | none =>
    -- The first token is the return type, and it is taken as such since it is no keyword.
    simp only [Signature.spellModifier, List.nil_append, Head.read, cutType, String.ofList_toList, Modifier.parse_eq,
      noKeyword rfl]
  | some modifier =>
    have cutModifier : Text.cutToken? (modifier.keyword.toList ++ layout.modifierGap ++
          (returnType.toList ++ layout.typeGap ++ rest)) =
        some (modifier.keyword.toList, returnType.toList ++ layout.typeGap ++ rest) := by
      refine Text.cutToken?_append modifier.isToken_keyword modifierGap ?_
      rw [List.append_assoc]
      exact isToken.startsUnblank _
    have regrouped : Signature.spellModifier layout (some modifier) ++ returnType.toList ++ layout.typeGap ++ rest =
        modifier.keyword.toList ++ layout.modifierGap ++ (returnType.toList ++ layout.typeGap ++ rest) := by
      simp only [Signature.spellModifier, List.append_assoc]
    rw [regrouped]
    simp only [Head.read, cutModifier, cutType, String.ofList_toList, Modifier.parse_eq, Modifier.ofKeyword?_keyword]

theorem exists_fills_of_read {text : List Char} {head : Head} (headRead : read text = .ok head) :
    ∃ layout : Layout, head.Fills layout text := by
  cases cutFirst : Text.cutToken? text with
  | none => simp [read, cutFirst] at headRead
  | some parts =>
    obtain ⟨token, rest⟩ := parts
    obtain ⟨gap, textEq, isToken, isGap, startsUnblank⟩ := Text.cutToken?_eq_some_iff.1 cutFirst
    simp only [read, cutFirst, Modifier.parse_eq] at headRead
    cases keyword : Modifier.ofKeyword? (.ofList token) with
    | none =>
      simp only [keyword] at headRead
      obtain rfl := Except.ok.inj headRead
      exact ⟨{ Layout.canonical with typeGap := gap }, Text.isGap_space, isGap, by simpa using isToken,
        fun _ => keyword, startsUnblank, by simpa [Signature.spellModifier] using textEq⟩
    | some modifier =>
      simp only [keyword] at headRead
      cases cutSecond : Text.cutToken? rest with
      | none => simp [cutSecond] at headRead
      | some parts =>
        obtain ⟨returnType, behind⟩ := parts
        obtain ⟨typeGap, rfl, typeIsToken, typeIsGap, behindUnblank⟩ := Text.cutToken?_eq_some_iff.1 cutSecond
        simp only [cutSecond] at headRead
        obtain rfl := Except.ok.inj headRead
        have tokenEq : token = modifier.keyword.toList := by
          rw [← Modifier.ofKeyword?_eq_some_iff.1 keyword, String.toList_ofList]
        exact ⟨{ Layout.canonical with modifierGap := gap, typeGap }, isGap, typeIsGap, by simpa using typeIsToken,
          by simp, behindUnblank, by simp [textEq, tokenEq, Signature.spellModifier]⟩

/-- A head takes no more of a layout than the gaps behind its tokens. -/
theorem Fills.congr {head : Head} {layout other : Layout} {text : List Char} (fills : head.Fills layout text)
    (sameModifierGap : layout.modifierGap = other.modifierGap) (sameTypeGap : layout.typeGap = other.typeGap) :
    head.Fills other text := by
  have sameLead : Signature.spellModifier layout head.modifier = Signature.spellModifier other head.modifier := by
    cases head.modifier with
    | none => rfl
    | some modifier => simp only [Signature.spellModifier, sameModifierGap]
  obtain ⟨modifierGap, typeGap, isToken, noKeyword, startsUnblank, textEq⟩ := fills
  rw [sameModifierGap] at modifierGap
  rw [sameTypeGap] at typeGap
  exact ⟨modifierGap, typeGap, isToken, noKeyword, startsUnblank, by rw [textEq, sameLead, sameTypeGap]⟩

end Head

/-! ## Bodies -/

/-- `text` writes `body` in the gap and with the tail of `layout`. -/
structure Body.Fills (body : Body) (layout : Layout) (text : List Char) : Prop where
  nameGap_blank : Text.AllBlank layout.nameGap
  tail_noClosing : ')' ∉ layout.tail
  tail_eq : body.tail = layout.tail
  name_isTrimmed : Text.IsTrimmed body.name.toList
  name_noOpening : '(' ∉ body.name.toList
  text_eq : text = body.name.toList ++ layout.nameGap ++ '(' :: (body.argumentText ++ ')' :: layout.tail)

theorem Text.AllBlank.not_mem {text : List Char} (allBlank : AllBlank text) {mark : Char}
    (unblank : isBlank mark = false) : mark ∉ text := by
  intro member
  rw [allBlank mark member] at unblank
  cases unblank

theorem Text.StartsUnblank.eq_nil {front rest : List Char} (startsUnblank : StartsUnblank (front ++ rest))
    (allBlank : AllBlank front) : front = [] := by
  cases front with
  | nil => rfl
  | cons c front =>
    have unblank : isBlank c = false := by simpa using startsUnblank
    simp [allBlank c (by simp)] at unblank

namespace Body

theorem Fills.read {body : Body} {layout : Layout} {text : List Char} (fills : body.Fills layout text) :
    Body.read text = .ok body := by
  obtain ⟨gapBlank, noClosing, tailEq, ⟨nonempty, startsUnblank, endsUnblank⟩, noOpening, rfl⟩ := fills
  have opening : Text.cutFirst? '(' (body.name.toList ++ layout.nameGap ++ '(' :: (body.argumentText ++
        ')' :: layout.tail)) =
      some (body.name.toList ++ layout.nameGap, body.argumentText ++ ')' :: layout.tail) := by
    refine Text.cutFirst?_eq_some_iff.2 ⟨rfl, ?_⟩
    simpa [noOpening] using gapBlank.not_mem (by decide : Text.isBlank '(' = false)
  have closing : Text.cutLast? ')' (body.argumentText ++ ')' :: layout.tail) =
      some (body.argumentText, layout.tail) := Text.cutLast?_eq_some_iff.2 ⟨rfl, noClosing⟩
  have trimmed : Text.trim (body.name.toList ++ layout.nameGap) = body.name.toList := by
    simpa using Text.trim_append_append (by simp : ∀ c ∈ [], Text.isBlank c = true) gapBlank startsUnblank
      endsUnblank
  obtain ⟨name, argumentText, tail⟩ := body
  simp only at tailEq
  subst tailEq
  simp only [Body.read, opening, closing, trimmed, String.ofList_toList, List.isEmpty_iff, nonempty, if_false]

theorem exists_fills_of_read {text : List Char} {body : Body} (startsUnblank : Text.StartsUnblank text)
    (bodyRead : read text = .ok body) : ∃ layout : Layout, body.Fills layout text := by
  cases opening : Text.cutFirst? '(' text with
  | none => simp [read, opening] at bodyRead
  | some parts =>
    obtain ⟨before, inner⟩ := parts
    obtain ⟨rfl, noOpening⟩ := Text.cutFirst?_eq_some_iff.1 opening
    simp only [read, opening] at bodyRead
    split at bodyRead
    · cases bodyRead
    next nonempty =>
      cases closing : Text.cutLast? ')' inner with
      | none => simp [closing] at bodyRead
      | some parts =>
        obtain ⟨argumentText, tail⟩ := parts
        obtain ⟨rfl, noClosing⟩ := Text.cutLast?_eq_some_iff.1 closing
        simp only [closing] at bodyRead
        obtain rfl := Except.ok.inj bodyRead
        obtain ⟨lead, gap, beforeEq, leadBlank, gapBlank⟩ := Text.exists_eq_append_trim before
        -- The blanks in front of the name belong to the head, so that trimming finds some only behind it.
        obtain rfl : lead = [] := by
          rw [beforeEq, List.append_assoc, List.append_assoc] at startsUnblank
          exact startsUnblank.eq_nil leadBlank
        rw [List.nil_append] at beforeEq
        have nameNoOpening : '(' ∉ Text.trim before := by
          rw [beforeEq, List.mem_append, not_or] at noOpening
          exact noOpening.1
        refine ⟨{ Layout.canonical with nameGap := gap, tail }, gapBlank, noClosing, rfl, ?_, ?_, ?_⟩
        · simp only [String.toList_ofList]
          exact ⟨by simpa using nonempty, Text.startsUnblank_trim before, Text.startsUnblank_reverse_trim before⟩
        · rwa [String.toList_ofList]
        · rw [String.toList_ofList, ← beforeEq]

end Body

/-! ## Outlines -/

theorem Head.Fills.admissible {head : Head} {body : Body} {layout : Layout} {text rest : List Char}
    (headFills : head.Fills layout text) (bodyFills : body.Fills layout rest) : layout.Admissible where
  modifierGap_isGap := headFills.modifierGap_isGap
  typeGap_isGap := headFills.typeGap_isGap
  nameGap_blank := bodyFills.nameGap_blank
  tail_noClosing := bodyFills.tail_noClosing

/-- One layout serves the head and the body behind it. -/
theorem exists_layout_of_outline {text : List Char} {head : Head} {body : Body}
    (headRead : Head.read text = .ok head) (bodyRead : Body.read head.rest = .ok body) :
    ∃ layout : Layout, head.Fills layout text ∧ body.Fills layout head.rest := by
  obtain ⟨headLayout, headFills⟩ := Head.exists_fills_of_read headRead
  obtain ⟨bodyLayout, bodyFills⟩ := Body.exists_fills_of_read headFills.rest_startsUnblank bodyRead
  -- The head fixes the first two parts of a layout and the body the other two.
  let layout : Layout :=
    { bodyLayout with modifierGap := headLayout.modifierGap, typeGap := headLayout.typeGap }
  obtain ⟨gapBlank, noClosing, tailEq, isTrimmed, noOpening, textEq⟩ := bodyFills
  exact ⟨layout, headFills.congr rfl rfl, gapBlank, noClosing, tailEq, isTrimmed, noOpening, textEq⟩

end MethodSignatures
