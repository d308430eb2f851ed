import MethodSignatures.Proofs.Faults

/-! # Refused argument lists

A text with an outline can only be refused for its argument list. It is then reported with the first piece of
the list that is no argument and with the place of that piece.
-/

namespace MethodSignatures

open OutlineFault

instance (text : List Char) (parts : List (List Char)) : Decidable (Text.IsCut text parts) :=
  decidable_of_iff' _ Text.isCut_iff

namespace Signature

/-- The text has a head, a name and both brackets. -/
def HasOutline (text : List Char) : Prop :=
  ¬ Text.AllBlank text ∧ firstIn? text = none

instance (text : List Char) : Decidable (HasOutline text) :=
  inferInstanceAs (Decidable (_ ∧ _))

/-- `inner` stands between the first opening bracket behind the head and the last closing bracket. -/
def IsArgumentText (text inner : List Char) : Prop :=
  ∃ lead before tail, text = lead ++ (before ++ '(' :: (inner ++ ')' :: tail)) ∧
    bodyText text = before ++ '(' :: (inner ++ ')' :: tail) ∧ '(' ∉ before ∧ ')' ∉ tail

theorem IsArgumentText.unique {text first second : List Char} (isFirst : IsArgumentText text first)
    (isSecond : IsArgumentText text second) : first = second := by
  obtain ⟨_, before, tail, _, bodyEq, noOpening, noClosing⟩ := isFirst
  obtain ⟨_, otherBefore, otherTail, _, otherBodyEq, otherNoOpening, otherNoClosing⟩ := isSecond
  -- Both are what the two cuts leave between the brackets.
  have opening := Text.cutFirst?_eq_some_iff.2 ⟨bodyEq, noOpening⟩
  rw [Text.cutFirst?_eq_some_iff.2 ⟨otherBodyEq, otherNoOpening⟩] at opening
  have sameInner : first ++ ')' :: tail = second ++ ')' :: otherTail := (Prod.mk.inj (Option.some.inj opening)).2.symm
  have closing := Text.cutLast?_eq_some_iff.2 ⟨sameInner, otherNoClosing⟩
  rw [Text.cutLast?_eq_some_iff.2 ⟨rfl, noClosing⟩] at closing
  exact (Prod.mk.inj (Option.some.inj closing)).1

/-- The body that is read behind the head holds the argument text. -/
theorem isArgumentText_of_outline {text : List Char} {head : Head} {body : Body}
    (headRead : Head.read text = .ok head) (bodyRead : Body.read head.rest = .ok body) :
    IsArgumentText text body.argumentText := by
  obtain ⟨layout, headFills, bodyFills⟩ := exists_layout_of_outline headRead bodyRead
  refine ⟨spellModifier layout head.modifier ++ head.returnType.toList ++ layout.typeGap,
    body.name.toList ++ layout.nameGap, layout.tail, ?_, ?_, ?_, bodyFills.tail_noClosing⟩
  · rw [← bodyFills.text_eq]
    exact headFills.text_eq
  · rw [← Head.rest_eq_bodyText headRead]
    exact bodyFills.text_eq
  · simpa [bodyFills.name_noOpening] using bodyFills.nameGap_blank.not_mem (by decide : Text.isBlank '(' = false)

theorem parse_eq_badArgument_iff {text : String} {head : Head} {body : Body} {position : Nat} {piece : String}
    (headRead : Head.read text.toList = .ok head) (bodyRead : Body.read head.rest = .ok body) :
    parse text = .error (.badArgument position piece) ↔
      Argument.parseList body.argumentText = .error ⟨position, piece⟩ := by
  rcases parse_of_outline headRead bodyRead with ⟨signature, parsed, listRead⟩ | ⟨refusal, parsed, listRead⟩
  · simp [parsed, listRead]
  · obtain ⟨refusedAt, refused⟩ := refusal
    simp [parsed, listRead]

theorem exists_parse_eq_ok_iff {text : String} {head : Head} {body : Body} {arguments : List Argument}
    (headRead : Head.read text.toList = .ok head) (bodyRead : Body.read head.rest = .ok body) :
    (∃ signature, parse text = .ok signature ∧ signature.arguments = arguments) ↔
      Argument.parseList body.argumentText = .ok arguments := by
  rcases parse_of_outline headRead bodyRead with ⟨signature, parsed, listRead⟩ | ⟨refusal, parsed, listRead⟩
  · simp [parsed, listRead]
  · simp [parsed, listRead]

/-- The text between the brackets is the whole list. It is cut at every separator, the first piece that is no
argument is reported with its index, and a list without such a piece is read piece by piece. -/
theorem parse_argument_list (text : String) (hasOutline : HasOutline text.toList) :
    ∃ inner, (∀ other, IsArgumentText text.toList other ↔ other = inner) ∧
      (inner = [] → ∃ signature, parse text = .ok signature ∧ signature.arguments = []) ∧
      (inner ≠ [] → ∃ parts, (∀ other, Text.IsCut inner other ↔ other = parts) ∧
        (∀ position piece, parse text = .error (.badArgument position piece) ↔
          Argument.FirstUnreadable parts position piece.toList) ∧
        ((∃ signature, parse text = .ok signature) ↔ ∀ part ∈ parts, Argument.Readable part) ∧
        (∀ signature, parse text = .ok signature → List.Forall₂ Argument.Fills signature.arguments parts) ∧
        ∀ position piece, parse text = .error (.badArgument position piece) →
          position < parts.length ∧ ¬ Text.separator <:+: piece.toList) := by
  obtain ⟨head, body, headRead, bodyRead⟩ := exists_outline_of_firstIn?_eq_none hasOutline.2
  have inside := isArgumentText_of_outline headRead bodyRead
  refine ⟨body.argumentText, fun other => ⟨fun isOther => isOther.unique inside, fun same => same ▸ inside⟩, ?_, ?_⟩
  · intro empty
    apply (exists_parse_eq_ok_iff headRead bodyRead).2
    rw [empty, Argument.parseList_nil]
  · intro nonempty
    have cut : Text.IsCut body.argumentText (Text.pieces body.argumentText) := Text.isCut_iff.2 rfl
    -- Either outcome of the text is an outcome of its list, which the two exact readers describe.
    have refused : ∀ position piece, parse text = .error (.badArgument position piece) ↔
        Argument.FirstUnreadable (Text.pieces body.argumentText) position piece.toList := by
      intro position piece
      rw [parse_eq_badArgument_iff headRead bodyRead, Argument.parseList_of_ne_nil nonempty,
        Argument.ofPieces_eq_error_iff]
      simp
    have accepted : ∀ arguments, (∃ signature, parse text = .ok signature ∧ signature.arguments = arguments) ↔
        List.Forall₂ Argument.Fills arguments (Text.pieces body.argumentText) := by
      intro arguments
      rw [exists_parse_eq_ok_iff headRead bodyRead, Argument.parseList_of_ne_nil nonempty,
        Argument.ofPieces_eq_ok_iff]
    refine ⟨_, fun other => Text.isCut_iff, refused, ?_, fun signature parsed => ?_, fun position piece failed => ?_⟩
    · rw [← Argument.exists_fills_iff_readable]
      constructor
      · rintro ⟨signature, parsed⟩
        exact ⟨_, (accepted _).1 ⟨signature, parsed, rfl⟩⟩
      · rintro ⟨arguments, filled⟩
        obtain ⟨signature, parsed, _⟩ := (accepted arguments).2 filled
        exact ⟨signature, parsed⟩
    · exact (accepted _).1 ⟨signature, parsed, rfl⟩
    · obtain ⟨bound, found⟩ := List.getElem?_eq_some_iff.1 ((refused position piece).1 failed).at_index
      exact ⟨bound, cut.noSeparator _ (found ▸ List.getElem_mem bound)⟩

/-- The second of three pieces is empty, and it is reported although the third is no argument either. -/
theorem parse_argument_list_empty_piece :
    HasOutline "public int f(int a, , b c d)".toList ∧
      parse "public int f(int a, , b c d)" = .error (.badArgument 1 "") := by
  have hasOutline : HasOutline "public int f(int a, , b c d)".toList := by decide
  obtain ⟨inner, isInner, _, reads⟩ := parse_argument_list "public int f(int a, , b c d)" hasOutline
  obtain rfl : "int a, , b c d".toList = inner :=
    (isInner _).1 ⟨"public int ".toList, "f".toList, [], by decide, by decide, by decide, by decide⟩
  obtain ⟨parts, isCut, refused, _⟩ := reads (by decide)
  obtain rfl : ["int a".toList, [], "b c d".toList] = parts := (isCut _).1 (by decide)
  refine ⟨hasOutline, (refused 1 "").2 ⟨rfl, ?_, ?_⟩⟩
  · rintro ⟨argument, fills⟩
    simpa [Argument.spell] using fills.piece_eq
  · intro earlier member
    obtain rfl : earlier = "int a".toList := by simpa using member
    exact ⟨⟨"int", "a"⟩, by decide, by decide, by decide⟩

end Signature

end MethodSignatures
