import MethodSignatures.Proofs.Arguments
import MethodSignatures.Proofs.Outline

/-! # Faults of an outline

`OutlineFault.Shows` says of each fault what a text with it looks like, and `OutlineFault.firstIn?` finds the
first one that shows. Reading reports that fault with the whole text, and goes on to the arguments exactly where
none shows.
-/

namespace MethodSignatures

namespace Text

/-- The longest front of the text that holds no blank. -/
def leadToken (text : List Char) : List Char :=
  text.takeWhile (!isBlank ·)

/-- What stands behind the leading token and the run of blanks that follows it. -/
def afterToken (text : List Char) : List Char :=
  (text.dropWhile (!isBlank ·)).dropWhile isBlank

def HasBlank (text : List Char) : Prop :=
  ∃ c ∈ text, isBlank c = true

instance (text : List Char) : Decidable (HasBlank text) :=
  List.decidableBEx (isBlank · = true) text

theorem not_hasBlank_iff {text : List Char} : ¬ HasBlank text ↔ ∀ c ∈ text, isBlank c = false := by
  simp [HasBlank]

theorem startsUnblank_afterToken (text : List Char) : StartsUnblank (afterToken text) :=
  startsUnblank_dropWhile _

theorem cutToken?_eq_ite (text : List Char) :
    cutToken? text = if StartsUnblank text ∧ HasBlank text then some (leadToken text, afterToken text) else none := by
  by_cases cuts : StartsUnblank text ∧ HasBlank text
  · rw [if_pos cuts]
    cases cut : cutToken? text with
    | none =>
      rw [cutToken?_eq_none_iff, ← not_hasBlank_iff] at cut
      rcases cut with startsBlank | noBlank
      · exact absurd cuts.1 startsBlank
      · exact absurd cuts.2 noBlank
    | some parts =>
      rw [cutToken?] at cut
      split at cut
      · cases cut
      · exact cut.symm
  · rw [if_neg cuts, cutToken?_eq_none_iff, ← not_hasBlank_iff]
    exact Decidable.not_and_iff_not_or_not.1 cuts

end Text

namespace OutlineFault

/-- The leading token is the keyword of a modifier. -/
def StartsWithKeyword (text : List Char) : Prop :=
  ∃ modifier ∈ Modifier.all, Text.leadToken text = modifier.keyword.toList

instance (text : List Char) : Decidable (StartsWithKeyword text) :=
  inferInstanceAs (Decidable (∃ modifier ∈ Modifier.all, Text.leadToken text = modifier.keyword.toList))

/-- The text behind the head: behind two tokens if the first is a keyword, else behind one. -/
def bodyText (text : List Char) : List Char :=
  if StartsWithKeyword text then Text.afterToken (Text.afterToken text) else Text.afterToken text

/-- The fault shows in the text, whatever others do. -/
def Shows (text : List Char) : OutlineFault → Prop
  | noBlankAfterFirstToken => ¬ Text.StartsUnblank text ∨ ¬ Text.HasBlank text
  | noBlankAfterReturnType => StartsWithKeyword text ∧ ¬ Text.HasBlank (Text.afterToken text)
  | missingOpening => '(' ∉ bodyText text
  | missingName => (bodyText text).head? = some '('
  | missingClosing => ')' ∉ (bodyText text).dropWhile (· ≠ '(')

instance (text : List Char) : (fault : OutlineFault) → Decidable (fault.Shows text)
  | noBlankAfterFirstToken => inferInstanceAs (Decidable (¬ Text.StartsUnblank text ∨ ¬ Text.HasBlank text))
  | noBlankAfterReturnType =>
    inferInstanceAs (Decidable (StartsWithKeyword text ∧ ¬ Text.HasBlank (Text.afterToken text)))
  | missingOpening => inferInstanceAs (Decidable ('(' ∉ bodyText text))
  | missingName => inferInstanceAs (Decidable ((bodyText text).head? = some '('))
  | missingClosing => inferInstanceAs (Decidable (')' ∉ (bodyText text).dropWhile (· ≠ '(')))

/-- Every fault, in the order in which they are looked for. -/
def inOrder : List OutlineFault :=
  [noBlankAfterFirstToken, noBlankAfterReturnType, missingOpening, missingName, missingClosing]

def firstIn? (text : List Char) : Option OutlineFault :=
  inOrder.find? fun fault => fault.Shows text

end OutlineFault

open OutlineFault

/-! ## Heads -/

theorem startsWithKeyword_iff {text : List Char} :
    StartsWithKeyword text ↔ (Modifier.ofKeyword? (.ofList (Text.leadToken text))).isSome := by
  rw [Option.isSome_iff_exists]
  constructor
  · rintro ⟨modifier, _, tokenEq⟩
    exact ⟨modifier, Modifier.ofKeyword?_eq_some_iff.2 (by rw [tokenEq, String.ofList_toList])⟩
  · intro isKeyword
    obtain ⟨modifier, found⟩ := isKeyword
    refine ⟨modifier, modifier.mem_all, ?_⟩
    rw [← Modifier.ofKeyword?_eq_some_iff.1 found, String.toList_ofList]

/-- A head is read to its end unless one of the first two faults shows. -/
theorem Head.read_cases (text : List Char) :
    (Head.read text = .error noBlankAfterFirstToken ∧ noBlankAfterFirstToken.Shows text) ∨
      (Head.read text = .error noBlankAfterReturnType ∧ ¬ noBlankAfterFirstToken.Shows text ∧
        noBlankAfterReturnType.Shows text) ∨
      ∃ head, Head.read text = .ok head ∧ ¬ noBlankAfterFirstToken.Shows text ∧
        ¬ noBlankAfterReturnType.Shows text ∧ head.rest = bodyText text := by
  unfold Head.read
  rw [Text.cutToken?_eq_ite text]
  by_cases cutsFirst : Text.StartsUnblank text ∧ Text.HasBlank text
  · have noFirst : ¬ noBlankAfterFirstToken.Shows text := by
      rintro (startsBlank | noBlank)
      · exact startsBlank cutsFirst.1
      · exact noBlank cutsFirst.2
    simp only [if_pos cutsFirst, Modifier.parse_eq]
    cases keyword : Modifier.ofKeyword? (.ofList (Text.leadToken text)) with
    | none =>
      have noKeyword : ¬ StartsWithKeyword text := by simp [startsWithKeyword_iff, keyword]
      exact .inr (.inr ⟨_, rfl, noFirst, fun shows => noKeyword shows.1, by rw [bodyText, if_neg noKeyword]⟩)
    | some modifier =>
      -- Behind a keyword the same cut is made once more, for the return type.
      have startsWithKeyword : StartsWithKeyword text := by simp [startsWithKeyword_iff, keyword]
      rw [Text.cutToken?_eq_ite (Text.afterToken text)]
      by_cases hasBlank : Text.HasBlank (Text.afterToken text)
      · simp only [if_pos (And.intro (Text.startsUnblank_afterToken text) hasBlank)]
        exact .inr (.inr ⟨_, rfl, noFirst, fun shows => shows.2 hasBlank,
          by rw [bodyText, if_pos startsWithKeyword]⟩)
      · rw [if_neg (fun cuts => hasBlank cuts.2)]
        exact .inr (.inl ⟨rfl, noFirst, startsWithKeyword, hasBlank⟩)
  · rw [if_neg cutsFirst]
    exact .inl ⟨rfl, Decidable.not_and_iff_not_or_not.1 cutsFirst⟩

theorem Head.rest_eq_bodyText {text : List Char} {head : Head} (headRead : Head.read text = .ok head) :
    head.rest = bodyText text := by
  rcases Head.read_cases text with ⟨failed, _⟩ | ⟨failed, _⟩ | ⟨found, foundRead, _, _, restEq⟩
  · rw [failed] at headRead
    cases headRead
  · rw [failed] at headRead
    cases headRead
  · obtain rfl : found = head := Except.ok.inj (foundRead.symm.trans headRead)
    exact restEq

theorem startsUnblank_bodyText (text : List Char) : Text.StartsUnblank (bodyText text) := by
  unfold bodyText
  split <;> exact Text.startsUnblank_afterToken _

/-! ## Bodies -/

/-- Trimming leaves nothing of a text only if the text begins with the mark behind it. -/
theorem Text.trim_eq_nil_iff {before rest : List Char} (startsUnblank : StartsUnblank (before ++ rest)) :
    trim before = [] ↔ before = [] := by
  constructor
  · intro trimmed
    obtain ⟨lead, trail, beforeEq, leadBlank, trailBlank⟩ := exists_eq_append_trim before
    have allBlank : AllBlank before := by
      rw [beforeEq, trimmed, List.append_nil]
      intro c member
      exact (List.mem_append.1 member).elim (leadBlank c) (trailBlank c)
    exact startsUnblank.eq_nil allBlank
  · rintro rfl
    rfl

theorem Body.read_cases {text : List Char} (startsUnblank : Text.StartsUnblank text) :
    (Body.read text = .error missingOpening ∧ '(' ∉ text) ∨
      (Body.read text = .error missingName ∧ '(' ∈ text ∧ text.head? = some '(') ∨
      (Body.read text = .error missingClosing ∧ '(' ∈ text ∧ text.head? ≠ some '(' ∧
        ')' ∉ text.dropWhile (· ≠ '(')) ∨
      ∃ body, Body.read text = .ok body ∧ '(' ∈ text ∧ text.head? ≠ some '(' ∧ ')' ∈ text.dropWhile (· ≠ '(') := by
  unfold Body.read
  cases opening : Text.cutFirst? '(' text with
  | none => exact .inl ⟨rfl, Text.cutFirst?_eq_none_iff.1 opening⟩
  | some parts =>
    obtain ⟨before, inner⟩ := parts
    obtain ⟨rfl, noOpening⟩ := Text.cutFirst?_eq_some_iff.1 opening
    have hasOpening : '(' ∈ before ++ '(' :: inner := by simp
    have behind : (before ++ '(' :: inner).dropWhile (· ≠ '(') = '(' :: inner :=
      (Text.span_ne_append noOpening (by simp)).2
    rw [behind]
    by_cases nameless : before = []
    · subst nameless
      exact .inr (.inl ⟨rfl, hasOpening, rfl⟩)
    · -- No blank stands in front of the name, so trimming cannot use it up.
      have named : Text.trim before ≠ [] := fun trimmed => nameless ((Text.trim_eq_nil_iff startsUnblank).1 trimmed)
      have notFirst : (before ++ '(' :: inner).head? ≠ some '(' := by
        cases before with
        | nil => exact absurd rfl nameless
        | cons c before => simpa [eq_comm] using fun same => noOpening (by simp [same])
      simp only [List.isEmpty_iff, if_neg named]
      cases closing : Text.cutLast? ')' inner with
      | none =>
        have noClosing := Text.cutLast?_eq_none_iff.1 closing
        exact .inr (.inr (.inl ⟨rfl, hasOpening, notFirst, by simpa using noClosing⟩))
      | some parts =>
        obtain ⟨argumentText, tail⟩ := parts
        obtain ⟨rfl, _⟩ := Text.cutLast?_eq_some_iff.1 closing
        exact .inr (.inr (.inr ⟨_, rfl, hasOpening, notFirst, by simp⟩))

/-! ## The first fault -/

/-- The readers stop at the first fault that shows, and at no other. -/
theorem outline_cases (text : List Char) :
    (∃ fault, Head.read text = .error fault ∧ firstIn? text = some fault) ∨
      (∃ head fault, Head.read text = .ok head ∧ Body.read head.rest = .error fault ∧ firstIn? text = some fault) ∨
      ∃ head body, Head.read text = .ok head ∧ Body.read head.rest = .ok body ∧ firstIn? text = none := by
  rcases Head.read_cases text with ⟨headRead, shows⟩ | ⟨headRead, noFirst, shows⟩ |
    ⟨head, headRead, noFirst, noSecond, restEq⟩
  · exact .inl ⟨_, headRead, by simp [firstIn?, inOrder, shows]⟩
  · exact .inl ⟨_, headRead, by simp [firstIn?, inOrder, noFirst, shows]⟩
  · -- The last three faults are about the text behind the head alone.
    have opening : missingOpening.Shows text ↔ '(' ∉ head.rest := by rw [restEq, Shows]
    have name : missingName.Shows text ↔ head.rest.head? = some '(' := by rw [restEq, Shows]
    have closing : missingClosing.Shows text ↔ ')' ∉ head.rest.dropWhile (· ≠ '(') := by rw [restEq, Shows]
    have startsUnblank : Text.StartsUnblank head.rest := restEq ▸ startsUnblank_bodyText text
    rcases Body.read_cases startsUnblank with ⟨bodyRead, absent⟩ | ⟨bodyRead, found, first⟩ |
      ⟨bodyRead, found, notFirst, unclosed⟩ | ⟨body, bodyRead, found, notFirst, closed⟩
    · exact .inr (.inl ⟨head, _, headRead, bodyRead, by simp [firstIn?, inOrder, noFirst, noSecond, opening, absent]⟩)
    · exact .inr (.inl ⟨head, _, headRead, bodyRead,
        by simp [firstIn?, inOrder, noFirst, noSecond, opening, found, name, first]⟩)
    · refine .inr (.inl ⟨head, _, headRead, bodyRead, ?_⟩)
      simp only [firstIn?, inOrder, List.find?, noFirst, noSecond, opening, found, name, notFirst, closing, unclosed,
        not_true_eq_false, not_false_eq_true, decide_false, decide_true]
    · refine .inr (.inr ⟨head, body, headRead, bodyRead, ?_⟩)
      simp only [firstIn?, inOrder, List.find?, noFirst, noSecond, opening, found, name, notFirst, closing, closed,
        not_true_eq_false, decide_false]

example : firstIn? "void log)(".toList = some missingClosing := by decide

namespace Signature

theorem parse_of_allBlank {text : String} (allBlank : Text.AllBlank text.toList) : parse text = .error .empty :=
  parse_of_reading (.blank allBlank)

theorem parse_of_firstIn?_eq_some {text : String} {fault : OutlineFault} (notBlank : ¬ Text.AllBlank text.toList)
    (first : firstIn? text.toList = some fault) : parse text = .error (.malformed text fault) := by
  rcases outline_cases text.toList with ⟨found, headRead, foundFirst⟩ | ⟨head, found, headRead, bodyRead, foundFirst⟩ |
    ⟨head, body, _, _, noneFirst⟩
  · obtain rfl : fault = found := Option.some.inj (first.symm.trans foundFirst)
    exact parse_of_reading (.headless notBlank headRead)
  · obtain rfl : fault = found := Option.some.inj (first.symm.trans foundFirst)
    exact parse_of_reading (.bodiless headRead bodyRead)
  · rw [noneFirst] at first
    cases first

theorem exists_outline_of_firstIn?_eq_none {text : List Char} (first : firstIn? text = none) :
    ∃ head body, Head.read text = .ok head ∧ Body.read head.rest = .ok body := by
  rcases outline_cases text with ⟨fault, _, found⟩ | ⟨_, fault, _, _, found⟩ | ⟨head, body, headRead, bodyRead, _⟩
  · rw [found] at first
    cases first
  · rw [found] at first
    cases first
  · exact ⟨head, body, headRead, bodyRead⟩

/-- Once the outline is read, only the argument list can still be refused. -/
theorem parse_of_outline {text : String} {head : Head} {body : Body} (headRead : Head.read text.toList = .ok head)
    (bodyRead : Body.read head.rest = .ok body) :
    (∃ signature, parse text = .ok signature ∧ Argument.parseList body.argumentText = .ok signature.arguments) ∨
      ∃ refusal, parse text = .error (.badArgument refusal.position refusal.text) ∧
        Argument.parseList body.argumentText = .error refusal := by
  rw [parse_eq_withReading headRead bodyRead]
  cases Argument.parseList body.argumentText with
  | ok arguments => exact .inl ⟨_, rfl, rfl⟩
  | error refusal => exact .inr ⟨refusal, rfl, rfl⟩

theorem parse_cases (text : String) :
    (Text.AllBlank text.toList ∧ parse text = .error .empty) ∨
      (¬ Text.AllBlank text.toList ∧ ∃ fault, firstIn? text.toList = some fault ∧
        parse text = .error (.malformed text fault)) ∨
      (¬ Text.AllBlank text.toList ∧ firstIn? text.toList = none ∧
        ((∃ signature, parse text = .ok signature) ∨
          ∃ position piece, parse text = .error (.badArgument position piece))) := by
  by_cases allBlank : Text.AllBlank text.toList
  · exact .inl ⟨allBlank, parse_of_allBlank allBlank⟩
  · cases first : firstIn? text.toList with
    | some fault => exact .inr (.inl ⟨allBlank, fault, rfl, parse_of_firstIn?_eq_some allBlank first⟩)
    | none =>
      obtain ⟨head, body, headRead, bodyRead⟩ := exists_outline_of_firstIn?_eq_none first
      rcases parse_of_outline headRead bodyRead with ⟨signature, parsed, _⟩ | ⟨refusal, parsed, _⟩
      · exact .inr (.inr ⟨allBlank, rfl, .inl ⟨signature, parsed⟩⟩)
      · exact .inr (.inr ⟨allBlank, rfl, .inr ⟨_, _, parsed⟩⟩)

/-- A blank text is reported as such, any other text with the first fault that shows in it, and a text without
faults is read up to its arguments. -/
theorem parse_by_first_fault (text : String) :
    (parse text = .error .empty ↔ Text.AllBlank text.toList) ∧
      (∀ whole fault, parse text = .error (.malformed whole fault) ↔
        ¬ Text.AllBlank text.toList ∧ firstIn? text.toList = some fault ∧ whole = text) ∧
      ((∃ signature, parse text = .ok signature) ∨
          (∃ position piece, parse text = .error (.badArgument position piece)) ↔
        ¬ Text.AllBlank text.toList ∧ firstIn? text.toList = none) ∧
      inOrder.map OutlineFault.reason =
        ["no whitespace after the first token", "no whitespace after the return type", "missing `(`",
          "missing method name", "missing `)` after `(`"] := by
  rcases parse_cases text with ⟨allBlank, parsed⟩ | ⟨notBlank, fault, first, parsed⟩ |
    ⟨notBlank, first, ⟨signature, parsed⟩ | ⟨position, piece, parsed⟩⟩
  · simp [parsed, allBlank, inOrder, OutlineFault.reason]
  · refine ⟨by simp [parsed, notBlank], ?_, by simp [parsed, first], rfl⟩
    intro whole other
    simp [parsed, notBlank, first, eq_comm, and_comm]
  · simp [parsed, notBlank, first, inOrder, OutlineFault.reason]
  · simp [parsed, notBlank, first, inOrder, OutlineFault.reason]

end Signature

end MethodSignatures
