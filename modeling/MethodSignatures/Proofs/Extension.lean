import MethodSignatures.Proofs.Brackets
import MethodSignatures.Proofs.Records

/-! # Text appended to a signature

The head and the name of a text are read before its first opening bracket, so that nothing which is appended can change
them once that bracket is found. What is appended can only move the end of the argument list, and it needs a closing
bracket for that (`exists_outline_append`).
-/

namespace MethodSignatures

namespace Text

theorem cutFirst?_append {mark : Char} {text before after : List Char}
    (cut : cutFirst? mark text = some (before, after)) (more : List Char) :
    cutFirst? mark (text ++ more) = some (before, after ++ more) := by
  obtain ⟨rfl, absent⟩ := cutFirst?_eq_some_iff.1 cut
  apply cutFirst?_eq_some_iff.2
  exact ⟨by simp, absent⟩

theorem cutLast?_append {mark : Char} {text before after more : List Char}
    (cut : cutLast? mark text = some (before, after)) (absent : mark ∉ more) :
    cutLast? mark (text ++ more) = some (before, after ++ more) := by
  obtain ⟨rfl, absentBehind⟩ := cutLast?_eq_some_iff.1 cut
  apply cutLast?_eq_some_iff.2
  exact ⟨by simp, by simp [absentBehind, absent]⟩

theorem cutLast?_append_eq_none {mark : Char} {text more : List Char} (cut : cutLast? mark text = none)
    (absent : mark ∉ more) : cutLast? mark (text ++ more) = none := by
  have absentBefore := cutLast?_eq_none_iff.1 cut
  apply cutLast?_eq_none_iff.2
  simp [absentBefore, absent]

theorem exists_cutLast?_append {mark : Char} {text before after : List Char}
    (cut : cutLast? mark text = some (before, after)) (more : List Char) :
    ∃ parts, cutLast? mark (text ++ more) = some parts := by
  obtain ⟨rfl, _⟩ := cutLast?_eq_some_iff.1 cut
  apply Option.ne_none_iff_exists'.1
  intro uncut
  simpa using cutLast?_eq_none_iff.1 uncut

end Text

/-! ## Bodies -/

namespace Body

/-- The text behind the first opening bracket of a body decides on the end of its argument list and on nothing else. -/
theorem read_of_opening {text before inner : List Char} (opening : Text.cutFirst? '(' text = some (before, inner)) :
    Body.read text =
      if Text.trim before = [] then .error .missingName
      else
        match Text.cutLast? ')' inner with
        | none => .error .missingClosing
        | some (argumentText, tail) => .ok { name := .ofList (Text.trim before), argumentText, tail } := by
  by_cases missing : Text.trim before = []
  · simp [Body.read, opening, missing]
  · cases closing : Text.cutLast? ')' inner <;> simp [Body.read, opening, missing, closing]

theorem exists_opening_of_read {text : List Char} {result : Except OutlineFault Body} (read : Body.read text = result)
    (found : result ≠ .error .missingOpening) : ∃ before inner, Text.cutFirst? '(' text = some (before, inner) := by
  cases opening : Text.cutFirst? '(' text with
  | none =>
    rw [Body.read, opening] at read
    exact absurd read.symm found
  | some parts => exact ⟨parts.1, parts.2, rfl⟩

theorem exists_read_append {text : List Char} {body : Body} (bodyRead : Body.read text = .ok body) (more : List Char) :
    ∃ extended, Body.read (text ++ more) = .ok extended ∧ extended.name = body.name ∧
      (')' ∉ more → extended.argumentText = body.argumentText) := by
  obtain ⟨before, inner, opening⟩ := exists_opening_of_read bodyRead (by simp)
  rw [read_of_opening opening] at bodyRead
  rw [read_of_opening (Text.cutFirst?_append opening more)]
  split at bodyRead
  next => cases bodyRead
  next named =>
    rw [if_neg named]
    cases closing : Text.cutLast? ')' inner with
    | none => simp [closing] at bodyRead
    | some parts =>
      obtain ⟨argumentText, tail⟩ := parts
      simp only [closing] at bodyRead
      obtain rfl := Except.ok.inj bodyRead
      obtain ⟨⟨longer, rest⟩, closingMore⟩ := Text.exists_cutLast?_append closing more
      simp only [closingMore]
      refine ⟨_, rfl, rfl, ?_⟩
      intro absent
      rw [Text.cutLast?_append closing absent] at closingMore
      exact (Prod.mk.inj (Option.some.inj closingMore)).1.symm

theorem read_append_of_missingName {text : List Char} (failed : Body.read text = .error .missingName)
    (more : List Char) : Body.read (text ++ more) = .error .missingName := by
  obtain ⟨before, inner, opening⟩ := exists_opening_of_read failed (by simp)
  rw [read_of_opening opening] at failed
  rw [read_of_opening (Text.cutFirst?_append opening more)]
  split at failed
  next nameless => rw [if_pos nameless]
  next =>
    split at failed
    next => cases failed
    next => cases failed

theorem read_append_of_missingClosing {text more : List Char} (failed : Body.read text = .error .missingClosing)
    (absent : ')' ∉ more) : Body.read (text ++ more) = .error .missingClosing := by
  obtain ⟨before, inner, opening⟩ := exists_opening_of_read failed (by simp)
  rw [read_of_opening opening] at failed
  rw [read_of_opening (Text.cutFirst?_append opening more)]
  split at failed
  next => cases failed
  next named =>
    rw [if_neg named]
    split at failed
    next unclosed => rw [Text.cutLast?_append_eq_none unclosed absent]
    next => cases failed

theorem ne_nil_of_read {text : List Char} {result : Except OutlineFault Body} (read : Body.read text = result)
    (found : result ≠ .error .missingOpening) : text ≠ [] := by
  rintro rfl
  exact found read.symm

end Body

/-! ## Outlines -/

/-- The outline of a text is the outline of every longer one, but for the end of the argument list. -/
theorem exists_outline_append {text : List Char} {head : Head} {body : Body} (headRead : Head.read text = .ok head)
    (bodyRead : Body.read head.rest = .ok body) (more : List Char) :
    ∃ extended : Body, Head.read (text ++ more) = .ok { head with rest := head.rest ++ more } ∧
      Body.read (head.rest ++ more) = .ok extended ∧ extended.name = body.name ∧
      (')' ∉ more → extended.argumentText = body.argumentText) := by
  obtain ⟨extended, extendedRead, sameName, sameList⟩ := Body.exists_read_append bodyRead more
  have unread : head.rest ≠ [] := Body.ne_nil_of_read bodyRead (by simp)
  exact ⟨extended, Head.read_append headRead unread, extendedRead, sameName, sameList⟩

namespace Signature

/-- A text that is refused for its body has a head, which leaves the refused body unread. -/
theorem exists_head_of_malformed {text whole : String} {fault : OutlineFault}
    (failed : parse text = .error (.malformed whole fault))
    (isBodyFault : fault ∈ [OutlineFault.missingOpening, .missingName, .missingClosing]) :
    ∃ head, Head.read text.toList = .ok head ∧ Body.read head.rest = .error fault := by
  obtain ⟨reading, stages⟩ : ∃ reading, Reading.Of text reading := ⟨_, Reading.of_ofText text⟩
  rw [parse_of_reading stages] at failed
  cases stages with
  | blank allBlank => cases failed
  | headless notBlank headRead =>
    obtain ⟨_, rfl⟩ := SignatureError.malformed.inj (Except.error.inj failed)
    rcases Head.fault_of_read headRead with rfl | rfl
    · exact absurd isBodyFault (by decide)
    · exact absurd isBodyFault (by decide)
  | bodiless headRead bodyRead =>
    obtain ⟨_, rfl⟩ := SignatureError.malformed.inj (Except.error.inj failed)
    exact ⟨_, headRead, bodyRead⟩
  | refused headRead bodyRead listRead => cases failed
  | complete headRead bodyRead listRead => cases failed

theorem exists_outline_of_outlineRead {text : String} (outlineRead : OutlineRead (parse text)) :
    ∃ head body, Head.read text.toList = .ok head ∧ Body.read head.rest = .ok body := by
  obtain ⟨reading, stages⟩ : ∃ reading, Reading.Of text reading := ⟨_, Reading.of_ofText text⟩
  rw [parse_of_reading stages, Reading.outlineRead_result_iff] at outlineRead
  obtain ⟨body, hasBody⟩ := outlineRead
  cases stages with
  | blank allBlank | headless notBlank headRead | bodiless headRead bodyRead => cases hasBody
  | refused headRead bodyRead listRead | complete headRead bodyRead listRead => exact ⟨_, _, headRead, bodyRead⟩

theorem parse_append_of_bodyFault {text whole : String} {fault : OutlineFault} {more : String}
    (failed : parse text = .error (.malformed whole fault))
    (isBodyFault : fault ∈ [OutlineFault.missingOpening, .missingName, .missingClosing])
    (found : fault ≠ .missingOpening)
    (staysFault : ∀ rest, Body.read rest = .error fault → Body.read (rest ++ more.toList) = .error fault) :
    parse (text ++ more) = .error (.malformed (text ++ more) fault) := by
  obtain ⟨head, headRead, bodyRead⟩ := exists_head_of_malformed failed isBodyFault
  have headReadMore : Head.read (text ++ more).toList = .ok { head with rest := head.rest ++ more.toList } := by
    rw [String.toList_append]
    exact Head.read_append headRead (Body.ne_nil_of_read bodyRead (by simpa using found))
  exact parse_of_reading (.bodiless headReadMore (staysFault _ bodyRead))

/-- What was read of a text stays read when text is appended. Without a closing bracket it changes nothing at all, nor
does it close the argument list of a text that leaves it open; a missing name is missing ever after; and the modifier,
the return type and the name of a signature cannot be changed by anything behind it. -/
theorem parse_append (text more : String) :
    (')' ∉ more.toList → OutlineRead (parse text) → parse (text ++ more) = parse text) ∧
      (')' ∉ more.toList → ∀ whole, parse text = .error (.malformed whole .missingClosing) →
        parse (text ++ more) = .error (.malformed (text ++ more) .missingClosing)) ∧
      (∀ whole, parse text = .error (.malformed whole .missingName) →
        parse (text ++ more) = .error (.malformed (text ++ more) .missingName)) ∧
      ∀ signature, parse text = .ok signature → OutlineRead (parse (text ++ more)) ∧
        ∀ other, parse (text ++ more) = .ok other → other.modifier = signature.modifier ∧
          other.returnType = signature.returnType ∧ other.name = signature.name := by
  refine ⟨?_, ?_, ?_, ?_⟩
  · intro absent outlineRead
    obtain ⟨head, body, headRead, bodyRead⟩ := exists_outline_of_outlineRead outlineRead
    obtain ⟨extended, headReadMore, extendedRead, sameName, sameList⟩ :=
      exists_outline_append headRead bodyRead more.toList
    rw [← String.toList_append] at headReadMore
    rw [parse_eq_withReading headRead bodyRead, parse_eq_withReading headReadMore extendedRead, sameName,
      sameList absent]
  · intro absent whole failed
    apply parse_append_of_bodyFault failed (by decide) (by decide)
    intro rest restFailed
    exact Body.read_append_of_missingClosing restFailed absent
  · intro whole failed
    apply parse_append_of_bodyFault failed (by decide) (by decide)
    intro rest restFailed
    exact Body.read_append_of_missingName restFailed more.toList
  · intro signature parsed
    obtain ⟨head, body, headRead, bodyRead⟩ := exists_outline_of_outlineRead (.inl ⟨signature, parsed⟩)
    obtain ⟨extended, headReadMore, extendedRead, sameName, _⟩ :=
      exists_outline_append headRead bodyRead more.toList
    rw [← String.toList_append] at headReadMore
    rw [parse_eq_withReading headReadMore extendedRead]
    rw [parse_eq_withReading headRead bodyRead] at parsed
    obtain ⟨arguments, _, rfl⟩ := withReading_eq_ok_iff.1 parsed
    refine ⟨outlineRead_withReading _ _, ?_⟩
    intro other otherParsed
    obtain ⟨otherArguments, _, rfl⟩ := withReading_eq_ok_iff.1 otherParsed
    exact ⟨rfl, rfl, sameName⟩

/-- Words behind the brackets are set aside, and a bracket that comes without a name stays so, although the text behind
it has a name. -/
theorem parse_append_throws :
    parse ("int size()" ++ " throws E") = .ok ⟨none, "int", "size", []⟩ ∧
      parse ("void (" ++ " f(int a)") = .error (.malformed ("void (" ++ " f(int a)") .missingName) := by
  have parsed : parse "int size()" = .ok ⟨none, "int", "size", []⟩ := by rfl
  have nameless : parse "void (" = .error (.malformed "void (" .missingName) := by rfl
  obtain ⟨unchanged, _⟩ := parse_append "int size()" " throws E"
  obtain ⟨_, _, staysNameless, _⟩ := parse_append "void (" " f(int a)"
  refine ⟨?_, staysNameless _ nameless⟩
  rw [unchanged (by decide) (.inl ⟨_, parsed⟩), parsed]

end Signature

end MethodSignatures
