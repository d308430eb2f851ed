import MethodSignatures.Signature.Reading

/-! # The stages of a reading

`Reading.Of text reading` says stage by stage how a reading of `text` comes to its end. It is the relation
`Reading.ofText text = reading` (`Reading.of_iff`) in a form that is taken apart by cases.
-/

namespace MethodSignatures

theorem Text.IsToken.not_allBlank {token : List Char} (isToken : IsToken token) (rest : List Char) :
    ¬ AllBlank (token ++ rest) := by
  obtain ⟨nonempty, unblank⟩ := isToken
  cases token with
  | nil => exact absurd rfl nonempty
  | cons c token =>
    intro allBlank
    have blank : isBlank c = true := allBlank c (by simp)
    simp [unblank c (by simp)] at blank

theorem Head.not_allBlank_of_read {text : List Char} {head : Head} (headRead : Head.read text = .ok head) :
    ¬ Text.AllBlank text := by
  cases cut : Text.cutToken? text with
  | none => simp [Head.read, cut] at headRead
  | some parts =>
    obtain ⟨token, rest⟩ := parts
    obtain ⟨gap, rfl, isToken, _, _⟩ := Text.cutToken?_eq_some_iff.1 cut
    rw [List.append_assoc]
    exact isToken.not_allBlank _

namespace Reading

inductive Of (text : String) : Reading → Prop where
  | blank (allBlank : Text.AllBlank text.toList) : Of text .blank
  | headless {fault : OutlineFault} (notBlank : ¬ Text.AllBlank text.toList)
      (headRead : Head.read text.toList = .error fault) : Of text (.headless fault)
  | bodiless {head : Head} {fault : OutlineFault} (headRead : Head.read text.toList = .ok head)
      (bodyRead : Body.read head.rest = .error fault) : Of text (.bodiless head fault)
  | refused {head : Head} {body : Body} {fault : Argument.ListFault} (headRead : Head.read text.toList = .ok head)
      (bodyRead : Body.read head.rest = .ok body)
      (listRead : Argument.readList body.argumentText = .error fault) : Of text (.refused head body fault)
  | complete {head : Head} {body : Body} {arguments : List Argument} (headRead : Head.read text.toList = .ok head)
      (bodyRead : Body.read head.rest = .ok body)
      (listRead : Argument.readList body.argumentText = .ok arguments) : Of text (.complete head body arguments)

theorem of_ofText (text : String) : Of text (ofText text) := by
  unfold ofText
  by_cases allBlank : Text.AllBlank text.toList
  · rw [if_pos (List.all_eq_true.2 allBlank)]
    exact .blank allBlank
  · rw [if_neg (fun all => allBlank (List.all_eq_true.1 all))]
    cases headRead : Head.read text.toList with
    | error fault => exact .headless allBlank headRead
    | ok head =>
      cases bodyRead : Body.read head.rest with
      | error fault => simpa only [bodyRead] using .bodiless headRead bodyRead
      | ok body =>
        cases listRead : Argument.readList body.argumentText with
        | error fault => simpa only [bodyRead, listRead] using .refused headRead bodyRead listRead
        | ok arguments => simpa only [bodyRead, listRead] using .complete headRead bodyRead listRead

theorem of_iff {text : String} {reading : Reading} : Of text reading ↔ ofText text = reading := by
  constructor
  · intro stages
    -- Every stage but the first is reached only by a text that is not blank.
    have skipsBlank : ¬ Text.AllBlank text.toList → ¬ text.toList.all Text.isBlank = true :=
      fun notBlank all => notBlank (List.all_eq_true.1 all)
    unfold ofText
    cases stages with
    | blank allBlank => rw [if_pos (List.all_eq_true.2 allBlank)]
    | headless notBlank headRead => rw [if_neg (skipsBlank notBlank), headRead]
    | bodiless headRead bodyRead =>
      rw [if_neg (skipsBlank (Head.not_allBlank_of_read headRead)), headRead]
      simp only [bodyRead]
    | refused headRead bodyRead listRead | complete headRead bodyRead listRead =>
      rw [if_neg (skipsBlank (Head.not_allBlank_of_read headRead)), headRead]
      simp only [bodyRead, listRead]
  · rintro rfl
    exact of_ofText text

end Reading

theorem Signature.parse_of_reading {text : String} {reading : Reading} (stages : Reading.Of text reading) :
    parse text = reading.result text := by
  rw [parse, Reading.of_iff.1 stages]

/-- A signature is read only by a reading that is complete. -/
theorem Signature.parse_eq_ok_iff_complete {text : String} {signature : Signature} :
    parse text = .ok signature ↔ ∃ head body, Reading.Of text (.complete head body signature.arguments) ∧
      head.modifier = signature.modifier ∧ head.returnType = signature.returnType ∧
      body.name = signature.name := by
  constructor
  · intro parsed
    have stages := Reading.of_ofText text
    rw [parse_of_reading stages] at parsed
    cases read : Reading.ofText text with
    | complete head body arguments =>
      rw [read] at stages parsed
      obtain rfl := Except.ok.inj parsed
      exact ⟨head, body, stages, rfl, rfl, rfl⟩
    | blank | headless _ | bodiless _ _ | refused _ _ _ => simp [read, Reading.result] at parsed
  · intro complete
    obtain ⟨head, body, stages, sameModifier, sameType, sameName⟩ := complete
    rw [parse_of_reading stages, Reading.result, sameModifier, sameType, sameName]

/-! ## Results of an argument list -/

namespace Signature

/-- What a text with the fields of `frame` in front of its brackets gives, from the reading of its argument list. -/
def withReading (frame : Signature) : Except Refusal (List Argument) → Except SignatureError Signature
  | .ok arguments => .ok { frame with arguments }
  | .error refusal => .error (.badArgument refusal.position refusal.text)

theorem withReading_eq_ok_iff {frame signature : Signature} {reading : Except Refusal (List Argument)} :
    frame.withReading reading = .ok signature ↔
      ∃ arguments, reading = .ok arguments ∧ { frame with arguments } = signature := by
  cases reading with
  | ok arguments => simp [withReading]
  | error refusal => simp [withReading]

theorem withReading_eq_badArgument_iff {frame : Signature} {reading : Except Refusal (List Argument)} {position : Nat}
    {piece : String} :
    frame.withReading reading = .error (.badArgument position piece) ↔ reading = .error ⟨position, piece⟩ := by
  cases reading with
  | ok arguments => simp [withReading]
  | error refusal =>
    obtain ⟨refusedAt, text⟩ := refusal
    simp [withReading]

/-- Once the outline is read, only the argument list decides. -/
theorem parse_eq_withReading {text : String} {head : Head} {body : Body} (headRead : Head.read text.toList = .ok head)
    (bodyRead : Body.read head.rest = .ok body) :
    parse text = withReading { modifier := head.modifier, returnType := head.returnType, name := body.name }
      (Argument.parseList body.argumentText) := by
  rw [Argument.parseList]
  cases listRead : Argument.readList body.argumentText with
  | ok arguments => exact parse_of_reading (.complete headRead bodyRead listRead)
  | error fault => exact parse_of_reading (.refused headRead bodyRead listRead)

end Signature

end MethodSignatures
