import MethodSignatures.Proofs.Faults
import MethodSignatures.Signature.Event

/-! # The records of a reading

`Account` says how the records of a text and the result of reading it belong together, and `Signature.account_records`
that they always do, whichever characters are hidden. The proof goes through `Reading.events_eq`, which gives the events of
all readings one shape. A reading that ended without an event would break it, but no list is left uncut
(`Argument.exists_refused_of_readList`), so that every failure has its rejection (`Reading.ending_of_error`).
-/

namespace MethodSignatures

/-- The record's text begins with the given one. -/
def Record.begins (opening : String) (record : Record) : Bool :=
  opening.toList.isPrefixOf record.text.toList

/-! ## True accounts -/

/-- The record that rejects a text with the error. No text is rejected for an unknown modifier. -/
def SignatureError.rejection? (hidden : Char → Bool) : SignatureError → Option Record
  | empty => some ⟨.debug, "rejecting empty signature"⟩
  | malformed text fault => some ⟨.debug, "rejecting " ++ Event.shown hidden text ++ ": " ++ fault.reason⟩
  | badArgument position text =>
    some ⟨.debug, "rejecting argument #" ++ toString position ++ " " ++ Event.shown hidden text⟩
  | unknownModifier _ => none

def Modifier.shown : Option Modifier → String
  | none => "None"
  | some publ => "Some(Public)"
  | some priv => "Some(Private)"
  | some prot => "Some(Protected)"

/-- The text was read up to its argument list. -/
def OutlineRead (result : Except SignatureError Signature) : Prop :=
  (∃ signature, result = .ok signature) ∨ ∃ position piece, result = .error (.badArgument position piece)

theorem Signature.outlineRead_withReading (frame : Signature) (reading : Except Refusal (List Argument)) :
    OutlineRead (frame.withReading reading) := by
  cases reading with
  | ok arguments => exact .inl ⟨_, rfl⟩
  | error refusal => exact .inr ⟨_, _, rfl⟩

/-- The text was read up to its body. -/
def HeadRead (result : Except SignatureError Signature) : Prop :=
  OutlineRead result ∨ ∃ whole fault, result = .error (.malformed whole fault) ∧
    fault ∈ [OutlineFault.missingOpening, .missingName, .missingClosing]

/-- The records tell the result of reading `text`, and how far it was read. -/
structure Account (hidden : Char → Bool) (text : String) (result : Except SignatureError Signature)
    (records : List Record) : Prop where
  starts : records.head? = some ⟨.trace, "parsing signature " ++ Event.shown hidden text⟩
  rejects : ∀ error, result = .error error → ∃ rejection, error.rejection? hidden = some rejection ∧
    records.filter (·.begins "rejecting") = [rejection] ∧ records.getLast? = some rejection
  succeeds : ∀ signature, result = .ok signature → records.filter (·.begins "rejecting") = [] ∧
    records.getLast? = some ⟨.trace, "method " ++ Event.shown hidden signature.name ++ " with " ++
      toString signature.arguments.length ++ " argument(s)"⟩
  succeeds_only : ∀ error, result = .error error → records.filter (·.begins "method ") = []
  head_iff : (∃ record ∈ records, record.begins "modifier ") ↔ HeadRead result
  /-- The head is told once, second, and as it is in the result. -/
  head_once : ∀ record ∈ records, record.begins "modifier " →
    records.filter (·.begins "modifier ") = [record] ∧ records[1]? = some record ∧
      ∃ modifier returnType, record = ⟨.trace, "modifier " ++ Modifier.shown modifier ++ ", return type " ++
          Event.shown hidden returnType⟩ ∧
        ∀ signature, result = .ok signature → signature.modifier = modifier ∧ signature.returnType = returnType
  tail_iff : (∃ record ∈ records, record.begins "ignoring ") ↔
    OutlineRead result ∧ text.toList.getLast? ≠ some ')'
  /-- What is set aside is told once, third, and it is all that follows the last closing bracket. -/
  tail_once : ∀ record ∈ records, record.begins "ignoring " →
    records.filter (·.begins "ignoring ") = [record] ∧ records[2]? = some record ∧
      ∃ before tail name, text.toList = before ++ ')' :: tail ∧ ')' ∉ tail ∧
        record = ⟨.debug, "ignoring " ++ Event.shown hidden (.ofList tail) ++ " after the argument list of " ++
          Event.shown hidden name⟩ ∧
        ∀ signature, result = .ok signature → signature.name = name

/-! ## Openings -/

/-- The words that the event's record begins with. -/
def Event.opening : Event → String
  | started _ => "parsing "
  | headRead _ _ => "modifier "
  | tailIgnored _ _ => "ignoring "
  | finished _ _ => "method "
  | emptyRejected | textRejected _ _ | argumentRejected _ _ => "rejecting"

def Event.openings : List String :=
  ["parsing ", "modifier ", "ignoring ", "method ", "rejecting"]

theorem Event.opening_mem (event : Event) : event.opening ∈ openings := by
  cases event <;> simp [opening, openings]

theorem Text.toList_prefix_append {opening text : String} (isPrefix : opening.toList <+: text.toList)
    (rest : String) : opening.toList <+: (text ++ rest).toList := by
  rw [String.toList_append]
  exact isPrefix.trans (List.prefix_append _ _)

section

variable (hidden : Char → Bool)

theorem Event.opening_prefix_message (event : Event) :
    event.opening.toList <+: (event.message hidden).toList := by
  have alone : ∀ opening : String, opening.toList <+: opening.toList := fun opening => List.prefix_refl _
  cases event with
  | started text =>
    have words : "parsing ".toList <+: "parsing signature ".toList := by decide
    exact Text.toList_prefix_append words _
  | headRead modifier returnType =>
    exact Text.toList_prefix_append (Text.toList_prefix_append (Text.toList_prefix_append (alone _) _) _) _
  | tailIgnored tail name =>
    exact Text.toList_prefix_append (Text.toList_prefix_append (Text.toList_prefix_append (alone _) _) _) _
  | finished name count =>
    exact Text.toList_prefix_append (Text.toList_prefix_append (Text.toList_prefix_append
      (Text.toList_prefix_append (alone _) _) _) _) _
  | emptyRejected =>
    have words : "rejecting".toList <+: "rejecting empty signature".toList := by decide
    exact words
  | textRejected text fault =>
    have words : "rejecting".toList <+: "rejecting ".toList := by decide
    exact Text.toList_prefix_append (Text.toList_prefix_append (Text.toList_prefix_append words _) _) _
  | argumentRejected position text =>
    have words : "rejecting".toList <+: "rejecting argument #".toList := by decide
    exact Text.toList_prefix_append (Text.toList_prefix_append (Text.toList_prefix_append words _) _) _

theorem Event.prefixFree_openings : Text.PrefixFree openings := by
  unfold Text.PrefixFree
  decide

/-- A record begins with the opening of its event and with no other one. -/
theorem Event.begins_record {word : String} (isOpening : word ∈ openings) (event : Event) :
    (event.record hidden).begins word = decide (event.opening = word) := by
  rw [Bool.eq_iff_iff, decide_eq_true_eq, Record.begins, List.isPrefixOf_iff_prefix]
  constructor
  · intro isPrefix
    obtain ⟨behindWord, wordEq⟩ := isPrefix
    obtain ⟨behindOpening, openingEq⟩ := event.opening_prefix_message hidden
    -- Both openings begin the same message, and none of them begins with another one.
    have sameText : word.toList ++ behindWord = event.opening.toList ++ behindOpening := by
      rw [openingEq]
      exact wordEq
    exact (prefixFree_openings.eq_of_append_eq isOpening event.opening_mem sameText).1.symm
  · rintro rfl
    exact event.opening_prefix_message hidden

end

/-! ## The shape of the events -/

namespace Reading

def head? : Reading → Option Head
  | blank | headless _ => none
  | bodiless head _ | refused head _ _ | complete head _ _ => some head

def body? : Reading → Option Body
  | blank | headless _ | bodiless _ _ => none
  | refused _ body _ | complete _ body _ => some body

/-- The last event of a reading, unless it ends without one. -/
def ending? (text : String) : Reading → Option Event
  | blank => some .emptyRejected
  | headless fault | bodiless _ fault => some (.textRejected text fault)
  | refused _ _ fault => fault.event?
  | complete _ body arguments => some (.finished body.name arguments.length)

def headEvents (reading : Reading) : List Event :=
  (reading.head?.map Head.event).toList

def tailEvents (reading : Reading) : List Event :=
  (reading.body?.map Body.events).getD []

/-- Between its first and its last event a reading reports its head and its tail, if it has them. -/
theorem events_eq (text : String) (reading : Reading) :
    reading.events text =
      [.started text] ++ reading.headEvents ++ reading.tailEvents ++ (reading.ending? text).toList := by
  cases reading with
  | blank | headless fault | bodiless head fault => rfl
  | refused head body fault | complete head body arguments => rfl

theorem exists_head_of_body {reading : Reading} {body : Body} (hasBody : reading.body? = some body) :
    ∃ head, reading.head? = some head := by
  cases reading with
  | blank | headless fault | bodiless head fault => cases hasBody
  | refused head _ fault | complete head _ arguments => exact ⟨head, rfl⟩

/-! ## Events by their opening -/

theorem filter_opening_of_uniform {events : List Event} {opening : String}
    (uniform : ∀ event ∈ events, event.opening = opening) (word : String) :
    events.filter (fun event => event.opening = word) = if opening = word then events else [] := by
  split
  next same =>
    apply List.filter_eq_self.2
    intro event member
    simpa [uniform event member] using same
  next different =>
    apply List.filter_eq_nil_iff.2
    intro event member
    simpa [uniform event member] using different

theorem opening_of_mem_headEvents {reading : Reading} {event : Event} (member : event ∈ reading.headEvents) :
    event.opening = "modifier " := by
  obtain ⟨head, _, rfl⟩ := Option.map_eq_some_iff.1 (Option.mem_toList.1 member)
  rfl

theorem opening_of_mem_tailEvents {reading : Reading} {event : Event} (member : event ∈ reading.tailEvents) :
    event.opening = "ignoring " := by
  unfold tailEvents at member
  cases hasBody : reading.body? with
  | none => simp [hasBody] at member
  | some body =>
    simp only [hasBody, Option.map_some, Option.getD_some, Body.events] at member
    split at member
    · cases member
    · obtain rfl := List.mem_singleton.1 member
      rfl

/-- The records that begin with an opening are those of the events with that opening. -/
theorem filter_records {hidden : Char → Bool} (text : String) (reading : Reading) {word : String}
    (isOpening : word ∈ Event.openings) :
    (reading.records hidden text).filter (·.begins word) =
      ((if "parsing " = word then [Event.started text] else []) ++
        (if "modifier " = word then reading.headEvents else []) ++
        (if "ignoring " = word then reading.tailEvents else []) ++
        (reading.ending? text).toList.filter fun event => event.opening = word).map (Event.record hidden) := by
  -- A record is chosen by its text, an event by its opening: they are the same choice.
  have sameChoice : (fun record : Record => record.begins word) ∘ Event.record hidden =
      fun event => decide (event.opening = word) := funext (Event.begins_record hidden isOpening)
  have starts : ∀ event ∈ [Event.started text], event.opening = "parsing " := by simp [Event.opening]
  rw [records, List.filter_map, sameChoice, events_eq, List.filter_append, List.filter_append, List.filter_append,
    filter_opening_of_uniform starts, filter_opening_of_uniform fun _ => opening_of_mem_headEvents,
    filter_opening_of_uniform fun _ => opening_of_mem_tailEvents]

/-! ## The last event -/

/-- A reading that fails ends with the rejection of its error. -/
theorem ending_of_error (hidden : Char → Bool) {text : String} {reading : Reading} {error : SignatureError}
    (stages : Of text reading) (failed : reading.result text = .error error) :
    ∃ last, reading.ending? text = some last ∧ error.rejection? hidden = some (last.record hidden) ∧
      last.opening = "rejecting" := by
  cases stages with
  | blank | headless | bodiless =>
    obtain rfl := Except.error.inj failed
    exact ⟨_, rfl, rfl, rfl⟩
  | refused headRead bodyRead listRead =>
    -- A list that cannot be cut would end the reading in silence.
    obtain ⟨refusal, rfl⟩ := Argument.exists_refused_of_readList listRead
    obtain rfl := Except.error.inj failed
    exact ⟨_, rfl, rfl, rfl⟩
  | complete headRead bodyRead listRead => cases failed

theorem ending_of_ok {text : String} {reading : Reading} {signature : Signature}
    (succeeded : reading.result text = .ok signature) :
    reading.ending? text = some (.finished signature.name signature.arguments.length) ∧
      ∃ head body, reading.head? = some head ∧ reading.body? = some body ∧ head.modifier = signature.modifier ∧
        head.returnType = signature.returnType ∧ body.name = signature.name := by
  cases reading with
  | blank | headless fault | bodiless head fault | refused head body fault => cases succeeded
  | complete head body arguments =>
    obtain rfl := Except.ok.inj succeeded
    exact ⟨rfl, head, body, rfl, rfl, rfl, rfl, rfl⟩

theorem opening_of_ending {text : String} {reading : Reading} {last : Event} (ends : reading.ending? text = some last) :
    last.opening = "method " ∨ last.opening = "rejecting" := by
  cases reading with
  | blank | headless fault | bodiless head fault =>
    obtain rfl := Option.some.inj ends
    exact .inr rfl
  | refused head body fault =>
    cases fault with
    | uncut text => cases ends
    | refused refusal =>
      obtain rfl := Option.some.inj ends
      exact .inr rfl
  | complete head body arguments =>
    obtain rfl := Option.some.inj ends
    exact .inl rfl

/-! ## How far a reading comes -/

end Reading

theorem Head.fault_of_read {text : List Char} {fault : OutlineFault} (failed : Head.read text = .error fault) :
    fault = .noBlankAfterFirstToken ∨ fault = .noBlankAfterReturnType := by
  rcases Head.read_cases text with ⟨read, _⟩ | ⟨read, _⟩ | ⟨head, read, _⟩
  · exact .inl (Except.error.inj (failed.symm.trans read))
  · exact .inr (Except.error.inj (failed.symm.trans read))
  · rw [failed] at read
    cases read

theorem Body.fault_of_read {text : List Char} {fault : OutlineFault} (failed : Body.read text = .error fault) :
    fault ∈ [OutlineFault.missingOpening, .missingName, .missingClosing] := by
  unfold Body.read at failed
  split at failed
  next =>
    obtain rfl := Except.error.inj failed
    decide
  next =>
    dsimp only at failed
    split at failed
    next =>
      obtain rfl := Except.error.inj failed
      decide
    next =>
      split at failed
      next =>
        obtain rfl := Except.error.inj failed
        decide
      next => cases failed

/-- Where a text has a mark, it ends in one unless something stands behind the last. -/
theorem Text.getLast?_append_cons_iff {mark : Char} {front rest : List Char} (absent : mark ∉ rest) :
    (front ++ mark :: rest).getLast? ≠ some mark ↔ rest ≠ [] := by
  cases rest with
  | nil => simp
  | cons c rest =>
    have last : (front ++ mark :: c :: rest).getLast? = (c :: rest).getLast? := by
      simp [List.getLast?_append, List.getLast?_cons]
    rw [last]
    constructor
    · simp
    · intro _ isMark
      exact absent (List.mem_of_getLast? isMark)

namespace Reading

theorem headRead_result_iff {text : String} {reading : Reading} (stages : Of text reading) :
    HeadRead (reading.result text) ↔ ∃ head, reading.head? = some head := by
  cases stages with
  | blank allBlank => simp [HeadRead, OutlineRead, result, head?]
  | headless notBlank headRead =>
    rcases Head.fault_of_read headRead with rfl | rfl <;> simp [HeadRead, OutlineRead, result, head?]
  | @bodiless head fault headRead bodyRead =>
    have isBodyFault := Body.fault_of_read bodyRead
    exact ⟨fun _ => ⟨head, rfl⟩, fun _ => .inr ⟨text, fault, rfl, isBodyFault⟩⟩
  | @refused head body fault headRead bodyRead listRead =>
    exact ⟨fun _ => ⟨head, rfl⟩, fun _ => .inl (.inr ⟨fault.refusal.position, fault.refusal.text, rfl⟩)⟩
  | @complete head body arguments headRead bodyRead listRead =>
    exact ⟨fun _ => ⟨head, rfl⟩, fun _ => .inl (.inl ⟨_, rfl⟩)⟩

theorem outlineRead_result_iff {text : String} {reading : Reading} :
    OutlineRead (reading.result text) ↔ ∃ body, reading.body? = some body := by
  cases reading with
  | blank | headless fault | bodiless head fault => simp [OutlineRead, result, body?]
  | refused head body fault => simp [OutlineRead, result, body?]
  | complete head body arguments => simp [OutlineRead, result, body?]

/-- The tail of a body stands behind the last closing bracket of the text. -/
theorem exists_eq_append_tail {text : String} {reading : Reading} (stages : Of text reading) {body : Body}
    (hasBody : reading.body? = some body) :
    ∃ before, text.toList = before ++ ')' :: body.tail ∧ ')' ∉ body.tail := by
  have outline : ∃ head, Head.read text.toList = .ok head ∧ Body.read head.rest = .ok body := by
    cases stages with
    | blank allBlank | headless notBlank headRead | bodiless headRead bodyRead => cases hasBody
    | refused headRead bodyRead listRead | complete headRead bodyRead listRead =>
      obtain rfl := Option.some.inj hasBody
      exact ⟨_, headRead, bodyRead⟩
  obtain ⟨head, headRead, bodyRead⟩ := outline
  obtain ⟨layout, headFills, bodyFills⟩ := exists_layout_of_outline headRead bodyRead
  rw [headFills.text_eq, bodyFills.text_eq, bodyFills.tail_eq]
  refine ⟨Signature.spellModifier layout head.modifier ++ head.returnType.toList ++ layout.typeGap ++
    (body.name.toList ++ layout.nameGap ++ '(' :: body.argumentText), ?_, bodyFills.tail_noClosing⟩
  simp only [List.append_assoc, List.cons_append]

end Reading

/-- The dump of a modifier quotes nothing, so that the style does not matter. -/
theorem Modifier.shown_eq_dump (style : Text.QuoteStyle) (modifier : Option Modifier) :
    String.ofList ((Dump.ofOption (modifier.map Modifier.dump)).compactIn style) = shown modifier := by
  cases modifier with
  | none => rfl
  | some modifier => cases modifier <;> rfl

/-! ## The account of a reading -/

namespace Reading

variable {hidden : Char → Bool} {text : String} {reading : Reading}

theorem filter_ending {word : String} (notLast : word ≠ "method " ∧ word ≠ "rejecting") :
    ((reading.ending? text).toList.filter fun event => event.opening = word) = [] := by
  apply List.filter_eq_nil_iff.2
  intro last member
  rcases opening_of_ending (Option.mem_toList.1 member) with opening | opening
  · simpa [opening] using notLast.1.symm
  · simpa [opening] using notLast.2.symm

theorem filter_modifier (text : String) (reading : Reading) :
    (reading.records hidden text).filter (·.begins "modifier ") = reading.headEvents.map (Event.record hidden) := by
  rw [filter_records text reading (by decide), filter_ending (by decide)]
  simp

theorem filter_ignoring (text : String) (reading : Reading) :
    (reading.records hidden text).filter (·.begins "ignoring ") = reading.tailEvents.map (Event.record hidden) := by
  rw [filter_records text reading (by decide), filter_ending (by decide)]
  simp

theorem getLast?_records {last : Event} (ends : reading.ending? text = some last) :
    (reading.records hidden text).getLast? = some (last.record hidden) := by
  rw [records, events_eq, ends, Option.toList_some, List.map_append, List.map_singleton, List.getLast?_concat]

/-- The only head record is that of the head that was read. -/
theorem mem_begins_modifier_iff {record : Record} :
    record ∈ reading.records hidden text ∧ record.begins "modifier " ↔
      ∃ head, reading.head? = some head ∧ record = head.event.record hidden := by
  have filtered : record ∈ (reading.records hidden text).filter (·.begins "modifier ") ↔ _ := List.mem_filter
  rw [← filtered, filter_modifier]
  cases hasHead : reading.head? with
  | none => simp [headEvents, hasHead]
  | some head => simp [headEvents, hasHead]

theorem mem_begins_ignoring_iff {record : Record} :
    record ∈ reading.records hidden text ∧ record.begins "ignoring " ↔
      ∃ body, reading.body? = some body ∧ body.tail ≠ [] ∧
        record = (Event.tailIgnored (.ofList body.tail) body.name).record hidden := by
  have filtered : record ∈ (reading.records hidden text).filter (·.begins "ignoring ") ↔ _ := List.mem_filter
  rw [← filtered, filter_ignoring]
  cases hasBody : reading.body? with
  | none => simp [tailEvents, hasBody]
  | some body =>
    by_cases empty : body.tail = []
    · simp [tailEvents, hasBody, Body.events, empty]
    · simp [tailEvents, hasBody, Body.events, empty]

theorem records_of_head {head : Head} (hasHead : reading.head? = some head) :
    (reading.records hidden text).filter (·.begins "modifier ") = [head.event.record hidden] ∧
      (reading.records hidden text)[1]? = some (head.event.record hidden) := by
  rw [filter_modifier, records, events_eq]
  simp [headEvents, hasHead]

theorem records_of_tail {body : Body} (hasBody : reading.body? = some body) (nonempty : body.tail ≠ []) :
    (reading.records hidden text).filter (·.begins "ignoring ") =
        [(Event.tailIgnored (.ofList body.tail) body.name).record hidden] ∧
      (reading.records hidden text)[2]? = some ((Event.tailIgnored (.ofList body.tail) body.name).record hidden) := by
  -- The head is read before the body, so that its record takes the second place.
  obtain ⟨head, hasHead⟩ := exists_head_of_body hasBody
  rw [filter_ignoring, records, events_eq]
  simp [headEvents, tailEvents, hasHead, hasBody, Body.events, nonempty]

theorem account (stages : Of text reading) :
    Account hidden text (reading.result text) (reading.records hidden text) where
  starts := by
    rw [records, events_eq]
    rfl
  rejects := by
    intro error failed
    obtain ⟨last, ends, rejection, opening⟩ := ending_of_error hidden stages failed
    refine ⟨_, rejection, ?_, getLast?_records ends⟩
    rw [filter_records text reading (by decide)]
    simp [ends, opening]
  succeeds := by
    intro signature succeeded
    obtain ⟨ends, _⟩ := ending_of_ok succeeded
    refine ⟨?_, ?_⟩
    · rw [filter_records text reading (by decide)]
      simp [ends, Event.opening]
    · rw [getLast?_records ends]
      rfl
  succeeds_only := by
    intro error failed
    obtain ⟨last, ends, _, opening⟩ := ending_of_error hidden stages failed
    rw [filter_records text reading (by decide)]
    simp [ends, opening]
  head_iff := by
    rw [headRead_result_iff stages]
    constructor
    · intro told
      obtain ⟨record, isHeadRecord⟩ := told
      obtain ⟨head, hasHead, _⟩ := mem_begins_modifier_iff.1 isHeadRecord
      exact ⟨head, hasHead⟩
    · intro read
      obtain ⟨head, hasHead⟩ := read
      exact ⟨_, mem_begins_modifier_iff.2 ⟨head, hasHead, rfl⟩⟩
  head_once := by
    intro record member begins
    obtain ⟨head, hasHead, rfl⟩ := mem_begins_modifier_iff.1 ⟨member, begins⟩
    obtain ⟨once, second⟩ := records_of_head hasHead
    refine ⟨once, second, head.modifier, head.returnType, ?_, ?_⟩
    · rw [← Modifier.shown_eq_dump]
      rfl
    · intro signature succeeded
      -- The head that was told and the one of the result are the head of one reading.
      obtain ⟨_, found, _, hasFound, _, sameModifier, sameType, _⟩ := ending_of_ok succeeded
      obtain rfl : head = found := Option.some.inj (hasHead.symm.trans hasFound)
      exact ⟨sameModifier.symm, sameType.symm⟩
  tail_iff := by
    rw [outlineRead_result_iff]
    constructor
    · intro told
      obtain ⟨record, isTailRecord⟩ := told
      obtain ⟨body, hasBody, nonempty, _⟩ := mem_begins_ignoring_iff.1 isTailRecord
      obtain ⟨before, textEq, noClosing⟩ := exists_eq_append_tail stages hasBody
      refine ⟨⟨body, hasBody⟩, ?_⟩
      rw [textEq]
      exact (Text.getLast?_append_cons_iff noClosing).2 nonempty
    · intro follows
      obtain ⟨⟨body, hasBody⟩, notLast⟩ := follows
      obtain ⟨before, textEq, noClosing⟩ := exists_eq_append_tail stages hasBody
      rw [textEq] at notLast
      have nonempty := (Text.getLast?_append_cons_iff noClosing).1 notLast
      exact ⟨_, mem_begins_ignoring_iff.2 ⟨body, hasBody, nonempty, rfl⟩⟩
  tail_once := by
    intro record member begins
    obtain ⟨body, hasBody, nonempty, rfl⟩ := mem_begins_ignoring_iff.1 ⟨member, begins⟩
    obtain ⟨once, third⟩ := records_of_tail hasBody nonempty
    obtain ⟨before, textEq, noClosing⟩ := exists_eq_append_tail stages hasBody
    refine ⟨once, third, before, body.tail, body.name, textEq, noClosing, rfl, ?_⟩
    intro signature succeeded
    obtain ⟨_, _, found, _, hasFound, _, _, sameName⟩ := ending_of_ok succeeded
    obtain rfl : body = found := Option.some.inj (hasBody.symm.trans hasFound)
    exact sameName.symm

end Reading

/-- The records of every text tell the truth about the result of reading it, whichever characters are hidden. -/
theorem Signature.account_records (hidden : Char → Bool) (text : String) :
    Account hidden text (parse text) (records hidden text) :=
  Reading.account (Reading.of_ofText text)

example : (Signature.records (fun _ => false) "int f(a) x").map Record.text =
    ["parsing signature \"int f(a) x\"", "modifier None, return type \"int\"",
      "ignoring \" x\" after the argument list of \"f\"", "rejecting argument #0 \"a\""] := by rfl

end MethodSignatures
