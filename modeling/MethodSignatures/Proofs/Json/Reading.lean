import MethodSignatures.Json.Grammar
import MethodSignatures.Json.Reader
import MethodSignatures.Text.Token
import Mathlib.Data.List.DropRight

/-! # JSON is read as it is spelled

Every text that spells a value by the rules of the grammar is read as that value (`Json.Value.read`), wherever it
stands: the reader stops where the value ends, provided that no character follows which would continue a number. So a
text spells one value at most (`Json.Document.unique`). Settling repeated keys changes nothing where none is repeated.
-/

namespace MethodSignatures.Json

theorem isBlank_iff {c : Char} : isBlank c = true ↔ c ∈ [' ', '\t', '\n', '\r'] := by
  simp only [isBlank, Bool.or_eq_true, decide_eq_true_eq, List.mem_cons, List.not_mem_nil, or_false, or_assoc]

/-- No blank stands at the front. -/
def StartsSolid (text : List Char) : Prop :=
  ∀ c ∈ text.head?, isBlank c = false

theorem startsSolid_cons {c : Char} (isSolid : isBlank c = false) (rest : List Char) : StartsSolid (c :: rest) := by
  simp [StartsSolid, isSolid]

theorem skipBlanks_append {space text : List Char} (isSpace : IsSpace space) (startsSolid : StartsSolid text) :
    skipBlanks (space ++ text) = text :=
  Text.dropWhile_append_of_boundary (fun c member => isBlank_iff.2 (isSpace c member)) startsSolid

theorem skipBlanks_skipBlanks (text : List Char) : skipBlanks (skipBlanks text) = skipBlanks text :=
  List.dropWhile_idempotent _ _

/-! ## Strings -/

theorem ofLetter?_of_mem : ∀ escape ∈ letterEscapes, escape.1 ≠ 'u' ∧ ofLetter? escape.1 = some escape.2 := by
  decide

theorem isHighSurrogate_iff {unit : Nat} : isHighSurrogate unit = true ↔ 0xD800 ≤ unit ∧ unit < 0xDC00 := by
  simp [isHighSurrogate]

theorem isLowSurrogate_iff {unit : Nat} : isLowSurrogate unit = true ↔ 0xDC00 ≤ unit ∧ unit < 0xE000 := by
  simp [isLowSurrogate]

theorem Characters.read {text characters : List Char} (spelled : Characters text characters) (rest : List Char) :
    readString (text ++ '"' :: rest) = some (characters, rest) := by
  induction spelled with
  | nil => simp [readString]
  | @plain c text characters printable noQuote noBackslash _ inductionHypothesis =>
    have noControl : ¬ c.toNat < 0x20 := by omega
    simp [readString, noBackslash, noControl, inductionHypothesis]
  | letter isEscape _ inductionHypothesis =>
    obtain ⟨noCode, found⟩ := ofLetter?_of_mem _ isEscape
    dsimp only at noCode found
    simp [readString, noCode, found, inductionHypothesis]
  | @code _ _ _ _ unit _ _ digits noSurrogate _ inductionHypothesis =>
    have noLow : ¬ isLowSurrogate unit = true := by
      rw [isLowSurrogate_iff]
      omega
    have noHigh : ¬ isHighSurrogate unit = true := by
      rw [isHighSurrogate_iff]
      omega
    simp [readString, digits, noLow, noHigh, inductionHypothesis]
  | @pair _ _ _ _ _ _ _ _ high low _ _ highDigits isHigh lowDigits isLow _ inductionHypothesis =>
    have noLow : ¬ isLowSurrogate high = true := by
      rw [isLowSurrogate_iff]
      omega
    simp [readString, highDigits, noLow, isHighSurrogate_iff.2 isHigh, lowDigits, isLowSurrogate_iff.2 isLow,
      inductionHypothesis, ofSurrogates]

/-! ## Numbers -/

/-- No character that could go on with a number stands at the front. -/
def EndsNumber (text : List Char) : Prop :=
  ∀ c ∈ text.head?, c.isDigit = false ∧ c ≠ '.' ∧ c ≠ 'e' ∧ c ≠ 'E'

/-- A digit is no sign, no blank and none of the characters that another value begins with or that close an array. -/
theorem not_mem_of_isDigit {c : Char} (isDigit : c.isDigit = true) :
    c ∉ ['-', '+', ' ', '\t', '\n', '\r', 'n', 't', 'f', '"', '[', '\x7b', ']'] := by
  intro member
  simp only [List.mem_cons, List.not_mem_nil, or_false] at member
  rcases member with rfl | rfl | rfl | rfl | rfl | rfl | rfl | rfl | rfl | rfl | rfl | rfl | rfl <;> simp at isDigit

theorem IsDigits.eq_cons {digits : List Char} (isDigits : IsDigits digits) :
    ∃ digit others, digits = digit :: others ∧ digit.isDigit = true := by
  obtain ⟨digit, others, rfl⟩ := List.exists_cons_of_ne_nil isDigits.1
  exact ⟨digit, others, rfl, isDigits.2 digit (by simp)⟩

theorem IsDigits.read {digits rest : List Char} (isDigits : IsDigits digits)
    (ends : ∀ c ∈ rest.head?, c.isDigit = false) : readDigits (digits ++ rest) = some (digits, rest) := by
  obtain ⟨nonempty, allDigits⟩ := isDigits
  have taken : (digits ++ rest).takeWhile Char.isDigit = digits := by
    rw [List.takeWhile_append_of_pos allDigits]
    cases rest with
    | nil => simp
    | cons c rest => simp [ends c rfl]
  simp [readDigits, taken, Text.dropWhile_append_of_boundary allDigits ends, nonempty]

theorem IsWhole.read {whole rest : List Char} (isWhole : IsWhole whole)
    (ends : ∀ c ∈ rest.head?, c.isDigit = false) : readWhole (whole ++ rest) = some (whole, rest) := by
  obtain ⟨isDigits, leadingZero⟩ := isWhole
  rw [readWhole, isDigits.read ends]
  split
  next first second others tail cut =>
    obtain ⟨rfl, _⟩ := Prod.mk.inj (Option.some.inj cut)
    exact absurd (leadingZero rfl) (by simp)
  next => rfl

theorem Fraction.read {text rest : List Char} {digits : Option (List Char)} (isFraction : Fraction text digits)
    (ends : ∀ c ∈ rest.head?, c.isDigit = false ∧ c ≠ '.') :
    readFraction (text ++ rest) = some (digits, rest) := by
  cases isFraction with
  | absent =>
    cases rest with
    | nil => rfl
    | cons c rest => simp [readFraction, (ends c rfl).2]
  | present isDigits => simp [readFraction, isDigits.read fun c first => (ends c first).1]

theorem Exponent.read {text rest : List Char} {exponent : Option Int} (isExponent : Exponent text exponent)
    (ends : ∀ c ∈ rest.head?, c.isDigit = false ∧ c ≠ 'e' ∧ c ≠ 'E') :
    readExponent (text ++ rest) = some (exponent, rest) := by
  have endsDigits : ∀ c ∈ rest.head?, c.isDigit = false := fun c first => (ends c first).1
  cases isExponent with
  | absent =>
    cases rest with
    | nil => rfl
    | cons c rest => simp [readExponent, (ends c rfl).2]
  | positive isMark isDigits => simp [readExponent, isMark, isDigits.read endsDigits]
  | negative isMark isDigits => simp [readExponent, isMark, isDigits.read endsDigits]
  | @unsigned mark digits isMark isDigits =>
    -- The first digit is no sign, so that the digits are read from the place behind the mark.
    obtain ⟨digit, others, rfl, isDigit⟩ := isDigits.eq_cons
    have others := not_mem_of_isDigit isDigit
    simp only [List.mem_cons, not_or] at others
    have digitsRead := isDigits.read endsDigits
    rw [List.cons_append] at digitsRead
    simp [readExponent, isMark, others, digitsRead]

theorem decimalExponent_eq_scaleOf (fraction : Option (List Char)) (exponent : Option Int) :
    decimalExponent fraction exponent = scaleOf fraction exponent := by
  cases fraction <;> cases exponent <;> simp [decimalExponent, scaleOf]

theorem forall_head?_append {p : Char → Prop} {front rest : List Char} (inFront : ∀ c ∈ front.head?, p c)
    (inRest : ∀ c ∈ rest.head?, p c) : ∀ c ∈ (front ++ rest).head?, p c := by
  cases front with
  | nil => exact inRest
  | cons c front => exact inFront

theorem Fraction.eq_of_mem_head? {text : List Char} {digits : Option (List Char)} (isFraction : Fraction text digits) :
    ∀ c ∈ text.head?, c = '.' := by
  cases isFraction <;> simp

theorem Exponent.eq_of_mem_head? {text : List Char} {exponent : Option Int} (isExponent : Exponent text exponent) :
    ∀ c ∈ text.head?, c = 'e' ∨ c = 'E' := by
  cases isExponent with
  | absent => simp
  | unsigned isMark _ | positive isMark _ | negative isMark _ => simpa using isMark

theorem readMagnitude_append {whole fraction power rest : List Char} {digits : Option (List Char)}
    {exponent : Option Int} (negative : Bool) (isWhole : IsWhole whole) (isFraction : Fraction fraction digits)
    (isExponent : Exponent power exponent) (ends : EndsNumber rest) :
    readMagnitude negative (whole ++ (fraction ++ (power ++ rest))) =
      some (⟨negative, Text.ofDecimal (whole ++ digits.getD []), scaleOf digits exponent⟩, rest) := by
  have behindPower : ∀ c ∈ rest.head?, c.isDigit = false ∧ c ≠ 'e' ∧ c ≠ 'E' :=
    fun c first => ⟨(ends c first).1, (ends c first).2.2⟩
  have behindFraction : ∀ c ∈ (power ++ rest).head?, c.isDigit = false ∧ c ≠ '.' := by
    apply forall_head?_append
    · intro c first
      rcases isExponent.eq_of_mem_head? c first with rfl | rfl <;> decide
    · exact fun c first => ⟨(ends c first).1, (ends c first).2.1⟩
  have behindWhole : ∀ c ∈ (fraction ++ (power ++ rest)).head?, c.isDigit = false := by
    apply forall_head?_append
    · intro c first
      obtain rfl := isFraction.eq_of_mem_head? c first
      decide
    · exact fun c first => (behindFraction c first).1
  simp [readMagnitude, isWhole.read behindWhole, isFraction.read behindFraction, isExponent.read behindPower,
    decimalExponent_eq_scaleOf]

theorem Number.read {text rest : List Char} {number : JsonNumber} (spelled : Number text number)
    (ends : EndsNumber rest) : readNumber (text ++ rest) = some (number, rest) := by
  cases spelled with
  | @mk negative whole fraction power digits exponent isWhole isFraction isExponent =>
    have magnitude := readMagnitude_append negative isWhole isFraction isExponent ends
    cases negative with
    | true => simpa [readNumber] using magnitude
    | false =>
      -- The number begins with a digit, which is no sign.
      obtain ⟨digit, others, rfl, isDigit⟩ := isWhole.1.eq_cons
      have others := not_mem_of_isDigit isDigit
      simp only [List.mem_cons, not_or] at others
      simpa [readNumber, others] using magnitude

/-! ## The front of a value -/

theorem not_mem_of_begins_number {c : Char} (begins : c = '-' ∨ c.isDigit = true) :
    c ∉ [' ', '\t', '\n', '\r', 'n', 't', 'f', '"', '[', '\x7b', ']'] := by
  rcases begins with rfl | isDigit
  · decide
  · exact fun member => not_mem_of_isDigit isDigit (.tail _ (.tail _ member))

theorem Number.eq_cons {text : List Char} {number : JsonNumber} (spelled : Number text number) :
    ∃ c others, text = c :: others ∧ (c = '-' ∨ c.isDigit = true) := by
  cases spelled with
  | @mk negative whole _ _ _ _ isWhole _ _ =>
    obtain ⟨digit, others, rfl, isDigit⟩ := isWhole.1.eq_cons
    cases negative with
    | true => exact ⟨'-', _, rfl, .inl rfl⟩
    | false => exact ⟨digit, _, rfl, .inr isDigit⟩

theorem readValue_eq_readNumber {c : Char} (begins : c = '-' ∨ c.isDigit = true) (fuel : Nat) (text : List Char) :
    readValue (fuel + 1) (c :: text) = (readNumber (c :: text)).map fun (value, rest) => (.number value, rest) := by
  have others := not_mem_of_begins_number begins
  simp only [List.mem_cons, not_or] at others
  rw [readValue]
  all_goals simp [others]

/-- A value begins with neither a blank nor the sign that closes an array. -/
theorem Value.eq_cons {text : List Char} {value : Json} (spelled : Value text value) :
    ∃ c others, text = c :: others ∧ isBlank c = false ∧ c ≠ ']' := by
  cases spelled with
  | number spelled =>
    obtain ⟨c, others, rfl, begins⟩ := spelled.eq_cons
    have no := not_mem_of_begins_number begins
    simp only [List.mem_cons, not_or] at no
    exact ⟨c, others, rfl, by simp [isBlank, no], by simp [no]⟩
  | _ => exact ⟨_, _, rfl, by decide, by decide⟩

theorem Value.ne_nil {text : List Char} {value : Json} (spelled : Value text value) : text ≠ [] := by
  obtain ⟨c, others, rfl, _⟩ := spelled.eq_cons
  simp

theorem Document.ne_nil {text : List Char} {value : Json} (spelled : Document text value) : text ≠ [] := by
  cases spelled with
  | mk _ spelled _ => simp [spelled.ne_nil]

theorem Items.ne_nil {text : List Char} {items : List Json} (spelled : Items text items) : text ≠ [] := by
  cases spelled with
  | last spelled => exact spelled.ne_nil
  | cons _ _ => simp

theorem Members.ne_nil {text : List Char} {members : List (String × Json)} (spelled : Members text members) :
    text ≠ [] := by
  cases spelled with
  | last spelled =>
    cases spelled
    simp
  | cons _ _ => simp

theorem Value.startsSolid_append {text : List Char} {value : Json} (spelled : Value text value) (rest : List Char) :
    StartsSolid (text ++ rest) := by
  obtain ⟨c, others, rfl, isSolid, _⟩ := spelled.eq_cons
  exact startsSolid_cons isSolid _

theorem Document.skipBlanks_append {text : List Char} {value : Json} (spelled : Document text value)
    (rest : List Char) : ∃ c others, skipBlanks (text ++ rest) = c :: others ∧ c ≠ ']' := by
  cases spelled with
  | @mk before _ after _ isBefore spelled _ =>
    have skipped := Json.skipBlanks_append isBefore (spelled.startsSolid_append (after ++ rest))
    obtain ⟨c, others, rfl, _, noBracket⟩ := spelled.eq_cons
    exact ⟨c, others ++ (after ++ rest), by simpa using skipped, noBracket⟩

theorem Items.skipBlanks_append {text : List Char} {items : List Json} (spelled : Items text items)
    (rest : List Char) : ∃ c others, skipBlanks (text ++ rest) = c :: others ∧ c ≠ ']' := by
  cases spelled with
  | last spelled => exact spelled.skipBlanks_append rest
  | cons spelled _ =>
    rw [List.append_assoc]
    exact spelled.skipBlanks_append _

theorem Member.skipBlanks_append {text : List Char} {member : String × Json} (spelled : Member text member)
    (rest : List Char) : ∃ others, skipBlanks (text ++ rest) = '"' :: others := by
  cases spelled with
  | @mk _ key _ after inner _ isBefore _ _ _ =>
    refine ⟨key ++ '"' :: after ++ ':' :: inner ++ rest, ?_⟩
    simp only [List.append_assoc, List.cons_append]
    exact Json.skipBlanks_append isBefore (startsSolid_cons (by decide) _)

theorem Members.skipBlanks_append {text : List Char} {members : List (String × Json)} (spelled : Members text members)
    (rest : List Char) : ∃ others, skipBlanks (text ++ rest) = '"' :: others := by
  cases spelled with
  | last spelled => exact spelled.skipBlanks_append rest
  | cons spelled _ =>
    rw [List.append_assoc]
    exact spelled.skipBlanks_append _

theorem readItems_skipBlanks (fuel : Nat) (text : List Char) :
    readItems fuel (skipBlanks text) = readItems fuel text := by
  cases fuel with
  | zero => rfl
  | succ fuel => simp only [readItems, skipBlanks_skipBlanks]

theorem readMembers_skipBlanks (fuel : Nat) (text : List Char) :
    readMembers fuel (skipBlanks text) = readMembers fuel text := by
  cases fuel with
  | zero => rfl
  | succ fuel => simp only [readMembers, readKey, skipBlanks_skipBlanks]

theorem readKey_append {before key characters after : List Char} (isBefore : IsSpace before)
    (spelled : Characters key characters) (isAfter : IsSpace after) (rest : List Char) :
    readKey (before ++ '"' :: key ++ '"' :: after ++ ':' :: rest) = some (.ofList characters, rest) := by
  have atKey : skipBlanks (before ++ '"' :: (key ++ '"' :: (after ++ ':' :: rest))) =
      '"' :: (key ++ '"' :: (after ++ ':' :: rest)) := skipBlanks_append isBefore (startsSolid_cons (by decide) _)
  have atColon : skipBlanks (after ++ ':' :: rest) = ':' :: rest :=
    skipBlanks_append isAfter (startsSolid_cons (by decide) _)
  simp [readKey, atKey, spelled.read, atColon]

/-! ## What stands behind a value -/

theorem IsSpace.endsNumber_append {space rest : List Char} (isSpace : IsSpace space) (ends : EndsNumber rest) :
    EndsNumber (space ++ rest) := by
  refine forall_head?_append ?_ ends
  intro c first
  have blank := isSpace c (List.mem_of_mem_head? first)
  simp only [List.mem_cons, List.not_mem_nil, or_false] at blank
  rcases blank with rfl | rfl | rfl | rfl <;> decide

/-- Nothing stands at the front, or a sign that may stand behind a value. -/
def EndsDocument (text : List Char) : Prop :=
  ∀ c ∈ text.head?, c ∈ [',', ']', '\x7d']

theorem endsDocument_nil : EndsDocument [] := by
  simp [EndsDocument]

theorem endsDocument_cons {c : Char} (isMark : c ∈ [',', ']', '\x7d']) (rest : List Char) :
    EndsDocument (c :: rest) := by
  rintro _ ⟨⟩
  exact isMark

theorem EndsDocument.startsSolid {text : List Char} (ends : EndsDocument text) : StartsSolid text := by
  have solid : ∀ c ∈ [',', ']', '\x7d'], isBlank c = false := by simp [isBlank]
  exact fun c first => solid c (ends c first)

theorem EndsDocument.endsNumber {text : List Char} (ends : EndsDocument text) : EndsNumber text := by
  have ending : ∀ c ∈ [',', ']', '\x7d'], c.isDigit = false ∧ c ≠ '.' ∧ c ≠ 'e' ∧ c ≠ 'E' := by simp
  exact fun c first => ending c (ends c first)

/-! ## Values

The induction is on the fuel. Between two calls of one reader at least one character is taken, so that twice the length
of a text is fuel enough for it. -/

theorem exists_eq_succ_of_enough {text : List Char} {fuel : Nat} (nonempty : text ≠ [])
    (enough : 2 * text.length ≤ fuel + 1) : ∃ fewer, fuel = fewer + 1 := by
  have positive := List.length_pos_iff.2 nonempty
  exact ⟨fuel - 1, by omega⟩

mutual
theorem Value.read {text : List Char} {value : Json} (spelled : Value text value) {fuel : Nat}
    (enough : 2 * text.length ≤ fuel + 1) {rest : List Char} (ends : EndsNumber rest) :
    readValue fuel (text ++ rest) = some (value, rest) := by
  obtain ⟨fuel, rfl⟩ := exists_eq_succ_of_enough spelled.ne_nil enough
  cases spelled with
  | null => simp [readValue]
  | boolTrue => simp [readValue]
  | boolFalse => simp [readValue]
  | number spelled =>
    obtain ⟨c, others, rfl, begins⟩ := spelled.eq_cons
    have numberRead := spelled.read ends
    rw [List.cons_append] at numberRead ⊢
    simp [readValue_eq_readNumber begins, numberRead]
  | string spelled => simp [readValue, spelled.read]
  | emptyArray isSpace =>
    have skipped := skipBlanks_append isSpace (startsSolid_cons (by decide : isBlank ']' = false) rest)
    simp [readValue, skipped]
  | @array inner items spelled =>
    simp only [List.length_cons, List.length_append] at enough
    have itemsRead := spelled.read (by omega : 2 * inner.length ≤ fuel) rest
    obtain ⟨c, others, skipped, noBracket⟩ := spelled.skipBlanks_append (']' :: rest)
    rw [← readItems_skipBlanks, skipped] at itemsRead
    simp [readValue, skipped, noBracket, itemsRead]
  | emptyObject isSpace =>
    have skipped := skipBlanks_append isSpace (startsSolid_cons (by decide : isBlank '\x7d' = false) rest)
    simp [readValue, skipped]
  | @object inner members spelled =>
    simp only [List.length_cons, List.length_append] at enough
    have membersRead := spelled.read (by omega : 2 * inner.length ≤ fuel) rest
    obtain ⟨others, skipped⟩ := spelled.skipBlanks_append ('\x7d' :: rest)
    rw [← readMembers_skipBlanks, skipped] at membersRead
    simp [readValue, skipped, membersRead]
termination_by (fuel, 0)

theorem Document.read {text : List Char} {value : Json} (spelled : Document text value) {fuel : Nat}
    (enough : 2 * text.length ≤ fuel + 1) {rest : List Char} (ends : EndsDocument rest) :
    ∃ behind, readValue fuel (skipBlanks (text ++ rest)) = some (value, behind) ∧ skipBlanks behind = rest := by
  cases spelled with
  | @mk before inner after _ isBefore spelled isAfter =>
    refine ⟨after ++ rest, ?_, skipBlanks_append isAfter ends.startsSolid⟩
    rw [List.append_assoc, List.append_assoc, Json.skipBlanks_append isBefore (spelled.startsSolid_append _)]
    simp only [List.length_append] at enough
    exact spelled.read (by omega) (isAfter.endsNumber_append ends.endsNumber)
termination_by (fuel, 1)

theorem Items.read {text : List Char} {items : List Json} (spelled : Items text items) {fuel : Nat}
    (enough : 2 * text.length ≤ fuel) (rest : List Char) :
    readItems fuel (text ++ ']' :: rest) = some (items, rest) := by
  obtain ⟨fuel, rfl⟩ := exists_eq_succ_of_enough spelled.ne_nil (Nat.le_succ_of_le enough)
  cases spelled with
  | last spelled =>
    have ends : EndsDocument (']' :: rest) := endsDocument_cons (by decide) rest
    obtain ⟨behind, itemRead, skipped⟩ := spelled.read enough ends
    simp [readItems, itemRead, skipped]
  | @cons first others _ _ spelled laterSpelled =>
    simp only [List.length_cons, List.length_append] at enough
    have ends : EndsDocument (',' :: (others ++ ']' :: rest)) := endsDocument_cons (by decide) _
    obtain ⟨behind, itemRead, skipped⟩ := spelled.read (by omega : 2 * first.length ≤ fuel + 1) ends
    have laterRead := laterSpelled.read (by omega : 2 * others.length ≤ fuel) rest
    simp [readItems, itemRead, skipped, laterRead]
termination_by (fuel, 0)

theorem Member.read {text : List Char} {member : String × Json} (spelled : Member text member) {fuel : Nat}
    (enough : 2 * text.length ≤ fuel + 1) {rest : List Char} (ends : EndsDocument rest) :
    ∃ behindKey behind, readKey (text ++ rest) = some (member.1, behindKey) ∧
      readValue fuel (skipBlanks behindKey) = some (member.2, behind) ∧ skipBlanks behind = rest := by
  cases spelled with
  | @mk _ _ _ _ inner _ isBefore keySpelled isAfter spelled =>
    simp only [List.length_cons, List.length_append] at enough
    obtain ⟨behind, valueRead, skipped⟩ := spelled.read (by omega : 2 * inner.length ≤ fuel + 1) ends
    have keyRead := readKey_append isBefore keySpelled isAfter (inner ++ rest)
    exact ⟨inner ++ rest, behind, by simpa using keyRead, valueRead, skipped⟩
termination_by (fuel, 2)

theorem Members.read {text : List Char} {members : List (String × Json)} (spelled : Members text members) {fuel : Nat}
    (enough : 2 * text.length ≤ fuel) (rest : List Char) :
    readMembers fuel (text ++ '\x7d' :: rest) = some (members, rest) := by
  obtain ⟨fuel, rfl⟩ := exists_eq_succ_of_enough spelled.ne_nil (Nat.le_succ_of_le enough)
  cases spelled with
  | last spelled =>
    have ends : EndsDocument ('\x7d' :: rest) := endsDocument_cons (by decide) rest
    obtain ⟨behindKey, behind, keyRead, valueRead, skipped⟩ := spelled.read enough ends
    simp [readMembers, keyRead, valueRead, skipped]
  | @cons first others _ _ spelled laterSpelled =>
    simp only [List.length_cons, List.length_append] at enough
    have ends : EndsDocument (',' :: (others ++ '\x7d' :: rest)) := endsDocument_cons (by decide) _
    obtain ⟨behindKey, behind, keyRead, valueRead, skipped⟩ :=
      spelled.read (by omega : 2 * first.length ≤ fuel + 1) ends
    have laterRead := laterSpelled.read (by omega : 2 * others.length ≤ fuel) rest
    simp [readMembers, keyRead, valueRead, skipped, laterRead]
termination_by (fuel, 0)
end

theorem read?_ofList {text : List Char} {value : Json} (spelled : Document text value) :
    read? (.ofList text) = some value := by
  have enough : 2 * text.length ≤ 2 * text.length + 1 + 1 := by omega
  obtain ⟨behind, valueRead, skipped⟩ := spelled.read enough endsDocument_nil
  rw [List.append_nil] at valueRead
  simp [read?, valueRead, skipped]

theorem Document.unique {text : List Char} {value other : Json} (spelled : Document text value)
    (otherSpelled : Document text other) : value = other :=
  Option.some.inj ((read?_ofList spelled).symm.trans (read?_ofList otherSpelled))

/-! ## Repeated keys -/

theorem settleItems_eq_self {items : List Json} (settled : ∀ item ∈ items, item.settle = item) :
    settleItems items = items := by
  induction items with
  | nil => rfl
  | cons item items inductionHypothesis =>
    rw [List.forall_mem_cons] at settled
    rw [settleItems, settled.1, inductionHypothesis settled.2]

theorem consMember_eq_cons {key : String} {members : List (String × Json)} (absent : key ∉ members.map Prod.fst)
    (value : Json) : consMember key value members = (key, value) :: members := by
  have notFound : members.lookup key = none := by
    rw [List.lookup_eq_none_iff]
    intro member isMember
    have noKey : key ≠ member.1 := by
      rintro rfl
      exact absent (List.mem_map_of_mem isMember)
    simp [noKey]
  rw [consMember, notFound]

theorem settleMembers_eq_self {members : List (String × Json)} (distinct : (members.map Prod.fst).Nodup)
    (settled : ∀ member ∈ members, member.2.settle = member.2) : settleMembers members = members := by
  induction members with
  | nil => rfl
  | cons member members inductionHypothesis =>
    obtain ⟨key, value⟩ := member
    rw [List.map_cons, List.nodup_cons] at distinct
    rw [List.forall_mem_cons] at settled
    rw [settleMembers, settled.1, inductionHypothesis distinct.2 settled.2, consMember_eq_cons distinct.1]

end MethodSignatures.Json
