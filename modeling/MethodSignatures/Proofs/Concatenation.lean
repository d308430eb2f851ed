import MethodSignatures.Proofs.Brackets
import MethodSignatures.Proofs.Records

/-! # Argument lists in a row

Two argument lists with a separator between them make one list. Its pieces are those of the first list and those of
the second, so that its reading is made of the readings of both (`Argument.parseList_append`): both lists are read, or
the first refusal is reported with its place in the whole. `Signature.parse_lists_in_a_row` lifts this to signatures
with equal fronts.
-/

namespace MethodSignatures

/-- The same piece, counted from `count` places further in front. -/
def Refusal.shift (count : Nat) (refusal : Refusal) : Refusal :=
  { refusal with position := count + refusal.position }

namespace Argument

/-! ## Pieces -/

theorem ofPieces_add (count position : Nat) (pieces : List (List Char)) :
    ofPieces (count + position) pieces = (ofPieces position pieces).mapError (Refusal.shift count) := by
  induction pieces generalizing position with
  | nil => rfl
  | cons piece rest inductionHypothesis =>
    cases parsed : parse (.ofList piece) with
    | error fault => simp only [ofPieces, parsed, Except.mapError, Refusal.shift]
    | ok argument =>
      have shifted := inductionHypothesis (position + 1)
      rw [← Nat.add_assoc] at shifted
      cases readRest : ofPieces (position + 1) rest with
      | error refusal => simp only [ofPieces, parsed, shifted, readRest, Except.mapError]
      | ok arguments => simp only [ofPieces, parsed, shifted, readRest, Except.mapError]

/-- Pieces in two groups are read one group after the other. -/
theorem ofPieces_append (position : Nat) (first second : List (List Char)) :
    ofPieces position (first ++ second) = (do
      let arguments ← ofPieces position first
      let others ← ofPieces (position + first.length) second
      return arguments ++ others) := by
  induction first generalizing position with
  | nil => cases readSecond : ofPieces position second <;> exact readSecond
  | cons piece rest inductionHypothesis =>
    have place : position + (piece :: rest).length = position + 1 + rest.length := by
      rw [List.length_cons]
      omega
    rw [List.cons_append, place]
    cases parsed : parse (.ofList piece) with
    | error fault =>
      simp only [ofPieces, parsed]
      rfl
    | ok argument =>
      simp only [ofPieces, parsed, inductionHypothesis]
      cases readRest : ofPieces (position + 1) rest with
      | error refusal => rfl
      | ok arguments => cases readSecond : ofPieces (position + 1 + rest.length) second <;> rfl

theorem length_of_ofPieces {position : Nat} {pieces : List (List Char)} {arguments : List Argument}
    (read : ofPieces position pieces = .ok arguments) : arguments.length = pieces.length :=
  (ofPieces_eq_ok_iff.1 read).length_eq

/-! ## Lists -/

/-- What is read from the text of two lists, in terms of what is read from each. -/
def joinReadings (first second : Except Refusal (List Argument)) : Except Refusal (List Argument) := do
  let arguments ← first
  let others ← second.mapError (Refusal.shift arguments.length)
  return arguments ++ others

/-- The second list may be empty here. It has one piece then, which is no argument. -/
theorem parseList_append {first second : List Char} (nonempty : first ≠ []) :
    parseList (first ++ Text.separator ++ second) =
      joinReadings (parseList first) (ofPieces 0 (Text.pieces second)) := by
  have bothNonempty : first ++ Text.separator ++ second ≠ [] := by simp [nonempty]
  rw [parseList_of_ne_nil bothNonempty, parseList_of_ne_nil nonempty, Text.pieces_append, ofPieces_append]
  cases readFirst : ofPieces 0 (Text.pieces first) with
  | error refusal => rfl
  | ok arguments =>
    -- Every piece of the first list has become an argument, so that counting goes on at their number.
    have place : 0 + (Text.pieces first).length = arguments.length + 0 := by
      rw [length_of_ofPieces readFirst, Nat.add_comm]
    rw [place, ofPieces_add]
    rfl

end Argument

namespace Signature

/-! ## Texts with equal fronts -/

theorem WellFormed.parse_of_spellFront {signature : Signature} {layout : Layout} {text : String} {inner : List Char}
    (wellFormed : signature.WellFormed) (admissible : layout.Admissible)
    (textEq : text.toList = signature.spellFront layout ++ '(' :: (inner ++ [')'])) :
    parse text = signature.withReading (Argument.parseList inner) := by
  have nameNonempty : signature.name.toList ++ layout.nameGap ≠ [] := by simp [wellFormed.name_isTrimmed.1]
  have headRead : Head.read text.toList = .ok { signature.spelledHead layout with
      rest := signature.name.toList ++ layout.nameGap ++ '(' :: (inner ++ [')']) } := by
    rw [textEq]
    exact Head.read_append (wellFormed.read_spellFront admissible) nameNonempty
  have bodyFills : Body.Fills ⟨signature.name, inner, []⟩ { layout with tail := [] }
      (signature.name.toList ++ layout.nameGap ++ '(' :: (inner ++ [')'])) :=
    ⟨admissible.nameGap_blank, by simp, rfl, wellFormed.name_isTrimmed, wellFormed.name_noOpening, rfl⟩
  rw [parse_eq_withReading headRead bodyFills.read]
  cases Argument.parseList inner <;> rfl

/-- A text that ends in empty brackets, and is read without arguments, spells its signature in front of them. -/
theorem exists_spellFront_of_parse {front : String} {bare : Signature} (parsed : parse (front ++ "()") = .ok bare)
    (noArguments : bare.arguments = []) :
    bare.WellFormed ∧ ∃ layout : Layout, layout.Admissible ∧ front.toList = bare.spellFront layout := by
  obtain ⟨wellFormed, layout, admissible, spelled⟩ := exists_spell_of_parse parsed
  refine ⟨wellFormed, layout, admissible, ?_⟩
  have spelledEmpty : front.toList ++ ['('] ++ ')' :: [] = bare.spellFront layout ++ ['('] ++ ')' :: layout.tail := by
    have bracketed : (front ++ "()").toList = front.toList ++ ['('] ++ ')' :: [] := by simp
    rw [← bracketed, spelled, spell_eq_spellFront, noArguments]
    simp [spellArguments, Text.joined, List.intercalate]
  -- The last closing bracket is at the end of the text, so that the layout has no tail.
  have closing := Text.cutLast?_eq_some_iff.2 ⟨spelledEmpty, admissible.tail_noClosing⟩
  rw [Text.cutLast?_eq_some_iff.2 ⟨rfl, by simp⟩] at closing
  exact List.append_cancel_right (Prod.mk.inj (Option.some.inj closing)).1

/-- Whatever stands between the brackets, the front is read as before. -/
theorem parse_bracketed {front : String} {bare : Signature} (parsed : parse (front ++ "()") = .ok bare)
    (noArguments : bare.arguments = []) (inner : String) :
    parse (front ++ "(" ++ inner ++ ")") = bare.withReading (Argument.parseList inner.toList) := by
  obtain ⟨wellFormed, layout, admissible, frontEq⟩ := exists_spellFront_of_parse parsed noArguments
  apply wellFormed.parse_of_spellFront admissible
  rw [← frontEq]
  simp

/-- Of two argument lists in a row the arguments are those of the first and then those of the second. If the first is
refused, so are both, whatever the second is; if only the second is refused, its place counts on behind the first. No
list in these brackets has another result. -/
theorem parse_lists_in_a_row {front : String} {bare : Signature} (parsed : parse (front ++ "()") = .ok bare)
    (noArguments : bare.arguments = []) {first second : String} (firstNonempty : first ≠ "")
    (secondNonempty : second ≠ "") :
    (∀ left right, parse (front ++ "(" ++ first ++ ")") = .ok left →
        parse (front ++ "(" ++ second ++ ")") = .ok right →
        parse (front ++ "(" ++ first ++ ", " ++ second ++ ")") =
          .ok { bare with arguments := left.arguments ++ right.arguments }) ∧
      (∀ position piece, parse (front ++ "(" ++ first ++ ")") = .error (.badArgument position piece) →
        ∀ other, parse (front ++ "(" ++ first ++ ", " ++ other ++ ")") = .error (.badArgument position piece)) ∧
      (∀ left position piece, parse (front ++ "(" ++ first ++ ")") = .ok left →
        parse (front ++ "(" ++ second ++ ")") = .error (.badArgument position piece) →
        parse (front ++ "(" ++ first ++ ", " ++ second ++ ")") =
          .error (.badArgument (left.arguments.length + position) piece)) ∧
      OutlineRead (parse (front ++ "(" ++ first ++ ")")) ∧ OutlineRead (parse (front ++ "(" ++ second ++ ")")) := by
  have nonempty : first.toList ≠ [] := by simpa using firstNonempty
  have otherNonempty : second.toList ≠ [] := by simpa using secondNonempty
  have parseBoth : ∀ other : String, parse (front ++ "(" ++ first ++ ", " ++ other ++ ")") =
      bare.withReading (Argument.joinReadings (Argument.parseList first.toList)
        (Argument.ofPieces 0 (Text.pieces other.toList))) := by
    intro other
    have regrouped : front ++ "(" ++ first ++ ", " ++ other ++ ")" =
        front ++ "(" ++ (first ++ ", " ++ other) ++ ")" := by
      simp only [String.append_assoc]
    have inner : (first ++ ", " ++ other).toList = first.toList ++ Text.separator ++ other.toList := by
      simp [Text.separator]
    rw [regrouped, parse_bracketed parsed noArguments, inner, Argument.parseList_append nonempty]
  rw [parse_bracketed parsed noArguments first, parse_bracketed parsed noArguments second, parseBoth second,
    ← Argument.parseList_of_ne_nil otherNonempty]
  refine ⟨?_, ?_, ?_, outlineRead_withReading _ _, outlineRead_withReading _ _⟩
  · intro left right leftParsed rightParsed
    obtain ⟨arguments, readFirst, rfl⟩ := withReading_eq_ok_iff.1 leftParsed
    obtain ⟨others, readSecond, rfl⟩ := withReading_eq_ok_iff.1 rightParsed
    rw [readFirst, readSecond]
    rfl
  · intro position piece leftRefused other
    have readFirst := withReading_eq_badArgument_iff.1 leftRefused
    rw [parseBoth other, readFirst]
    rfl
  · intro left position piece leftParsed rightRefused
    obtain ⟨arguments, readFirst, rfl⟩ := withReading_eq_ok_iff.1 leftParsed
    have readSecond := withReading_eq_badArgument_iff.1 rightRefused
    rw [readFirst, readSecond]
    rfl

/-- The comma that ends the first list makes no separator at the seam, and the bracket in the second list does not end
the whole one. -/
theorem parse_lists_in_a_row_comma :
    parse ("private Map f " ++ "()") = .ok ⟨some .priv, "Map", "f", []⟩ ∧
      parse ("private Map f " ++ "(" ++ "K,V a," ++ ")") = .ok ⟨some .priv, "Map", "f", [⟨"K,V", "a,"⟩]⟩ ∧
      parse ("private Map f " ++ "(" ++ "int b), c" ++ ")") = .error (.badArgument 1 "c") ∧
      parse ("private Map f " ++ "(" ++ "K,V a," ++ ", " ++ "int b), c" ++ ")") = .error (.badArgument 2 "c") := by
  have bare : parse ("private Map f " ++ "()") = .ok ⟨some .priv, "Map", "f", []⟩ := by rfl
  have first : parse ("private Map f " ++ "(" ++ "K,V a," ++ ")") =
      .ok ⟨some .priv, "Map", "f", [⟨"K,V", "a,"⟩]⟩ := by rfl
  have second : parse ("private Map f " ++ "(" ++ "int b), c" ++ ")") = .error (.badArgument 1 "c") := by rfl
  obtain ⟨_, _, secondRefused, _⟩ :=
    @parse_lists_in_a_row _ _ bare rfl "K,V a," "int b), c" (by decide) (by decide)
  exact ⟨bare, first, second, secondRefused _ _ _ first second⟩

end Signature

end MethodSignatures
