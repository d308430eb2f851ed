import Mathlib.Data.List.Basic
import Mathlib.Data.List.Forall2
import MethodSignatures.Argument.List
import MethodSignatures.Proofs.Pieces
import MethodSignatures.Signature.Layout

/-! # Reading arguments

`Argument.Fills` relates an argument to the piece of text that writes it. The readers of one argument and of
a list of pieces are exact for it: `Argument.front_eq_ok_iff`, `Argument.ofPieces_eq_ok_iff` and
`Argument.ofPieces_eq_error_iff`. `Argument.readList_eq_ok_iff` joins them to the cut at separators, which never
fails (`Argument.exists_refused_of_readList`).
-/

namespace MethodSignatures

namespace Text

/-- `parts` is what remains of `text` when every separator is taken out. -/
structure IsCut (text : List Char) (parts : List (List Char)) : Prop where
  nonempty : parts ≠ []
  joined_eq : joined parts = text
  noSeparator : ∀ part ∈ parts, ¬ separator <:+: part

theorem isCut_iff {text : List Char} {parts : List (List Char)} : IsCut text parts ↔ parts = pieces text := by
  constructor
  · rintro ⟨nonempty, rfl, noSeparator⟩
    exact (pieces_joined nonempty noSeparator).symm
  · rintro rfl
    exact ⟨pieces_ne_nil text, joined_pieces text, fun _ => not_separator_infix_of_mem_pieces⟩

/-- A run up to a mark ends where the mark stands, or with the text. -/
theorem span_ne_append {mark : Char} {front rest : List Char} (absent : mark ∉ front)
    (boundary : ∀ c ∈ rest.head?, c = mark) :
    (front ++ rest).takeWhile (· ≠ mark) = front ∧ (front ++ rest).dropWhile (· ≠ mark) = rest := by
  induction front with
  | nil => cases rest <;> simp_all
  | cons c front inductionHypothesis =>
    simp only [List.mem_cons, not_or] at absent
    simpa [Ne.symm absent.1] using inductionHypothesis absent.2

/-- Text that begins with no word: a space stands first, or nothing. -/
def StartsNoWord (text : List Char) : Prop :=
  ∀ c ∈ text.head?, c = ' '

instance (text : List Char) : Decidable (StartsNoWord text) :=
  Option.decidableForallMem text.head?

theorem startsNoWord_nil : StartsNoWord [] := by
  simp [StartsNoWord]

theorem startsNoWord_space (rest : List Char) : StartsNoWord (' ' :: rest) := by
  simp [StartsNoWord]

theorem startsNoWord_iff {text : List Char} : StartsNoWord text ↔ text = [] ∨ ∃ rest, text = ' ' :: rest := by
  cases text with
  | nil => simp [StartsNoWord]
  | cons c rest => simp [StartsNoWord]

theorem startsNoWord_iff_takeWhile {text : List Char} :
    StartsNoWord text ↔ text.takeWhile (· ≠ ' ') = [] := by
  cases text with
  | nil => simp [StartsNoWord]
  | cons c rest => by_cases isSpace : c = ' ' <;> simp [StartsNoWord, isSpace]

end Text

namespace Argument

def spell (argument : Argument) : List Char :=
  argument.type.toList ++ ' ' :: argument.name.toList

/-- `piece` writes `argument`: two words with one space between them. -/
structure Fills (argument : Argument) (piece : List Char) : Prop where
  type_isWord : Text.IsWord argument.type.toList
  name_isWord : Text.IsWord argument.name.toList
  piece_eq : piece = argument.spell

/-- Some argument fills the piece. -/
def Readable (piece : List Char) : Prop :=
  ∃ argument : Argument, argument.Fills piece

/-! ## Readers in sequence -/

section

variable {α β : Type} {first : Except Fault α} {next : α → Except Fault β}

/-- Two readers in sequence give what the second gives behind the first. -/
theorem bind_eq_ok_iff {result : β} :
    first >>= next = .ok result ↔ ∃ found, first = .ok found ∧ next found = .ok result := by
  cases first <;> simp [bind, Except.bind]

theorem bind_eq_error_iff {fault : Fault} :
    first >>= next = .error fault ↔
      first = .error fault ∨ ∃ found, first = .ok found ∧ next found = .error fault := by
  cases first <;> simp [bind, Except.bind]

end

/-! ## One argument -/

section

variable {text rest : List Char} {word : String} {fault : Fault}

/-- A token is a word that reaches up to a space or to the end. -/
theorem token_eq_ok_iff :
    token text = .ok (word, rest) ↔
      Text.IsWord word.toList ∧ text = word.toList ++ rest ∧ Text.StartsNoWord rest := by
  constructor
  · intro read
    unfold token at read
    dsimp only at read
    split at read
    · cases read
    next nonempty =>
      obtain ⟨rfl, rfl⟩ := Prod.mk.inj (Except.ok.inj read)
      rw [String.toList_ofList]
      refine ⟨⟨by simpa using nonempty, ?_⟩, List.takeWhile_append_dropWhile.symm, ?_⟩
      · intro member
        simpa using List.all_eq_true.1 List.all_takeWhile ' ' member
      · -- The word was taken up to a space, so what it leaves is empty or begins with one.
        intro c isFirst
        have stops := List.head?_dropWhile_not (· ≠ ' ') text
        simp_all
  · intro cut
    obtain ⟨⟨nonempty, noSpace⟩, rfl, startsNoWord⟩ := cut
    obtain ⟨taken, dropped⟩ := Text.span_ne_append noSpace startsNoWord
    simp only [token, taken, dropped, List.isEmpty_iff, nonempty, if_false, String.ofList_toList]

theorem token_eq_error_iff :
    token text = .error fault ↔ fault = .emptyToken (.ofList text) ∧ Text.StartsNoWord text := by
  rw [Text.startsNoWord_iff_takeWhile]
  by_cases wordless : text.takeWhile (· ≠ ' ') = []
  · simp only [token, wordless, List.isEmpty_nil, if_true, Except.error.injEq, and_true, eq_comm]
  · simp only [token, List.isEmpty_iff, wordless, if_false, reduceCtorEq, and_false]

theorem space_eq_ok_iff : space text = .ok rest ↔ text = ' ' :: rest := by
  unfold space
  split <;> simp_all

theorem space_eq_error_iff :
    space text = .error fault ↔ fault = .missingSpace (.ofList text) ∧ text.head? ≠ some ' ' := by
  cases text with
  | nil => simp [space, eq_comm]
  | cons c rest =>
    by_cases isSpace : c = ' '
    · simp [space, isSpace]
    · simp [space, isSpace, eq_comm]

/-- The first word is the type and the second the name; whatever follows begins with a space. -/
theorem front_eq_ok_iff {argument : Argument} :
    front text = .ok (argument, rest) ↔ Text.IsWord argument.type.toList ∧ Text.IsWord argument.name.toList ∧
      text = argument.type.toList ++ ' ' :: (argument.name.toList ++ rest) ∧ Text.StartsNoWord rest := by
  simp only [front, bind_eq_ok_iff, Prod.exists, token_eq_ok_iff, space_eq_ok_iff]
  constructor
  · intro read
    obtain ⟨type, behind, ⟨typeWord, rfl, _⟩, _, rfl, name, _, ⟨nameWord, rfl, startsNoWord⟩, found⟩ := read
    obtain ⟨rfl, rfl⟩ := Prod.mk.inj (Except.ok.inj found)
    exact ⟨typeWord, nameWord, rfl, startsNoWord⟩
  · intro words
    obtain ⟨typeWord, nameWord, rfl, startsNoWord⟩ := words
    exact ⟨_, _, ⟨typeWord, rfl, Text.startsNoWord_space _⟩, _, rfl, _, _, ⟨nameWord, rfl, startsNoWord⟩, rfl⟩

end

theorem parse_ofList_eq_ok_iff {piece : List Char} {argument : Argument} :
    parse (.ofList piece) = .ok argument ↔ argument.Fills piece := by
  rw [parse, parseFront, String.toList_ofList]
  constructor
  · intro parsed
    cases read : front piece with
    | error fault => simp [read, Except.map] at parsed
    | ok found =>
      obtain ⟨found, rest⟩ := found
      simp only [read, Except.map] at parsed
      split at parsed
      next exhausted =>
        obtain rfl := Except.ok.inj parsed
        obtain rfl : rest = [] := by simpa using exhausted
        obtain ⟨typeWord, nameWord, spelt, _⟩ := front_eq_ok_iff.1 read
        exact ⟨typeWord, nameWord, by simpa [spell] using spelt⟩
      · cases parsed
  · intro fills
    obtain ⟨typeWord, nameWord, rfl⟩ := fills
    have read : front argument.spell = .ok (argument, []) :=
      front_eq_ok_iff.2 ⟨typeWord, nameWord, by simp [spell], Text.startsNoWord_nil⟩
    simp [read, Except.map]

theorem exists_parse_eq_error_iff {piece : List Char} :
    (∃ fault, parse (.ofList piece) = .error fault) ↔ ¬ Readable piece := by
  constructor
  · rintro ⟨fault, failed⟩ ⟨argument, fills⟩
    rw [parse_ofList_eq_ok_iff.2 fills] at failed
    cases failed
  · intro unreadable
    cases parsed : parse (.ofList piece) with
    | error fault => exact ⟨fault, rfl⟩
    | ok argument => exact absurd ⟨argument, parse_ofList_eq_ok_iff.1 parsed⟩ unreadable

/-! ## Pieces in order -/

theorem ofPieces_eq_ok_iff {position : Nat} {pieces : List (List Char)} {arguments : List Argument} :
    ofPieces position pieces = .ok arguments ↔ List.Forall₂ Fills arguments pieces := by
  induction pieces generalizing position arguments with
  | nil => simp [ofPieces, eq_comm]
  | cons piece rest inductionHypothesis =>
    rw [List.forall₂_cons_right_iff]
    constructor
    · intro read
      cases parsed : parse (.ofList piece) with
      | error fault => simp [ofPieces, parsed] at read
      | ok argument =>
        cases readRest : ofPieces (position + 1) rest with
        | error refusal => simp [ofPieces, parsed, readRest] at read
        | ok others =>
          simp only [ofPieces, parsed, readRest, Except.ok.injEq] at read
          exact ⟨argument, others, parse_ofList_eq_ok_iff.1 parsed, inductionHypothesis.1 readRest, read.symm⟩
    · intro filled
      obtain ⟨argument, others, fills, othersFill, rfl⟩ := filled
      simp only [ofPieces, parse_ofList_eq_ok_iff.2 fills, inductionHypothesis.2 othersFill]

theorem exists_fills_iff_readable {pieces : List (List Char)} :
    (∃ arguments, List.Forall₂ Fills arguments pieces) ↔ ∀ piece ∈ pieces, Readable piece := by
  induction pieces with
  | nil => simp
  | cons piece rest inductionHypothesis =>
    simp only [List.forall₂_cons_right_iff, List.forall_mem_cons, ← inductionHypothesis]
    constructor
    · rintro ⟨_, argument, others, fills, othersFill, rfl⟩
      exact ⟨⟨argument, fills⟩, others, othersFill⟩
    · rintro ⟨⟨argument, fills⟩, others, othersFill⟩
      exact ⟨argument :: others, argument, others, fills, othersFill, rfl⟩

/-- `piece` stands at `index` and is the first of `pieces` that no argument fills. -/
structure FirstUnreadable (pieces : List (List Char)) (index : Nat) (piece : List Char) : Prop where
  at_index : pieces[index]? = some piece
  unreadable : ¬ Readable piece
  readable_before : ∀ earlier ∈ pieces.take index, Readable earlier

theorem firstUnreadable_cons_of_unreadable {piece : List Char} {rest : List (List Char)} (unreadable : ¬ Readable piece)
    {index : Nat} {found : List Char} :
    FirstUnreadable (piece :: rest) index found ↔ index = 0 ∧ found = piece := by
  constructor
  · intro first
    cases index with
    | zero => exact ⟨rfl, by simpa [eq_comm] using first.at_index⟩
    | succ index => exact absurd (first.readable_before piece (by simp)) unreadable
  · rintro ⟨rfl, rfl⟩
    exact ⟨rfl, unreadable, by simp⟩

theorem firstUnreadable_cons_of_readable {piece : List Char} {rest : List (List Char)} (readable : Readable piece)
    {index : Nat} {found : List Char} :
    FirstUnreadable (piece :: rest) index found ↔ ∃ later, index = later + 1 ∧ FirstUnreadable rest later found := by
  constructor
  · intro first
    obtain ⟨atIndex, unreadable, before⟩ := first
    cases index with
    | zero =>
      obtain rfl : piece = found := by simpa using atIndex
      exact absurd readable unreadable
    | succ index =>
      exact ⟨index, rfl, by simpa using atIndex, unreadable, fun earlier member => before earlier (by simp [member])⟩
  · intro shifted
    obtain ⟨later, rfl, atIndex, unreadable, before⟩ := shifted
    refine ⟨by simpa using atIndex, unreadable, ?_⟩
    intro earlier member
    rcases List.mem_cons.1 member with rfl | member
    · exact readable
    · exact before earlier member

/-- A refusal counts from the place of the first piece. -/
theorem ofPieces_eq_error_iff {position : Nat} {pieces : List (List Char)} {refusal : Refusal} :
    ofPieces position pieces = .error refusal ↔ ∃ index, refusal.position = position + index ∧
      FirstUnreadable pieces index refusal.text.toList := by
  induction pieces generalizing position with
  | nil =>
    constructor
    · intro read
      cases read
    · rintro ⟨index, _, atIndex, _⟩
      simp at atIndex
  | cons piece rest inductionHypothesis =>
    cases parsed : parse (.ofList piece) with
    | error fault =>
      have unreadable : ¬ Readable piece := exists_parse_eq_error_iff.1 ⟨fault, parsed⟩
      simp only [ofPieces, parsed, Except.error.injEq, firstUnreadable_cons_of_unreadable unreadable]
      obtain ⟨refusedAt, text⟩ := refusal
      constructor
      · intro same
        obtain ⟨rfl, rfl⟩ := Refusal.mk.inj same
        exact ⟨0, rfl, rfl, String.toList_ofList⟩
      · rintro ⟨_, rfl, rfl, found⟩
        rw [← found, String.ofList_toList, Nat.add_zero]
    | ok argument =>
      -- The rest is read from the next place, so that an index into it grows by one.
      have readsRest : ofPieces position (piece :: rest) = .error refusal ↔
          ofPieces (position + 1) rest = .error refusal := by
        cases readRest : ofPieces (position + 1) rest <;> simp [ofPieces, parsed, readRest]
      rw [readsRest, inductionHypothesis]
      simp only [firstUnreadable_cons_of_readable ⟨argument, parse_ofList_eq_ok_iff.1 parsed⟩]
      constructor
      · rintro ⟨index, place, first⟩
        exact ⟨index + 1, by omega, index, rfl, first⟩
      · rintro ⟨_, place, index, rfl, first⟩
        exact ⟨index, by omega, first⟩

/-! ## Lists -/

theorem Fills.separator_infix_iff {argument : Argument} {piece : List Char} (fills : argument.Fills piece) :
    Text.separator <:+: piece ↔ argument.type.toList.getLast? = some ',' := by
  obtain ⟨⟨_, typeNoSpace⟩, ⟨_, nameNoSpace⟩, rfl⟩ := fills
  constructor
  · intro isInfix
    obtain ⟨before, after, found⟩ := isInfix
    -- The piece has one space, so the space of the separator is that one.
    have aligned : (before ++ [',']) ++ ' ' :: after = argument.type.toList ++ ' ' :: argument.name.toList := by
      simpa [Text.separator, spell] using found
    have sameSplit := (List.append_cons_inj_of_notMem typeNoSpace nameNoSpace).1 aligned.symm
    rw [sameSplit.1, List.getLast?_concat]
  · intro endsInComma
    obtain ⟨before, typeEq⟩ := List.getLast?_eq_some_iff.1 endsInComma
    exact ⟨before, argument.name.toList, by simp [typeEq, Text.separator, spell]⟩

theorem Fills.wellFormed {argument : Argument} {piece : List Char} (fills : argument.Fills piece)
    (noSeparator : ¬ Text.separator <:+: piece) : argument.WellFormed where
  type_isWord := fills.type_isWord
  name_isWord := fills.name_isWord
  type_noComma := fun endsInComma => noSeparator (fills.separator_infix_iff.2 endsInComma)

theorem WellFormed.fills {argument : Argument} (wellFormed : argument.WellFormed) :
    argument.Fills argument.spell :=
  ⟨wellFormed.type_isWord, wellFormed.name_isWord, rfl⟩

theorem eq_map_spell_of_fills {arguments : List Argument} {pieces : List (List Char)}
    (filled : List.Forall₂ Fills arguments pieces) : pieces = arguments.map spell := by
  induction filled with
  | nil => rfl
  | cons fills _ inductionHypothesis => rw [List.map_cons, ← inductionHypothesis, fills.piece_eq]

theorem wellFormed_of_fills {arguments : List Argument} {pieces : List (List Char)}
    (filled : List.Forall₂ Fills arguments pieces) (noSeparator : ∀ piece ∈ pieces, ¬ Text.separator <:+: piece) :
    ∀ argument ∈ arguments, argument.WellFormed := by
  induction filled with
  | nil => simp
  | cons fills _ inductionHypothesis =>
    intro argument member
    rcases List.mem_cons.1 member with rfl | member
    · exact fills.wellFormed (noSeparator _ (by simp))
    · exact inductionHypothesis (fun piece later => noSeparator piece (by simp [later])) argument member

theorem isCut_spellArguments {arguments : List Argument} (nonempty : arguments ≠ [])
    (wellFormed : ∀ argument ∈ arguments, argument.WellFormed) :
    Text.IsCut (Signature.spellArguments arguments) (arguments.map spell) where
  nonempty := by simpa using nonempty
  joined_eq := rfl
  noSeparator := by
    intro piece isPiece
    obtain ⟨argument, member, rfl⟩ := List.mem_map.1 isPiece
    rw [(wellFormed argument member).fills.separator_infix_iff]
    exact (wellFormed argument member).type_noComma

theorem spellArguments_ne_nil {arguments : List Argument} (nonempty : arguments ≠ []) :
    Signature.spellArguments arguments ≠ [] := by
  cases arguments with
  | nil => exact absurd rfl nonempty
  | cons argument rest => cases rest <;> simp [Signature.spellArguments, Text.joined, List.intercalate]

theorem readList_of_ne_nil {text : List Char} (nonempty : text ≠ []) :
    readList text = (ofPieces 0 (Text.pieces text)).mapError .refused := by
  rw [readList, if_neg (by simpa using nonempty), Text.Reader.read_pieces]

/-- Every text can be cut into pieces, so that only a piece is refused. -/
theorem exists_refused_of_readList {text : List Char} {fault : ListFault} (failed : readList text = .error fault) :
    ∃ refusal, fault = .refused refusal := by
  by_cases empty : text = []
  · subst empty
    cases failed
  · rw [readList_of_ne_nil empty] at failed
    cases read : ofPieces 0 (Text.pieces text) with
    | ok arguments => simp [read, Except.mapError] at failed
    | error refusal =>
      rw [read] at failed
      exact ⟨refusal, (Except.error.inj failed).symm⟩

theorem parseList_nil : parseList [] = .ok [] := rfl

theorem parseList_of_ne_nil {text : List Char} (nonempty : text ≠ []) :
    parseList text = ofPieces 0 (Text.pieces text) := by
  rw [parseList, readList_of_ne_nil nonempty]
  cases ofPieces 0 (Text.pieces text) <;> rfl

/-- A list is read from its own text and from no other, provided that its arguments are well formed. -/
theorem readList_eq_ok_iff {text : List Char} {arguments : List Argument} :
    readList text = .ok arguments ↔
      text = Signature.spellArguments arguments ∧ ∀ argument ∈ arguments, argument.WellFormed := by
  have reported : readList text = .ok arguments ↔ parseList text = .ok arguments := by
    rw [parseList]
    cases readList text <;> simp [Except.mapError]
  rw [reported]
  constructor
  · intro read
    -- The empty text is the list without arguments; cutting it would give one piece, which no argument fills.
    by_cases empty : text = []
    · subst empty
      obtain rfl := Except.ok.inj (parseList_nil.symm.trans read)
      exact ⟨rfl, by simp⟩
    · rw [parseList_of_ne_nil empty, ofPieces_eq_ok_iff] at read
      have cut : Text.IsCut text (Text.pieces text) := Text.isCut_iff.2 rfl
      refine ⟨?_, wellFormed_of_fills read cut.noSeparator⟩
      calc text = Text.joined (Text.pieces text) := cut.joined_eq.symm
        _ = Text.joined (arguments.map spell) := by rw [eq_map_spell_of_fills read]
  · intro spelled
    obtain ⟨rfl, wellFormed⟩ := spelled
    by_cases empty : arguments = []
    · subst empty
      exact parseList_nil
    · rw [parseList_of_ne_nil (spellArguments_ne_nil empty),
        ← Text.isCut_iff.1 (isCut_spellArguments empty wellFormed), ofPieces_eq_ok_iff,
        List.forall₂_map_right_iff, List.forall₂_same]
      exact fun argument member => (wellFormed argument member).fills

end Argument

end MethodSignatures
