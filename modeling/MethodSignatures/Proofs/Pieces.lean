import MethodSignatures.Text.Pieces

/-! # Reading the pieces of a list

A turn of `Reader.pieces` takes a separator and the piece behind it, up to the next separator, and none is refused
(`Listing.ReadsPieces.turn`). So the turns lead to the end of the text, where the list ends too
(`Listing.ReadsPieces.exists_ends`), and reading gives all of its pieces (`Reader.read_pieces`).
-/

namespace MethodSignatures.Text

/-- The reader of a piece takes what it can: it is stopped by a separator or by the end of the text. -/
theorem Reader.exists_read_piece (text : List Char) : ∃ piece rest, Reader.piece.read text = .ok (piece, rest) ∧
    text = piece ++ rest ∧ ¬ separator <:+: piece ∧ (rest = [] ∨ separator <+: rest) := by
  cases cut : cutBefore? separator text with
  | some parts =>
    obtain ⟨piece, rest⟩ := parts
    obtain ⟨rfl, begins⟩ := append_of_cutBefore? cut
    refine ⟨piece, rest, ?_, rfl, not_infix_of_cutBefore? (by simp [separator]) cut, .inr begins⟩
    simp only [Reader.piece, Reader.orElse, Reader.upTo, cut]
  | none =>
    refine ⟨text, [], ?_, by simp, not_infix_of_cutBefore?_eq_none cut, .inl rfl⟩
    simp only [Reader.piece, Reader.orElse, Reader.upTo, cut, Reader.remainder]

/-! ## Turns -/

namespace Listing

/-- The pieces read so far and what remains make up `text`, and it is cut between them at a separator. -/
structure ReadsPieces (text : List Char) (listing : Listing (List Char)) : Prop where
  nonempty : listing.members ≠ []
  text_eq : joined listing.members ++ listing.rest = text
  noSeparator : ∀ piece ∈ listing.members, ¬ separator <:+: piece
  boundary : listing.rest = [] ∨ separator <+: listing.rest

theorem readsPieces_first {text first rest : List Char} (text_eq : text = first ++ rest)
    (noSeparator : ¬ separator <:+: first) (boundary : rest = [] ∨ separator <+: rest) :
    ReadsPieces text ⟨[first], rest⟩ where
  nonempty := by simp
  text_eq := by simp [joined, List.intercalate, text_eq]
  noSeparator := by simpa using noSeparator
  boundary := boundary

theorem ReadsPieces.append {text piece rest : List Char} {listing : Listing (List Char)}
    (reads : ReadsPieces text listing) (restEq : listing.rest = separator ++ (piece ++ rest))
    (noSeparator : ¬ separator <:+: piece) (boundary : rest = [] ∨ separator <+: rest) :
    ReadsPieces text ⟨listing.members ++ [piece], rest⟩ where
  nonempty := by simp
  text_eq := by
    calc joined (listing.members ++ [piece]) ++ rest
        = joined listing.members ++ (separator ++ (piece ++ rest)) := by
          rw [joined_append reads.nonempty (by simp)]
          simp [joined, List.intercalate]
      _ = text := by rw [← restEq, reads.text_eq]
  noSeparator := by
    intro other member
    rcases List.mem_append.1 member with earlier | new
    · exact reads.noSeparator other earlier
    · rw [List.mem_singleton.1 new]
      exact noSeparator
  boundary := boundary

/-- One turn: the list ends at the end of the text, and grows by a piece everywhere else. -/
theorem ReadsPieces.turn {text : List Char} {listing : Listing (List Char)} (reads : ReadsPieces text listing) :
    (listing.rest = [] ∧ listing.turn (.mark separator) .piece = .ended) ∨
      ∃ following, listing.turn (.mark separator) .piece = .next following ∧ ReadsPieces text following := by
  rcases reads.boundary with atEnd | begins
  · left
    have noMark : (Reader.mark separator).read listing.rest = .error (.noMark listing.rest) :=
      Reader.read_mark_of_not_prefix (by simp [atEnd, separator])
    exact ⟨atEnd, by simp only [Listing.turn, noMark]⟩
  · right
    obtain ⟨behind, restEq⟩ := begins
    obtain ⟨piece, rest, pieceRead, rfl, noSeparator, boundary⟩ := Reader.exists_read_piece behind
    have separatorRead : (Reader.mark separator).read listing.rest = .ok (separator, piece ++ rest) := by
      rw [← restEq, Reader.read_mark_append]
    -- The separator alone makes what remains shorter, also where the piece behind it is empty.
    have shorter : ¬ rest.length = listing.rest.length := by
      rw [← restEq]
      simp only [separator, List.length_append, List.length_cons, List.length_nil]
      omega
    refine ⟨⟨listing.members ++ [piece], rest⟩, ?_, reads.append restEq.symm noSeparator boundary⟩
    simp only [Listing.turn, separatorRead, pieceRead, shorter, if_false]

/-- All turns: they come to an end, and there the whole text has been read. -/
theorem ReadsPieces.exists_ends {text : List Char} {listing : Listing (List Char)} (reads : ReadsPieces text listing) :
    ∃ parts, Ends (.mark separator) .piece listing ⟨parts, []⟩ ∧ ReadsPieces text ⟨parts, []⟩ := by
  rcases reads.turn with ⟨atEnd, turned⟩ | ⟨following, turned, readsNext⟩
  · obtain ⟨parts, rest⟩ := listing
    obtain rfl : rest = [] := atEnd
    exact ⟨parts, .here turned, reads⟩
  · obtain ⟨parts, ends, readsAll⟩ := readsNext.exists_ends
    exact ⟨parts, .later turned ends, readsAll⟩
termination_by listing.rest.length
decreasing_by exact length_rest_lt turned

end Listing

/-! ## The whole list -/

/-- The turns that follow the first piece end with all pieces of the text. -/
theorem exists_ends_pieces (text : List Char) : ∃ first rest, Reader.piece.read text = .ok (first, rest) ∧
    Listing.Ends (.mark separator) .piece ⟨[first], rest⟩ ⟨pieces text, []⟩ := by
  obtain ⟨first, rest, firstRead, textEq, noSeparator, boundary⟩ := Reader.exists_read_piece text
  obtain ⟨parts, ends, reads⟩ := (Listing.readsPieces_first textEq noSeparator boundary).exists_ends
  have joinedEq : joined parts = text := by simpa using reads.text_eq
  have piecesEq : pieces text = parts := by
    rw [← joinedEq]
    exact pieces_joined reads.nonempty reads.noSeparator
  exact ⟨first, rest, firstRead, piecesEq ▸ ends⟩

theorem Reader.read_pieces (text : List Char) : Reader.pieces.read text = .ok (Text.pieces text, []) := by
  obtain ⟨first, rest, firstRead, ends⟩ := exists_ends_pieces text
  exact Reader.read_list firstRead ends

end MethodSignatures.Text
