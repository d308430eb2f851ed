import MethodSignatures.Text.Reader

/-! # Lists of members

Members with separators between them are read in turns: a member first, then a separator and a member in each turn. The
list ends where no separator and member follow. A turn that takes nothing off the text is refused, since the next one
would be no different; any other leaves a shorter text (`Listing.length_rest_lt`), so that the turns come to an end.
`Listing.Ends` says where they do.
-/

namespace MethodSignatures.Text

/-- The members read so far, in order, and the text that remains. -/
structure Listing (α : Type) where
  members : List α
  rest : List Char

/-- What a turn comes to. -/
inductive Turn (α : Type) where
  | ended
  | next (listing : Listing α)
  | refused (fault : ReadFault)

namespace Listing

variable {α β : Type} (separator : Reader β) (member : Reader α)

/-- Takes a separator and the member behind it. Where one of them is missing, both are left and the list has ended. -/
def turn (listing : Listing α) : Turn α :=
  match separator.read listing.rest with
  | .error _ => .ended
  | .ok (_, behind) =>
    match member.read behind with
    | .error _ => .ended
    | .ok (found, rest) =>
      if rest.length = listing.rest.length then .refused (.standstill listing.rest)
      else .next { members := listing.members ++ [found], rest }

variable {separator member} {listing following last : Listing α}

theorem isSuffix_and_length_ne_of_turn (turned : listing.turn separator member = .next following) :
    following.rest <:+ listing.rest ∧ following.rest.length ≠ listing.rest.length := by
  rw [turn] at turned
  split at turned
  · cases turned
  next behind separatorRead =>
    split at turned
    · cases turned
    next found rest memberRead =>
      split at turned
      · cases turned
      next shorter =>
        obtain rfl := Turn.next.inj turned
        exact ⟨(member.isSuffix_of_read memberRead).trans (separator.isSuffix_of_read separatorRead), shorter⟩

theorem length_rest_lt (turned : listing.turn separator member = .next following) :
    following.rest.length < listing.rest.length := by
  obtain ⟨isSuffix, shorter⟩ := isSuffix_and_length_ne_of_turn turned
  exact Nat.lt_of_le_of_ne isSuffix.length_le shorter

variable (separator member) in
/-- Takes turns until one of them is the last. -/
-- Semireducible, so that the reading of a given text can be computed in a proof.
@[semireducible]
def run (listing : Listing α) : Except ReadFault (List α × List Char) :=
  match _turned : listing.turn separator member with
  | .ended => .ok (listing.members, listing.rest)
  | .refused fault => .error fault
  | .next following => run following
termination_by listing.rest.length
decreasing_by exact length_rest_lt ‹_›

variable (separator member) in
/-- From `listing` on, finitely many turns lead to `last`, and the list ends there. -/
inductive Ends : (listing last : Listing α) → Prop where
  | here {listing : Listing α} (turned : listing.turn separator member = .ended) : Ends listing listing
  | later {listing following last : Listing α} (turned : listing.turn separator member = .next following)
      (ends : Ends following last) : Ends listing last

theorem run_eq : listing.run separator member =
    match listing.turn separator member with
    | .ended => .ok (listing.members, listing.rest)
    | .refused fault => .error fault
    | .next following => following.run separator member := by
  rw [run]
  cases listing.turn separator member <;> rfl

theorem Ends.run_eq_ok (ends : Ends separator member listing last) :
    listing.run separator member = .ok (last.members, last.rest) := by
  induction ends with
  | here turned => rw [run_eq, turned]
  | later turned _ inductionHypothesis =>
    rw [run_eq, turned]
    exact inductionHypothesis

theorem ends_of_run_eq_ok {members : List α} {rest : List Char}
    (ran : listing.run separator member = .ok (members, rest)) : Ends separator member listing ⟨members, rest⟩ := by
  induction listing using run.induct separator member with
  | case1 listing turned =>
    rw [run_eq, turned] at ran
    obtain ⟨rfl, rfl⟩ := Prod.mk.inj (Except.ok.inj ran)
    exact .here turned
  | case2 listing fault turned =>
    rw [run_eq, turned] at ran
    cases ran
  | case3 listing following turned inductionHypothesis =>
    rw [run_eq, turned] at ran
    exact .later turned (inductionHypothesis ran)

theorem Ends.isSuffix (ends : Ends separator member listing last) : last.rest <:+ listing.rest := by
  induction ends with
  | here => exact List.suffix_rfl
  | later turned _ inductionHypothesis => exact inductionHypothesis.trans (isSuffix_and_length_ne_of_turn turned).1

end Listing

/-- Reads members with separators between them. There has to be at least one member. -/
def Reader.list {α β : Type} (separator : Reader β) (member : Reader α) : Reader (List α) where
  read text :=
    match member.read text with
    | .error fault => .error fault
    | .ok (first, rest) => Listing.run separator member { members := [first], rest }
  isSuffix_of_read := by
    intro text rest found read
    split at read
    · cases read
    next first behind readFirst =>
      exact (Listing.ends_of_run_eq_ok read).isSuffix.trans (member.isSuffix_of_read readFirst)

theorem Reader.read_list {α β : Type} {separator : Reader β} {member : Reader α} {text rest : List Char} {first : α}
    {last : Listing α} (readFirst : member.read text = .ok (first, rest))
    (ends : Listing.Ends separator member ⟨[first], rest⟩ last) :
    (Reader.list separator member).read text = .ok (last.members, last.rest) := by
  simp only [Reader.list, readFirst, ends.run_eq_ok]

end MethodSignatures.Text
