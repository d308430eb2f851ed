/-! # Readers

A reader takes something off the front of a text, or says why it does not. What it leaves is always the end of the text,
so that reading cannot make a text longer. Readers are put together: `orElse` tries one after another, and
`Text.Listing` repeats them.
-/

namespace MethodSignatures.Text

/-- Why nothing was read, and in front of which text. -/
inductive ReadFault where
  /-- `rest` does not begin with the mark. -/
  | noMark (rest : List Char)
  /-- The mark stands nowhere in `rest`. -/
  | noMarkAhead (rest : List Char)
  /-- A separator and a member were found in front of `rest`, and yet nothing was taken off it. -/
  | standstill (rest : List Char)
deriving DecidableEq

structure Reader (α : Type) where
  read : List Char → Except ReadFault (α × List Char)
  isSuffix_of_read : ∀ {text rest : List Char} {found : α}, read text = .ok (found, rest) → rest <:+ text

/-- What stands in front of the first `mark`, and the text that begins with it. -/
def cutBefore? (mark : List Char) : List Char → Option (List Char × List Char)
  | [] => if mark.isEmpty then some ([], []) else none
  | c :: rest =>
    if mark.isPrefixOf (c :: rest) then some ([], c :: rest)
    else (cutBefore? mark rest).map fun (before, after) => (c :: before, after)

theorem append_of_cutBefore? {mark text before after : List Char} (cut : cutBefore? mark text = some (before, after)) :
    text = before ++ after ∧ mark <+: after := by
  fun_induction cutBefore? mark text generalizing before with
  | case1 empty =>
    obtain ⟨rfl, rfl⟩ := Prod.mk.inj (Option.some.inj cut)
    exact ⟨rfl, List.isEmpty_iff.1 empty ▸ List.nil_prefix⟩
  | case2 => cases cut
  | case3 c rest isPrefix =>
    obtain ⟨rfl, rfl⟩ := Prod.mk.inj (Option.some.inj cut)
    exact ⟨rfl, List.isPrefixOf_iff_prefix.1 isPrefix⟩
  | case4 c rest _ inductionHypothesis =>
    obtain ⟨⟨tail, behind⟩, cutRest, same⟩ := Option.map_eq_some_iff.1 cut
    obtain ⟨rfl, rfl⟩ := Prod.mk.inj same
    obtain ⟨rfl, begins⟩ := inductionHypothesis cutRest
    exact ⟨rfl, begins⟩

/-- The cut is made at the first mark: none stands in front of it. -/
theorem not_infix_of_cutBefore? {mark text before after : List Char} (nonempty : mark ≠ [])
    (cut : cutBefore? mark text = some (before, after)) : ¬ mark <:+: before := by
  fun_induction cutBefore? mark text generalizing before with
  | case1 empty => exact absurd (List.isEmpty_iff.1 empty) nonempty
  | case2 => cases cut
  | case3 c rest _ =>
    obtain ⟨rfl, rfl⟩ := Prod.mk.inj (Option.some.inj cut)
    simpa using nonempty
  | case4 c rest noPrefix inductionHypothesis =>
    obtain ⟨⟨tail, behind⟩, cutRest, same⟩ := Option.map_eq_some_iff.1 cut
    obtain ⟨rfl, rfl⟩ := Prod.mk.inj same
    intro isInfix
    rcases List.infix_cons_iff.1 isInfix with atFront | inTail
    · -- A mark at the front of the part would stand at the front of the text.
      obtain ⟨rfl, _⟩ := append_of_cutBefore? cutRest
      exact noPrefix (List.isPrefixOf_iff_prefix.2 (atFront.trans (List.prefix_append _ _)))
    · exact inductionHypothesis cutRest inTail

theorem not_infix_of_cutBefore?_eq_none {mark text : List Char} (cut : cutBefore? mark text = none) :
    ¬ mark <:+: text := by
  fun_induction cutBefore? mark text with
  | case1 => cases cut
  | case2 nonempty => simpa using nonempty
  | case3 => cases cut
  | case4 c rest noPrefix inductionHypothesis =>
    intro isInfix
    rcases List.infix_cons_iff.1 isInfix with atFront | inRest
    · exact noPrefix (List.isPrefixOf_iff_prefix.2 atFront)
    · exact inductionHypothesis (Option.map_eq_none_iff.1 cut) inRest

namespace Reader

/-- Takes one `mark`. -/
def mark (mark : List Char) : Reader (List Char) where
  read text := if mark.isPrefixOf text then .ok (mark, text.drop mark.length) else .error (.noMark text)
  isSuffix_of_read := by
    intro text rest found read
    split at read
    · obtain ⟨_, rfl⟩ := Prod.mk.inj (Except.ok.inj read)
      exact List.drop_suffix _ _
    · cases read

/-- Takes everything in front of the first `mark` and leaves the mark. -/
def upTo (mark : List Char) : Reader (List Char) where
  read text :=
    match cutBefore? mark text with
    | some (before, after) => .ok (before, after)
    | none => .error (.noMarkAhead text)
  isSuffix_of_read := by
    intro text rest found read
    split at read
    next before after cut =>
      obtain ⟨rfl, rfl⟩ := Prod.mk.inj (Except.ok.inj read)
      exact ⟨before, (append_of_cutBefore? cut).1.symm⟩
    · cases read

/-- Takes the whole text. -/
def remainder : Reader (List Char) where
  read text := .ok (text, [])
  isSuffix_of_read := by
    intro text rest found read
    obtain ⟨_, rfl⟩ := Prod.mk.inj (Except.ok.inj read)
    exact List.nil_suffix

/-- Where the first reader takes nothing, the second one is tried. -/
def orElse {α : Type} (first second : Reader α) : Reader α where
  read text :=
    match first.read text with
    | .ok taken => .ok taken
    | .error _ => second.read text
  isSuffix_of_read := by
    intro text rest found read
    split at read
    next taken readFirst =>
      rw [Except.ok.inj read] at readFirst
      exact first.isSuffix_of_read readFirst
    · exact second.isSuffix_of_read read

/-! ## What is read -/

theorem read_mark_append (mark rest : List Char) : (Reader.mark mark).read (mark ++ rest) = .ok (mark, rest) := by
  have begins : mark.isPrefixOf (mark ++ rest) = true := List.isPrefixOf_iff_prefix.2 (List.prefix_append _ _)
  simp only [Reader.mark, begins, if_true, List.drop_left]

theorem read_mark_of_not_prefix {mark text : List Char} (absent : ¬ mark <+: text) :
    (Reader.mark mark).read text = .error (.noMark text) :=
  if_neg (mt List.isPrefixOf_iff_prefix.1 absent)

end Reader

end MethodSignatures.Text
