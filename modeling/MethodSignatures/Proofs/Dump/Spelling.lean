import MethodSignatures.Dump.Grammar
import MethodSignatures.Proofs.Quoting

/-! # Dumps are told apart

Both layouts of a dump spell it (`Dump.Named.spells_compactIn`, `Dump.Named.spells_indentedIn`), and a text spells one
dump at most (`Dump.Spells.unique`), so that either layout tells which dump it was written for. What a quoted text holds
does not matter, provided that it can be told where the text ends.
-/

namespace MethodSignatures

namespace Dump

/-! ## Layouts -/

section

variable {style : Text.QuoteStyle}

theorem allBlank_padding (brackets : Brackets) : Text.AllBlank brackets.padding := by
  cases brackets <;> decide

theorem allBlank_margin (depth : Nat) : Text.AllBlank (margin depth) := by
  intro c member
  rw [List.eq_of_mem_replicate member]
  exact Text.isBlank_space

theorem spellsMembers_nil {before after : List Char} (isGap : Text.AllBlank before) (isGapAfter : Text.AllBlank after) :
    SpellsMembers style (before ++ [] ++ after) [] := by
  apply SpellsMembers.nil
  rw [List.append_nil]
  exact List.forall_mem_append.2 ⟨isGap, isGapAfter⟩

theorem spellsMembers_compactMembers {members : List Dump}
    (spelled : ∀ member ∈ members, Spells style (member.compactIn style) member) {before after : List Char}
    (isGap : Text.AllBlank before) (isGapAfter : Text.AllBlank after) :
    SpellsMembers style (before ++ compactMembers style members ++ after) members := by
  induction members generalizing before with
  | nil => exact spellsMembers_nil isGap isGapAfter
  | cons member rest inductionHypothesis =>
    have spelledMember := spelled member (by simp)
    cases rest with
    | nil => exact .last isGap spelledMember isGapAfter
    | cons next rest =>
      -- The space behind the comma is the gap in front of the next member.
      have spelledRest := inductionHypothesis (fun other isOther => spelled other (by simp [isOther]))
        Text.isGap_space.2
      simpa [compactMembers] using SpellsMembers.cons isGap spelledMember spelledRest

theorem Named.spells_compactIn {dump : Dump} (named : Named dump) : Spells style (dump.compactIn style) dump := by
  induction named with
  | word isName => exact .word isName
  | number value => exact .number
  | quoted content => exact .quoted
  | field isName _ inductionHypothesis => exact .field isName inductionHypothesis
  | @group name brackets members isName _ inductionHypothesis =>
    have spelled := spellsMembers_compactMembers inductionHypothesis (allBlank_padding brackets)
      (allBlank_padding brackets)
    simpa [compactIn] using Spells.group isName spelled

/-- A member begins behind a line break and a margin, and a comma follows every one of them. -/
theorem spellsMembers_indentedMembers {members : List Dump} {depth : Nat}
    (spelled : ∀ member ∈ members, Spells style (member.indentedIn style depth) member) {before after : List Char}
    (isGap : Text.AllBlank before) (isGapAfter : Text.AllBlank after) :
    SpellsMembers style (before ++ indentedMembers style depth members ++ after) members := by
  induction members generalizing before with
  | nil => exact spellsMembers_nil isGap isGapAfter
  | cons member rest inductionHypothesis =>
    -- The line break behind the comma stands in front of the next margin, or is all that follows the last member.
    have lineBreak : Text.AllBlank ['\n'] := by decide
    have spelledRest := inductionHypothesis (fun other isOther => spelled other (by simp [isOther])) lineBreak
    have isMargin : Text.AllBlank (before ++ margin depth) :=
      List.forall_mem_append.2 ⟨isGap, allBlank_margin depth⟩
    simpa [indentedMembers] using SpellsMembers.cons isMargin (spelled member (by simp)) spelledRest

theorem Named.spells_indentedIn {dump : Dump} (named : Named dump) (depth : Nat) :
    Spells style (dump.indentedIn style depth) dump := by
  induction named generalizing depth with
  | word isName => exact .word isName
  | number value => exact .number
  | quoted content => exact .quoted
  | field isName _ inductionHypothesis => exact .field isName (inductionHypothesis depth)
  | @group name brackets members isName _ inductionHypothesis =>
    cases members with
    | nil =>
      have spelled : SpellsMembers style [] [] := .nil (by simp [Text.AllBlank])
      simpa [indentedIn] using Spells.group isName spelled
    | cons member rest =>
      have lineBreak : Text.AllBlank ['\n'] := by decide
      have spelled := spellsMembers_indentedMembers
        (fun other isOther => inductionHypothesis other isOther (depth + 1)) lineBreak (allBlank_margin depth)
      simpa [indentedIn] using Spells.group isName spelled

end

/-! ## Characters of a lead -/

def isLeadChar (c : Char) : Bool :=
  isNameChar c || c.isDigit

theorem toNat_of_isNameChar {c : Char} (isName : isNameChar c = true) : 65 ≤ c.toNat ∧ c.toNat ≤ 122 := by
  simp only [isNameChar, Bool.or_eq_true, decide_eq_true_eq] at isName
  rcases isName with isAlpha | rfl
  · rcases Bool.or_eq_true_iff.1 isAlpha with isUpper | isLower
    · have range : 65 ≤ c.toNat ∧ c.toNat ≤ 90 := by
        simpa [UInt32.le_iff_toNat_le] using of_decide_eq_true isUpper
      omega
    · have range : 97 ≤ c.toNat ∧ c.toNat ≤ 122 := by
        simpa [UInt32.le_iff_toNat_le] using Bool.and_eq_true_iff.1 isLower
      omega
  · decide

theorem toNat_of_isDigit {c : Char} (isDigit : c.isDigit = true) : 48 ≤ c.toNat ∧ c.toNat ≤ 57 :=
  Char.isDigit_iff_toNat.1 isDigit

theorem isBlank_of_isLeadChar {c : Char} (isLead : isLeadChar c = true) : Text.isBlank c = false := by
  have code : 48 ≤ c.toNat ∧ c.toNat ≤ 122 := by
    rcases Bool.or_eq_true_iff.1 isLead with isName | isDigit
    · have letters := toNat_of_isNameChar isName
      omega
    · have digits := toNat_of_isDigit isDigit
      omega
  -- The codes of blanks lie on either side of this range.
  rw [Bool.eq_false_iff]
  intro isBlank
  simp only [Text.isBlank, Text.inRanges, Text.blankRanges, List.any_cons, List.any_nil, Bool.or_eq_true,
    Bool.and_eq_true, decide_eq_true_eq, Bool.or_false] at isBlank
  omega

theorem isLeadChar_of_mem_toDigits (value : Nat) : ∀ c ∈ Nat.toDigits 10 value, isLeadChar c = true := by
  intro c member
  simp [isLeadChar, Text.isDigit_of_mem_toDigits member]

theorem isLeadChar_of_isNameChar {text : List Char} (isName : ∀ c ∈ text, isNameChar c = true) :
    ∀ c ∈ text, isLeadChar c = true := by
  intro c member
  simp [isLeadChar, isName c member]

theorem IsName.ne_toDigits {text : List Char} (isName : IsName text) (value : Nat) : text ≠ Nat.toDigits 10 value := by
  rintro rfl
  obtain ⟨c, member⟩ := List.exists_mem_of_ne_nil _ isName.1
  have letters := toNat_of_isNameChar (isName.2 c member)
  have digits := toNat_of_isDigit (Text.isDigit_of_mem_toDigits member)
  omega

theorem isBlank_closing (brackets : Brackets) : Text.isBlank brackets.closing = false := by
  cases brackets <;> decide

theorem isLeadChar_closing (brackets : Brackets) : isLeadChar brackets.closing = false := by
  cases brackets <;> decide

/-! ## What a dump begins with -/

/-- The name or the number that a dump begins with. -/
def lead : Dump → List Char
  | word text => text.toList
  | number value => Nat.toDigits 10 value
  | quoted _ => []
  | field label _ => label.toList
  | group name _ _ => name.toList

/-- How a dump goes on behind its lead. -/
inductive Form where
  | plain
  | quoted
  | field
  | group (brackets : Brackets)

def form : Dump → Form
  | word _ => .plain
  | number _ => .plain
  | quoted _ => .quoted
  | field _ _ => .field
  | group _ brackets _ => .group brackets

/-- The form of a dump from the text behind its lead. Only the first sign counts, and blanks may stand before it. -/
def Form.ofText (text : List Char) : Form :=
  match text.dropWhile Text.isBlank with
  | '"' :: _ => .quoted
  | ':' :: _ => .field
  | '(' :: _ => .group .round
  | '[' :: _ => .group .square
  | '\x7b' :: _ => .group .curly
  | _ => .plain

/-- What follows a dump neither lengthens its lead nor changes its form. -/
structure Ends (rest : List Char) : Prop where
  boundary : ∀ c ∈ rest.head?, isLeadChar c = false
  isPlain : Form.ofText rest = .plain

theorem ends_nil : Ends [] where
  boundary := by simp
  isPlain := rfl

theorem ends_comma (rest : List Char) : Ends (',' :: rest) where
  boundary := by
    have noLead : isLeadChar ',' = false := by decide
    simpa using noLead
  isPlain := rfl

theorem ends_closing {gap : List Char} (isGap : Text.AllBlank gap) (brackets : Brackets) (rest : List Char) :
    Ends (gap ++ brackets.closing :: rest) where
  boundary := by
    cases gap with
    | nil => simpa using isLeadChar_closing brackets
    | cons c gap =>
      have noLead : isLeadChar c = false := by
        rw [Bool.eq_false_iff]
        intro isLead
        simpa [isGap c (by simp)] using isBlank_of_isLeadChar isLead
      simpa using noLead
  isPlain := by
    rw [Form.ofText, List.dropWhile_append_of_pos isGap]
    cases brackets <;> rfl

section

variable {style : Text.QuoteStyle} {text other rest behind : List Char}

/-- A text that spells a dump begins with its lead and goes on in its form, whatever ends it. -/
theorem Spells.exists_body {dump : Dump} (spelled : Spells style text dump) :
    ∃ body, text = dump.lead ++ body ∧ (∀ c ∈ dump.lead, isLeadChar c = true) ∧ ∀ rest, Ends rest →
      (∀ c ∈ (body ++ rest).head?, isLeadChar c = false) ∧ Form.ofText (body ++ rest) = dump.form := by
  cases spelled with
  | word isName =>
    exact ⟨[], by simp [lead], isLeadChar_of_isNameChar isName.2, fun rest ends => ⟨ends.boundary, ends.isPlain⟩⟩
  | @number value =>
    exact ⟨[], by simp [lead], isLeadChar_of_mem_toDigits value, fun rest ends => ⟨ends.boundary, ends.isPlain⟩⟩
  | @quoted content =>
    have noLead : isLeadChar '"' = false := by decide
    exact ⟨style.quote content, rfl, by simp [lead],
      fun rest _ => ⟨by simpa [Text.QuoteStyle.quote] using noLead, rfl⟩⟩
  | @field label text value isName _ =>
    have noLead : isLeadChar ':' = false := by decide
    exact ⟨':' :: ' ' :: text, rfl, isLeadChar_of_isNameChar isName.2, fun rest _ => ⟨by simpa using noLead, rfl⟩⟩
  | @group name brackets text members isName _ =>
    refine ⟨brackets.opening ++ text ++ [brackets.closing], by simp [lead], isLeadChar_of_isNameChar isName.1, ?_⟩
    intro rest _
    -- The bracket ends the name, or the space before it does.
    cases brackets with
    | round =>
      have noLead : isLeadChar '(' = false := by decide
      exact ⟨by simpa [Brackets.opening] using noLead, rfl⟩
    | square =>
      have noLead : isLeadChar '[' = false := by decide
      exact ⟨by simpa [Brackets.opening] using noLead, rfl⟩
    | curly =>
      have noLead : isLeadChar ' ' = false := by decide
      exact ⟨by simpa [Brackets.opening] using noLead, rfl⟩

theorem Spells.lead_eq_and_form_eq {dump found : Dump} (spelled : Spells style text dump)
    (otherSpelled : Spells style other found) (ends : Ends rest) (otherEnds : Ends behind)
    (same : text ++ rest = other ++ behind) : dump.lead = found.lead ∧ dump.form = found.form := by
  obtain ⟨body, rfl, isLead, goesOn⟩ := spelled.exists_body
  obtain ⟨otherBody, rfl, otherIsLead, otherGoesOn⟩ := otherSpelled.exists_body
  obtain ⟨boundary, formEq⟩ := goesOn rest ends
  obtain ⟨otherBoundary, otherFormEq⟩ := otherGoesOn behind otherEnds
  rw [List.append_assoc, List.append_assoc] at same
  obtain ⟨sameLead, sameBody⟩ := Text.eq_of_run_append_eq isLead otherIsLead boundary otherBoundary same
  exact ⟨sameLead, by rw [← formEq, sameBody, otherFormEq]⟩

/-! ## Members -/

/-- A member begins with neither a blank nor a closing bracket. -/
def StartsMember (text : List Char) : Prop :=
  ∃ c rest, text = c :: rest ∧ Text.isBlank c = false ∧ ∀ brackets : Brackets, c ≠ brackets.closing

theorem StartsMember.append (starts : StartsMember text) (rest : List Char) : StartsMember (text ++ rest) := by
  obtain ⟨c, tail, rfl, solid, noClosing⟩ := starts
  exact ⟨c, tail ++ rest, rfl, solid, noClosing⟩

theorem StartsMember.startsUnblank (starts : StartsMember text) : Text.StartsUnblank text := by
  obtain ⟨c, tail, rfl, solid, _⟩ := starts
  exact Text.startsUnblank_cons.2 solid

theorem startsMember_of_isLeadChar (nonempty : text ≠ []) (isLead : ∀ c ∈ text, isLeadChar c = true) :
    StartsMember text := by
  obtain ⟨c, rest, rfl⟩ := List.exists_cons_of_ne_nil nonempty
  have first : isLeadChar c = true := isLead c (by simp)
  refine ⟨c, rest, rfl, isBlank_of_isLeadChar first, ?_⟩
  rintro brackets rfl
  rw [isLeadChar_closing] at first
  cases first

theorem startsMember_sign {sign : Char} (solid : Text.isBlank sign = false)
    (noClosing : sign ≠ ')' ∧ sign ≠ ']' ∧ sign ≠ '\x7d') (rest : List Char) : StartsMember (sign :: rest) := by
  obtain ⟨noRound, noSquare, noCurly⟩ := noClosing
  refine ⟨sign, rest, rfl, solid, ?_⟩
  intro brackets
  cases brackets with
  | round => exact noRound
  | square => exact noSquare
  | curly => exact noCurly

theorem Spells.startsMember {dump : Dump} (spelled : Spells style text dump) : StartsMember text := by
  cases spelled with
  | word isName => exact startsMember_of_isLeadChar isName.1 (isLeadChar_of_isNameChar isName.2)
  | @number value => exact startsMember_of_isLeadChar Nat.toDigits_ne_nil (isLeadChar_of_mem_toDigits value)
  | quoted => exact startsMember_sign (by decide) (by decide) _
  | field isName _ => exact (startsMember_of_isLeadChar isName.1 (isLeadChar_of_isNameChar isName.2)).append _
  | @group name brackets text members isName _ =>
    by_cases nameless : name.toList = []
    · rw [nameless]
      cases brackets with
      | round => exact startsMember_sign (by decide) (by decide) _
      | square => exact startsMember_sign (by decide) (by decide) _
      | curly => exact absurd nameless (isName.2 rfl)
    · rw [List.append_assoc, List.append_assoc]
      exact (startsMember_of_isLeadChar nameless (isLeadChar_of_isNameChar isName.1)).append _

theorem startsUnblank_closing (brackets : Brackets) (rest : List Char) :
    Text.StartsUnblank (brackets.closing :: rest) :=
  Text.startsUnblank_cons.2 (isBlank_closing brackets)

/-- The gaps in front of members hide nothing of them. -/
theorem StartsMember.eq_of_gap_eq {gap before : List Char} (starts : StartsMember text) (otherStarts : StartsMember other)
    (isGap : Text.AllBlank gap) (isGapBefore : Text.AllBlank before)
    (same : gap ++ (text ++ rest) = before ++ (other ++ behind)) : text ++ rest = other ++ behind :=
  (Text.eq_of_run_append_eq isGap isGapBefore (starts.append rest).startsUnblank
    (otherStarts.append behind).startsUnblank same).2

/-- Where a member stands, the group is not closed. -/
theorem StartsMember.closing_ne {gap before : List Char} {brackets : Brackets} (starts : StartsMember text)
    (isGap : Text.AllBlank gap) (isGapBefore : Text.AllBlank before) :
    gap ++ brackets.closing :: rest ≠ before ++ (text ++ behind) := by
  intro same
  obtain ⟨_, sameRest⟩ := Text.eq_of_run_append_eq isGap isGapBefore (startsUnblank_closing brackets rest)
    (starts.append behind).startsUnblank same
  obtain ⟨c, tail, rfl, _, noClosing⟩ := starts
  exact noClosing brackets (List.cons.inj sameRest).1.symm

theorem closing_ne_comma {gap : List Char} {brackets : Brackets} (isGap : Text.AllBlank gap) :
    gap ++ brackets.closing :: rest ≠ ',' :: behind := by
  intro same
  have noBlank : Text.StartsUnblank (',' :: behind) := Text.startsUnblank_cons.2 (by decide)
  have noGap : Text.AllBlank [] := by decide
  obtain ⟨_, sameRest⟩ := Text.eq_of_run_append_eq isGap noGap (startsUnblank_closing brackets rest) noBlank same
  cases brackets <;> cases sameRest

end

/-! ## One dump for a text -/

section

variable {style : Text.QuoteStyle}

mutual
theorem Spells.unique (selfDelimiting : style.SelfDelimiting) {text other rest behind : List Char} {dump found : Dump}
    (spelled : Spells style text dump) (otherSpelled : Spells style other found) (ends : Ends rest)
    (otherEnds : Ends behind) (same : text ++ rest = other ++ behind) : dump = found ∧ rest = behind := by
  -- Dumps of two kinds differ in form, but for words and numbers: these differ in their leads.
  obtain ⟨sameLead, sameForm⟩ := spelled.lead_eq_and_form_eq otherSpelled ends otherEnds same
  cases spelled with
  | word isName =>
    cases otherSpelled with
    | word _ =>
      obtain rfl := String.toList_inj.1 sameLead
      exact ⟨rfl, List.append_cancel_left same⟩
    | @number value => exact absurd sameLead (isName.ne_toDigits value)
    | quoted | field | group => cases sameForm
  | @number value =>
    cases otherSpelled with
    | word otherIsName => exact absurd sameLead.symm (otherIsName.ne_toDigits value)
    | number =>
      obtain rfl := Text.toDigits_ten_injective sameLead
      exact ⟨rfl, List.append_cancel_left same⟩
    | quoted | field | group => cases sameForm
  | quoted =>
    cases otherSpelled with
    | quoted =>
      obtain ⟨rfl, sameRest⟩ := selfDelimiting _ _ _ _ same
      exact ⟨rfl, sameRest⟩
    | word | number | field | group => cases sameForm
  | field isName spelledValue =>
    cases otherSpelled with
    | field _ otherSpelledValue =>
      obtain rfl := String.toList_inj.1 sameLead
      simp only [List.append_assoc, List.cons_append, List.append_cancel_left_eq, List.cons.injEq, true_and] at same
      obtain ⟨rfl, sameRest⟩ := spelledValue.unique selfDelimiting otherSpelledValue ends otherEnds same
      exact ⟨rfl, sameRest⟩
    | word | number | quoted | group => cases sameForm
  | group isName spelledMembers =>
    cases otherSpelled with
    | group _ otherSpelledMembers =>
      obtain rfl := String.toList_inj.1 sameLead
      obtain rfl := Form.group.inj sameForm
      simp only [List.append_assoc, List.singleton_append, List.append_cancel_left_eq] at same
      obtain ⟨rfl, sameRest⟩ := spelledMembers.unique selfDelimiting otherSpelledMembers same
      exact ⟨rfl, sameRest⟩
    | word | number | quoted | field => cases sameForm
termination_by sizeOf dump

/-- The members of a group end with the bracket that closes it. -/
theorem SpellsMembers.unique (selfDelimiting : style.SelfDelimiting) {text other rest behind : List Char}
    {members found : List Dump} {brackets : Brackets} (spelled : SpellsMembers style text members)
    (otherSpelled : SpellsMembers style other found)
    (same : text ++ brackets.closing :: rest = other ++ brackets.closing :: behind) :
    members = found ∧ rest = behind := by
  have closes := startsUnblank_closing brackets rest
  have otherCloses := startsUnblank_closing brackets behind
  -- Behind a member stands a comma or the closing bracket, and either ends it; only the last one may lack its comma.
  cases spelled with
  | nil isGap =>
    cases otherSpelled with
    | nil otherIsGap =>
      obtain ⟨_, sameRest⟩ := Text.eq_of_run_append_eq isGap otherIsGap closes otherCloses same
      exact ⟨rfl, (List.cons.inj sameRest).2⟩
    | last otherIsGap otherMember _ | cons otherIsGap otherMember _ =>
      simp only [List.append_assoc] at same
      exact absurd same (otherMember.startsMember.closing_ne isGap otherIsGap)
  | last isGap spelledMember isGapAfter =>
    simp only [List.append_assoc] at same
    cases otherSpelled with
    | nil otherIsGap => exact absurd same.symm (spelledMember.startsMember.closing_ne otherIsGap isGap)
    | last otherIsGap otherMember otherIsGapAfter =>
      simp only [List.append_assoc] at same
      have sameMember := spelledMember.startsMember.eq_of_gap_eq otherMember.startsMember isGap otherIsGap same
      obtain ⟨rfl, sameAfter⟩ := spelledMember.unique selfDelimiting otherMember
        (ends_closing isGapAfter brackets rest) (ends_closing otherIsGapAfter brackets behind) sameMember
      obtain ⟨_, sameRest⟩ := Text.eq_of_run_append_eq isGapAfter otherIsGapAfter closes otherCloses sameAfter
      exact ⟨rfl, (List.cons.inj sameRest).2⟩
    | cons otherIsGap otherMember _ =>
      simp only [List.append_assoc, List.cons_append] at same
      have sameMember := spelledMember.startsMember.eq_of_gap_eq otherMember.startsMember isGap otherIsGap same
      obtain ⟨_, sameAfter⟩ := spelledMember.unique selfDelimiting otherMember
        (ends_closing isGapAfter brackets rest) (ends_comma _) sameMember
      exact absurd sameAfter (closing_ne_comma isGapAfter)
  | cons isGap spelledMember spelledRest =>
    simp only [List.append_assoc, List.cons_append] at same
    cases otherSpelled with
    | nil otherIsGap => exact absurd same.symm (spelledMember.startsMember.closing_ne otherIsGap isGap)
    | last otherIsGap otherMember otherIsGapAfter =>
      simp only [List.append_assoc] at same
      have sameMember := spelledMember.startsMember.eq_of_gap_eq otherMember.startsMember isGap otherIsGap same
      obtain ⟨_, sameAfter⟩ := spelledMember.unique selfDelimiting otherMember (ends_comma _)
        (ends_closing otherIsGapAfter brackets behind) sameMember
      exact absurd sameAfter.symm (closing_ne_comma otherIsGapAfter)
    | cons otherIsGap otherMember otherSpelledRest =>
      simp only [List.append_assoc, List.cons_append] at same
      have sameMember := spelledMember.startsMember.eq_of_gap_eq otherMember.startsMember isGap otherIsGap same
      obtain ⟨rfl, sameAfter⟩ :=
        spelledMember.unique selfDelimiting otherMember (ends_comma _) (ends_comma _) sameMember
      obtain ⟨rfl, sameRest⟩ := spelledRest.unique selfDelimiting otherSpelledRest (List.cons.inj sameAfter).2
      exact ⟨rfl, sameRest⟩
termination_by sizeOf members
end

theorem Named.eq_of_compactIn_eq {dump other : Dump} (named : Named dump) (otherNamed : Named other)
    (selfDelimiting : style.SelfDelimiting) (same : dump.compactIn style = other.compactIn style) : dump = other :=
  (named.spells_compactIn.unique selfDelimiting otherNamed.spells_compactIn ends_nil ends_nil (by rw [same])).1

theorem Named.eq_of_indentedIn_eq {dump other : Dump} (named : Named dump) (otherNamed : Named other) {depth : Nat}
    (selfDelimiting : style.SelfDelimiting) (same : dump.indentedIn style depth = other.indentedIn style depth) :
    dump = other :=
  ((named.spells_indentedIn depth).unique selfDelimiting (otherNamed.spells_indentedIn depth) ends_nil ends_nil
    (by rw [same])).1

end

end Dump

end MethodSignatures
