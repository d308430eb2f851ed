import MethodSignatures.Proofs.Language
import MethodSignatures.Signature.Edit

/-! # Edits of readable signatures

A signature is readable if it is read again from its own text. Nothing in its type says so, and an edit may lose it.
`Edit.Allowed` names the edits of a readable signature that keep it readable: such an edit can be made
(`Signature.WellFormed.edit`), and so can a run of them (`Signature.WellFormed.editAll`). Neither of the two guards
in it can be dropped (`Signature.not_wellFormed_of_keyword`, `Signature.not_wellFormed_of_separator`).
-/

namespace MethodSignatures

/-- The edits that rebuild `signature` from its own parts, a keyword, or the text of one argument. A return type
that is a keyword needs its modifier, and a text that is cut apart in a list is no argument of one. -/
def Edit.Allowed (signature : Signature) : Edit → Prop
  | setModifier none => Modifier.ofKeyword? signature.returnType = none
  | setModifier (some keyword) => ∃ modifier, Modifier.parse keyword = .ok modifier
  | pushText text => (∃ argument, Argument.parse text = .ok argument) ∧ ¬ Text.separator <:+: text.toList
  | remove _ | reverse | reparse => True
  | setReturnType _ | setName _ | push _ => False

theorem Argument.parse_eq_ok_iff {text : String} {argument : Argument} :
    parse text = .ok argument ↔ argument.Fills text.toList := by
  rw [← parse_ofList_eq_ok_iff, String.ofList_toList]

namespace Signature

/-- Every edit is allowed for the signature that the edits before it have made. -/
def AllowedRun (signature : Signature) : List Edit → Prop
  | [] => True
  | edit :: rest => edit.Allowed signature ∧ ∀ next, signature.edit edit = .ok next → AllowedRun next rest

/-! ## One edit -/

theorem WellFormed.withModifier {signature : Signature} (wellFormed : signature.WellFormed) {modifier : Option Modifier}
    (noKeyword : modifier = none → Modifier.ofKeyword? signature.returnType = none) :
    WellFormed { signature with modifier } :=
  { wellFormed with returnType_noKeyword := noKeyword }

theorem WellFormed.withArguments {signature : Signature} (wellFormed : signature.WellFormed)
    {arguments : List Argument} (argumentsWellFormed : ∀ argument ∈ arguments, argument.WellFormed) :
    WellFormed { signature with arguments } :=
  { wellFormed with arguments_wellFormed := argumentsWellFormed }

/-- An allowed edit can be made, and what it makes is well formed. -/
theorem WellFormed.edit {signature : Signature} {edit : Edit} (wellFormed : signature.WellFormed)
    (allowed : edit.Allowed signature) : ∃ next, signature.edit edit = .ok next ∧ next.WellFormed := by
  cases edit with
  | setModifier keyword =>
    cases keyword with
    | none => exact ⟨_, rfl, wellFormed.withModifier fun _ => allowed⟩
    | some keyword =>
      obtain ⟨modifier, parsed⟩ := allowed
      refine ⟨{ signature with modifier := some modifier }, ?_, wellFormed.withModifier (by simp)⟩
      simp [Signature.edit, Modifier.parseOption, parsed, Except.map]
  | pushText text =>
    obtain ⟨⟨argument, parsed⟩, noSeparator⟩ := allowed
    refine ⟨{ signature with arguments := signature.arguments ++ [argument] }, ?_, wellFormed.withArguments ?_⟩
    · simp only [Signature.edit, parsed]
    · intro member isMember
      cases List.mem_append.1 isMember with
      | inl isOld => exact wellFormed.arguments_wellFormed member isOld
      | inr isNew =>
        -- A text that is read alone may still be cut in a list, hence the second guard.
        obtain rfl : member = argument := List.mem_singleton.1 isNew
        exact (Argument.parse_eq_ok_iff.1 parsed).wellFormed noSeparator
  | remove index =>
    refine ⟨_, rfl, wellFormed.withArguments ?_⟩
    intro member isMember
    exact wellFormed.arguments_wellFormed member (List.mem_of_mem_eraseIdx isMember)
  | reverse =>
    refine ⟨_, rfl, wellFormed.withArguments ?_⟩
    intro member isMember
    exact wellFormed.arguments_wellFormed member (List.mem_reverse.1 isMember)
  | reparse =>
    refine ⟨signature, ?_, wellFormed⟩
    simp only [Signature.edit, wellFormed.parse_render]
  | setReturnType text | setName text | push argument => exact absurd allowed id

/-! ## Runs -/

/-- A run of allowed edits can be made to its end. -/
theorem WellFormed.editAll {signature : Signature} {edits : List Edit} (wellFormed : signature.WellFormed)
    (allowed : signature.AllowedRun edits) : ∃ last, signature.editAll edits = .ok last ∧ last.WellFormed := by
  induction edits generalizing signature with
  | nil => exact ⟨signature, rfl, wellFormed⟩
  | cons edit rest inductionHypothesis =>
    obtain ⟨editAllowed, restAllowed⟩ := allowed
    obtain ⟨next, edited, nextWellFormed⟩ := wellFormed.edit editAllowed
    -- The rest of the run is allowed for what the first edit makes, whatever that is.
    obtain ⟨last, ran, lastWellFormed⟩ := inductionHypothesis nextWellFormed (restAllowed next edited)
    refine ⟨last, ?_, lastWellFormed⟩
    rw [Signature.editAll, List.foldlM_cons, edited]
    exact ran

theorem AllowedRun.of_append {signature : Signature} {done rest : List Edit}
    (allowed : signature.AllowedRun (done ++ rest)) : signature.AllowedRun done := by
  induction done generalizing signature with
  | nil => trivial
  | cons edit done inductionHypothesis =>
    obtain ⟨editAllowed, restAllowed⟩ := allowed
    exact ⟨editAllowed, fun next edited => inductionHypothesis (restAllowed next edited)⟩

/-! ## The guards -/

theorem not_wellFormed_of_keyword {signature : Signature} (isKeyword : Modifier.ofKeyword? signature.returnType ≠ none) :
    ¬ WellFormed { signature with modifier := none } :=
  fun wellFormed => isKeyword (wellFormed.returnType_noKeyword rfl)

/-- The text of one argument holds a separator only if its type ends in a comma, and the list is cut there. -/
theorem not_wellFormed_of_separator {signature : Signature} {argument : Argument} {text : String}
    (parsed : Argument.parse text = .ok argument) (hasSeparator : Text.separator <:+: text.toList) :
    ¬ WellFormed { signature with arguments := signature.arguments ++ [argument] } := by
  intro wellFormed
  have argumentWellFormed : argument.WellFormed := wellFormed.arguments_wellFormed argument (by simp)
  have endsInComma := (Argument.parse_eq_ok_iff.1 parsed).separator_infix_iff.1 hasSeparator
  exact argumentWellFormed.type_noComma endsInComma

/-- Whatever has been read stays readable at every point of a run of allowed edits. To give up a modifier that a
keyword needs, or to append an argument whose text is cut apart, makes an unreadable signature at each such
point. -/
theorem readable_throughout_edits {text : String} {start : Signature} {edits done : List Edit}
    (parsed : parse text = .ok start) (allowed : start.AllowedRun edits) (isPrefix : done <+: edits) :
    ∃ current, start.editAll done = .ok current ∧ parse current.render = .ok current ∧
      (Modifier.ofKeyword? current.returnType ≠ none →
        ∃ next, current.edit (.setModifier none) = .ok next ∧ parse next.render ≠ .ok next) ∧
      ∀ pushed argument, Argument.parse pushed = .ok argument → Text.separator <:+: pushed.toList →
        ∃ next, current.edit (.pushText pushed) = .ok next ∧ parse next.render ≠ .ok next := by
  obtain ⟨rest, rfl⟩ := isPrefix
  obtain ⟨current, ran, wellFormed⟩ := (wellFormed_of_parse parsed).editAll allowed.of_append
  refine ⟨current, ran, wellFormed.parse_render, ?_, ?_⟩
  · intro isKeyword
    refine ⟨{ current with modifier := none }, rfl, ?_⟩
    intro reread
    exact not_wellFormed_of_keyword isKeyword (wellFormed_of_parse reread)
  · intro pushed argument pushedParsed hasSeparator
    refine ⟨{ current with arguments := current.arguments ++ [argument] }, ?_, ?_⟩
    · simp only [Signature.edit, pushedParsed]
    · intro reread
      exact not_wellFormed_of_separator pushedParsed hasSeparator (wellFormed_of_parse reread)

/-- With a keyword for its return type a signature may change its modifier but not give it up, and the argument text
`c, d` is cut apart. -/
theorem readable_throughout_edits_keyword :
    AllowedRun ⟨some .publ, "private", "f", [⟨"a", "b"⟩]⟩
        [.setModifier (some "protected"), .pushText "Map<K,V> m", .reverse, .reparse] ∧
      editAll ⟨some .publ, "private", "f", [⟨"a", "b"⟩]⟩
          [.setModifier (some "protected"), .pushText "Map<K,V> m", .reverse] =
        .ok ⟨some .prot, "private", "f", [⟨"Map<K,V>", "m"⟩, ⟨"a", "b"⟩]⟩ ∧
      (∃ next, edit ⟨some .prot, "private", "f", [⟨"Map<K,V>", "m"⟩, ⟨"a", "b"⟩]⟩ (.setModifier none) = .ok next ∧
        parse next.render ≠ .ok next) ∧
      ∃ next, edit ⟨some .prot, "private", "f", [⟨"Map<K,V>", "m"⟩, ⟨"a", "b"⟩]⟩ (.pushText "c, d") = .ok next ∧
        parse next.render ≠ .ok next := by
  have parsed : parse "public private f(a b)" = .ok ⟨some .publ, "private", "f", [⟨"a", "b"⟩]⟩ := by rfl
  have pushed : Argument.parse "Map<K,V> m" = .ok ⟨"Map<K,V>", "m"⟩ := by rfl
  have noSeparator : ¬ Text.separator <:+: "Map<K,V> m".toList := by
    rw [(Argument.parse_eq_ok_iff.1 pushed).separator_infix_iff]
    decide
  have allowed : AllowedRun ⟨some .publ, "private", "f", [⟨"a", "b"⟩]⟩
      [.setModifier (some "protected"), .pushText "Map<K,V> m", .reverse, .reparse] := by
    refine ⟨⟨.prot, rfl⟩, fun _ _ => ⟨⟨⟨_, pushed⟩, noSeparator⟩, fun _ _ => ?_⟩⟩
    exact ⟨trivial, fun _ _ => ⟨trivial, fun _ _ => trivial⟩⟩
  obtain ⟨current, ran, _, drops, splits⟩ := readable_throughout_edits parsed allowed (List.take_prefix 3 _)
  obtain rfl := Except.ok.inj ran
  exact ⟨allowed, ran, drops (by decide), splits "c, d" ⟨"c,", "d"⟩ (by rfl) (by decide)⟩

end Signature

end MethodSignatures
