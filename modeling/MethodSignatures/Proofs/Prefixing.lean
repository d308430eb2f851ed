import MethodSignatures.Proofs.Records

/-! # Texts behind a modifier

A keyword and a gap in front of a text that has no modifier give it one. They take nothing else from its reading
(`Reading.Of.behind`): what was read without a modifier is read with it, and what was refused is refused for the same
reason, unless the first token is not ended by a blank, since that token is the return type then.
-/

namespace MethodSignatures

open OutlineFault

/-- The fault of a text when a modifier stands in front of it. -/
def OutlineFault.behindModifier : OutlineFault → OutlineFault
  | noBlankAfterFirstToken => noBlankAfterReturnType
  | fault => fault

theorem OutlineFault.reason_behindModifier (fault : OutlineFault) :
    fault.behindModifier.reason =
      if fault.reason = "no whitespace after the first token" then "no whitespace after the return type"
      else fault.reason := by
  cases fault <;> simp [behindModifier, reason]

/-- A reading goes as far behind a modifier as without it. -/
def Reading.behind (modifier : Modifier) : Reading → Reading
  | blank => blank
  | headless fault => headless fault.behindModifier
  | bodiless head fault => bodiless { head with modifier := some modifier } fault
  | refused head body fault => refused { head with modifier := some modifier } body fault
  | complete head body arguments => complete { head with modifier := some modifier } body arguments

section

variable {gap text : List Char}

/-! ## Heads -/

theorem ofKeyword?_of_cutToken? {token rest : List Char} (noKeyword : ¬ StartsWithKeyword text)
    (cut : Text.cutToken? text = some (token, rest)) : Modifier.ofKeyword? (.ofList token) = none := by
  rw [Text.cutToken?_eq_ite] at cut
  split at cut
  next =>
    obtain ⟨rfl, _⟩ := Prod.mk.inj (Option.some.inj cut)
    simpa [startsWithKeyword_iff] using noKeyword
  next => cases cut

theorem Head.modifier_eq_none_of_read {head : Head} (noKeyword : ¬ StartsWithKeyword text)
    (headRead : Head.read text = .ok head) : head.modifier = none := by
  cases cut : Text.cutToken? text with
  | none => simp [Head.read, cut] at headRead
  | some parts =>
    obtain ⟨token, rest⟩ := parts
    simp only [Head.read, cut, Modifier.parse_eq, ofKeyword?_of_cutToken? noKeyword cut] at headRead
    obtain rfl := Except.ok.inj headRead
    rfl

theorem Head.read_behind (modifier : Modifier) (isGap : Text.IsGap gap) (startsUnblank : Text.StartsUnblank text)
    (noKeyword : ¬ StartsWithKeyword text) :
    Head.read (modifier.keyword.toList ++ gap ++ text) =
      match Head.read text with
      | .error fault => .error fault.behindModifier
      | .ok head => .ok { head with modifier := some modifier } := by
  have cutKeyword := Text.cutToken?_append modifier.isToken_keyword isGap startsUnblank
  cases cut : Text.cutToken? text with
  | none =>
    simp only [Head.read, cutKeyword, cut, String.ofList_toList, Modifier.parse_eq, Modifier.ofKeyword?_keyword,
      behindModifier]
  | some parts =>
    -- The token is the return type of both texts: of one because it is no keyword, of the other as the second token.
    obtain ⟨token, rest⟩ := parts
    simp only [Head.read, cutKeyword, cut, String.ofList_toList, Modifier.parse_eq, Modifier.ofKeyword?_keyword,
      ofKeyword?_of_cutToken? noKeyword cut]

end

/-! ## Readings -/

theorem Text.StartsUnblank.not_allBlank {text : List Char} (startsUnblank : StartsUnblank text)
    (nonempty : text ≠ []) : ¬ AllBlank text := by
  intro allBlank
  rw [← List.append_nil text] at startsUnblank
  exact nonempty (startsUnblank.eq_nil allBlank)

theorem Reading.Of.behind {text gap : String} {reading : Reading} (stages : Of text reading) (modifier : Modifier)
    (nonempty : text ≠ "") (startsUnblank : Text.StartsUnblank text.toList)
    (noKeyword : ¬ StartsWithKeyword text.toList) (isGap : Text.IsGap gap.toList) :
    Of (modifier.keyword ++ gap ++ text) (reading.behind modifier) := by
  have headRead := Head.read_behind modifier isGap startsUnblank noKeyword
  rw [← String.toList_append, ← String.toList_append] at headRead
  cases stages with
  | blank allBlank => exact absurd allBlank (startsUnblank.not_allBlank (by simpa using nonempty))
  | headless _ failed =>
    rw [failed] at headRead
    refine .headless ?_ headRead
    rw [String.toList_append, String.toList_append, List.append_assoc]
    exact modifier.isToken_keyword.not_allBlank _
  | bodiless read bodyRead =>
    rw [read] at headRead
    exact .bodiless headRead bodyRead
  | refused read bodyRead listRead =>
    rw [read] at headRead
    exact .refused headRead bodyRead listRead
  | complete read bodyRead listRead =>
    rw [read] at headRead
    exact .complete headRead bodyRead listRead

namespace Signature

/-- A modifier that is put in front of a text without one is the only difference it makes to a signature and to a
refused argument, and the text is otherwise refused for the same reason. Only where the first token is not ended by a
blank the reason speaks of the return type. -/
theorem parse_behind_modifier {text gap : String} (modifier : Modifier) (nonempty : text ≠ "")
    (startsUnblank : Text.StartsUnblank text.toList) (noKeyword : ¬ StartsWithKeyword text.toList)
    (isGap : Text.IsGap gap.toList) :
    (∀ signature, parse text = .ok signature → signature.modifier = none ∧
        parse (modifier.keyword ++ gap ++ text) = .ok { signature with modifier := some modifier }) ∧
      (∀ position piece, parse text = .error (.badArgument position piece) →
        parse (modifier.keyword ++ gap ++ text) = .error (.badArgument position piece)) ∧
      (∀ whole fault, parse text = .error (.malformed whole fault) →
        ∃ other, parse (modifier.keyword ++ gap ++ text) =
            .error (.malformed (modifier.keyword ++ gap ++ text) other) ∧
          other.reason = if fault.reason = "no whitespace after the first token"
            then "no whitespace after the return type" else fault.reason) ∧
      parse text ≠ .error .empty := by
  obtain ⟨reading, stages⟩ : ∃ reading, Reading.Of text reading := ⟨_, Reading.of_ofText text⟩
  have behind := stages.behind modifier nonempty startsUnblank noKeyword isGap
  rw [parse_of_reading stages, parse_of_reading behind]
  cases stages with
  | blank allBlank => exact absurd allBlank (startsUnblank.not_allBlank (by simpa using nonempty))
  | headless _ failed => simp [Reading.behind, Reading.result, OutlineFault.reason_behindModifier]
  | @bodiless head fault headRead failed =>
    -- A fault of the body is none of the first token, so that its reason stays.
    have sameReason : fault.reason = if fault.reason = "no whitespace after the first token"
        then "no whitespace after the return type" else fault.reason := by
      have isBodyFault := Body.fault_of_read failed
      simp only [List.mem_cons, List.not_mem_nil, or_false] at isBodyFault
      rcases isBodyFault with rfl | rfl | rfl <;> rfl
    simpa [Reading.behind, Reading.result] using sameReason
  | refused headRead bodyRead listRead => simp [Reading.behind, Reading.result]
  | complete headRead bodyRead listRead =>
    simp [Reading.behind, Reading.result, Head.modifier_eq_none_of_read noKeyword headRead]

/-- A token that only looks like a keyword is a return type in both places. A single token is refused in both, the
first time as the first token and the second time as the return type. -/
theorem parse_behind_modifier_lookalike :
    (parse "publicity f(int a)" = .ok ⟨none, "publicity", "f", [⟨"int", "a"⟩]⟩ ∧
      parse (Modifier.prot.keyword ++ " \t" ++ "publicity f(int a)") =
        .ok ⟨some .prot, "publicity", "f", [⟨"int", "a"⟩]⟩) ∧
    parse "f()" = .error (.malformed "f()" .noBlankAfterFirstToken) ∧
      ∃ other, parse (Modifier.publ.keyword ++ " " ++ "f()") =
          .error (.malformed (Modifier.publ.keyword ++ " " ++ "f()") other) ∧
        other.reason = "no whitespace after the return type" := by
  have plain : parse "publicity f(int a)" = .ok ⟨none, "publicity", "f", [⟨"int", "a"⟩]⟩ := by rfl
  have refused : parse "f()" = .error (.malformed "f()" .noBlankAfterFirstToken) := by rfl
  obtain ⟨reads, _⟩ :=
    @parse_behind_modifier "publicity f(int a)" " \t" .prot (by decide) (by decide) (by decide) (by decide)
  obtain ⟨_, _, refuses, _⟩ :=
    @parse_behind_modifier "f()" " " .publ (by decide) (by decide) (by decide) (by decide)
  exact ⟨⟨plain, (reads _ plain).2⟩, refused, refuses _ _ refused⟩

end Signature

end MethodSignatures
