import MethodSignatures.Modifier.Json
import MethodSignatures.Proofs.Json.Signature
import MethodSignatures.Proofs.Keywords
import MethodSignatures.Proofs.Language

/-! # Recognising a modifier

A modifier is recognised at the front of a text, as a whole text, in a JSON value and as the first token of a signature.
All four go by the keyword and agree with each other (`Modifier.recognisers_agree`): no keyword leads another one, so that
the keyword at the front of a text is the only one, and a token that merely begins with a keyword is none.
-/

namespace MethodSignatures

namespace Modifier

/-! ## In a JSON value -/

theorem ofJson_string_eq_ok_iff {text : String} {modifier : Modifier} :
    ofJson (.string text) = .ok modifier ↔ text = modifier.keyword := by
  rw [← ofKeyword?_eq_some_iff, ofJson]
  cases ofKeyword? text <;> simp

theorem ofJson_eq_ok_iff {value : Json} {modifier : Modifier} :
    ofJson value = .ok modifier ↔
      value = .string modifier.keyword ∨ value = .object [(modifier.keyword, .null)] := by
  constructor
  · intro read
    unfold ofJson at read
    split at read
    next text => exact .inl (congrArg Json.string (ofJson_string_eq_ok_iff.1 read))
    next key content =>
      -- The keyword comes first, so that a value is looked at only behind one.
      cases isKeyword : ofKeyword? key with
      | none => simp [isKeyword] at read
      | some found =>
        cases content with
        | null =>
          simp only [isKeyword, Except.ok.injEq] at read
          rw [← read, ← ofKeyword?_eq_some_iff.1 isKeyword]
          exact .inr rfl
        | bool | number | string | array | object => simp [isKeyword] at read
    next => cases read
    next => cases read
  · rintro (rfl | rfl)
    · exact ofJson_string_eq_ok_iff.2 rfl
    · simp [ofJson]

theorem parse?_render_toJson (modifier : Modifier) : Json.parse? modifier.toJson.render = some modifier.toJson := by
  have settled : modifier.toJson.settle = modifier.toJson := rfl
  rw [Json.parse?, Json.read?_render, Option.map_some, settled]

/-! ## In front of a signature -/

theorem parse_signature_of_keyword (modifier : Modifier) :
    Signature.parse (modifier.keyword ++ " r f()") =
      .ok { modifier := some modifier, returnType := "r", name := "f", arguments := [] } := by
  have isToken : Text.IsToken "r".toList := by decide
  have isTrimmed : Text.IsTrimmed "f".toList := by decide
  have noOpening : '(' ∉ "f".toList := by decide
  have wellFormed : Signature.WellFormed ⟨some modifier, "r", "f", []⟩ :=
    ⟨isToken, by simp, isTrimmed, noOpening, by simp⟩
  have rendered : Signature.render ⟨some modifier, "r", "f", []⟩ = modifier.keyword ++ " r f()" := by
    cases modifier <;> rfl
  rw [← rendered]
  exact wellFormed.parse_render

/-- Without a keyword the first token is the return type, and all the rest up to the bracket is the name. -/
theorem parse_signature_of_token {text : String} (isToken : Text.IsToken text.toList)
    (noKeyword : ofKeyword? text = none) :
    Signature.parse (text ++ " r f()") =
      .ok { modifier := none, returnType := text, name := "r f", arguments := [] } := by
  have isTrimmed : Text.IsTrimmed "r f".toList := by decide
  have noOpening : '(' ∉ "r f".toList := by decide
  have wellFormed : Signature.WellFormed ⟨none, text, "r f", []⟩ :=
    ⟨isToken, fun _ => noKeyword, isTrimmed, noOpening, by simp⟩
  have rendered : Signature.render ⟨none, text, "r f", []⟩ = text ++ " r f()" := by
    rw [← String.toList_inj]
    simp [Signature.render, Signature.renderModifier, Signature.renderArguments]
  rw [← rendered]
  exact wellFormed.parse_render

/-- At the front of a text, as a whole text, in a JSON value and in front of a signature a modifier is recognised by its
keyword, by nothing less and nothing else. What is not recognised is reported as it is. -/
theorem recognisers_agree (text : String) :
    (∀ modifier rest, parseFront text = .ok (modifier, rest) ↔ text = modifier.keyword ++ rest) ∧
      (∀ fault, parseFront text = .error fault ↔
        fault = .noKeyword text ∧ ∀ modifier rest, text ≠ keyword modifier ++ rest) ∧
      (∀ modifier, parse text = .ok modifier ↔ text = modifier.keyword) ∧
      (∀ error, parse text = .error error ↔
        error = .unknownModifier text ∧ ∀ modifier, text ≠ keyword modifier) ∧
      (∀ modifier, ofJson (.string text) = .ok modifier ↔ parse text = .ok modifier) ∧
      (∀ value modifier, ofJson value = .ok modifier ↔
        value = .string modifier.keyword ∨ value = .object [(modifier.keyword, .null)]) ∧
      (∀ modifier, Json.parse? modifier.toJson.render = some modifier.toJson ∧
        ofJson modifier.toJson = .ok modifier) ∧
      (Text.IsToken text.toList → ∃ signature, Signature.parse (text ++ " r f()") = .ok signature ∧
        (∀ modifier, signature.modifier = some modifier ↔ parse text = .ok modifier) ∧
        (signature.modifier = none → signature.returnType = text)) := by
  refine ⟨fun modifier rest => parseFront_eq_ok_iff, fun fault => parseFront_eq_error_iff,
    fun modifier => parse_eq_ok_iff, fun error => parse_eq_error_iff, ?_, fun value modifier => ofJson_eq_ok_iff, ?_, ?_⟩
  · intro modifier
    rw [ofJson_string_eq_ok_iff, parse_eq_ok_iff]
  · intro modifier
    exact ⟨parse?_render_toJson modifier, ofJson_string_eq_ok_iff.2 rfl⟩
  · intro isToken
    cases isKeyword : ofKeyword? text with
    | some modifier =>
      obtain rfl := ofKeyword?_eq_some_iff.1 isKeyword
      refine ⟨_, parse_signature_of_keyword modifier, fun other => ?_, by simp⟩
      rw [parse_eq_ok_iff, Option.some.injEq]
      exact ⟨congrArg keyword, eq_of_keyword_eq⟩
    | none =>
      refine ⟨_, parse_signature_of_token isToken isKeyword, fun modifier => ?_, fun _ => rfl⟩
      have noKeyword := ofKeyword?_eq_none_iff.1 isKeyword modifier
      simp [parse_eq_ok_iff, noKeyword]

/-- A keyword with more behind it leads its text, but it is no modifier as a whole, nor in front of a signature. -/
theorem recognisers_agree_lookalike :
    parseFront "publicity" = .ok (.publ, "ity") ∧
      parse "publicity" = .error (.unknownModifier "publicity") ∧
      Text.IsToken "publicity".toList ∧
      ∃ signature, Signature.parse ("publicity" ++ " r f()") = .ok signature ∧
        signature.modifier = none ∧ signature.returnType = "publicity" := by
  obtain ⟨leads, _, isModifier, refused, _, _, _, inFront⟩ := recognisers_agree "publicity"
  have noModifier : parse "publicity" = .error (.unknownModifier "publicity") :=
    (refused _).2 ⟨rfl, by rintro (_ | _ | _) <;> decide⟩
  have isToken : Text.IsToken "publicity".toList := by decide
  obtain ⟨signature, parsed, hasModifier, hasType⟩ := inFront isToken
  have absent : signature.modifier = none := by
    rw [Option.eq_none_iff_forall_ne_some]
    intro modifier found
    rw [hasModifier modifier, noModifier] at found
    cases found
  exact ⟨(leads .publ "ity").2 (by decide), noModifier, isToken, signature, parsed, absent, hasType absent⟩

end Modifier

end MethodSignatures
