import MethodSignatures.Error
import MethodSignatures.Modifier.Basic
import MethodSignatures.Text.Cut

/-! # The outline of a signature

A signature text is divided from the left. Its head is one token, the return type, or two of them when
the first is a keyword; blanks end each. What follows is the body: a name up to the first opening
bracket, and the argument text up to the last closing one. Brackets in between are not matched up, and
what stands behind the last one is set aside.
-/

namespace MethodSignatures

structure Head where
  modifier : Option Modifier
  returnType : String
  /-- The text behind the blanks that end the head. -/
  rest : List Char

namespace Head

/-- A keyword is a modifier only as a whole token, and only the first token can be one. -/
def read (text : List Char) : Except OutlineFault Head :=
  match Text.cutToken? text with
  | none => .error .noBlankAfterFirstToken
  | some (token, rest) =>
    match Modifier.parse (.ofList token) with
    | .error _ => .ok { modifier := none, returnType := .ofList token, rest }
    | .ok modifier =>
      match Text.cutToken? rest with
      | none => .error .noBlankAfterReturnType
      | some (returnType, rest) => .ok { modifier := some modifier, returnType := .ofList returnType, rest }

end Head

structure Body where
  name : String
  /-- The text between the brackets. -/
  argumentText : List Char
  /-- The text behind the last closing bracket. -/
  tail : List Char

namespace Body

def read (text : List Char) : Except OutlineFault Body :=
  match Text.cutFirst? '(' text with
  | none => .error .missingOpening
  | some (before, inner) =>
    let name := Text.trim before
    if name.isEmpty then .error .missingName
    else
      match Text.cutLast? ')' inner with
      | none => .error .missingClosing
      | some (argumentText, tail) => .ok { name := .ofList name, argumentText, tail }

end Body

end MethodSignatures
