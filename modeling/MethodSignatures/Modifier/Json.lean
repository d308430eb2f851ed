import MethodSignatures.Json.Kind
import MethodSignatures.Modifier.Basic

/-! # Modifiers in JSON

A modifier is written as its keyword. It is read from the keyword or from an object whose only member has
the keyword for its key and null for its value.
-/

namespace MethodSignatures.Modifier

def toJson (modifier : Modifier) : Json :=
  .string modifier.keyword

/-- Why a value is no modifier. -/
inductive JsonError where
  /-- The text, or the only key, is no keyword. -/
  | unknownKeyword (text : String)
  | notOneMember
  | unexpectedKind (value : Json)
  /-- The keyword has another value than null. -/
  | unexpectedContent (value : Json)

def JsonError.message (hidden : Char → Bool) : JsonError → String
  | unknownKeyword text =>
    "unknown variant `" ++ text ++ "`, expected one of " ++
      ", ".intercalate (all.map fun modifier => "`" ++ modifier.keyword ++ "`")
  | notOneMember => "invalid value: map, expected map with a single key"
  | unexpectedKind value => "invalid type: " ++ value.kind hidden ++ ", expected string or map"
  | unexpectedContent value => "invalid type: " ++ value.kind hidden ++ ", expected unit"

/-- The keyword is looked at before the value that stands with it. -/
def ofJson : Json → Except JsonError Modifier
  | .string text =>
    match ofKeyword? text with
    | some modifier => .ok modifier
    | none => .error (.unknownKeyword text)
  | .object [(key, content)] =>
    match ofKeyword? key, content with
    | none, _ => .error (.unknownKeyword key)
    | some modifier, .null => .ok modifier
    | some _, content => .error (.unexpectedContent content)
  | .object _ => .error .notOneMember
  | value => .error (.unexpectedKind value)

end MethodSignatures.Modifier
