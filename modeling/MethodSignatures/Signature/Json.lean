import MethodSignatures.Json.Writer
import MethodSignatures.Modifier.Json
import MethodSignatures.Signature.Basic

/-! # Signatures in JSON -/

namespace MethodSignatures

def Argument.toJson (argument : Argument) : Json :=
  .object [("type", .string argument.type), ("name", .string argument.name)]

/-- A signature without modifier has the member for it all the same, with the value null. -/
def Signature.toJson (signature : Signature) : Json :=
  .object
    [("accessModifier", (signature.modifier.map Modifier.toJson).getD .null),
     ("returnType", .string signature.returnType),
     ("methodName", .string signature.name),
     ("arguments", .array (signature.arguments.map Argument.toJson))]

end MethodSignatures
