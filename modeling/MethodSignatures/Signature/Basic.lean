import MethodSignatures.Argument.Basic
import MethodSignatures.Modifier.Basic

/-! # Signatures

A method signature: an optional modifier, a return type, a name and arguments in order. The fields hold
any text; `Signature.render` writes them as they are, with single spaces and a separator between arguments.
-/

namespace MethodSignatures

structure Signature where
  modifier : Option Modifier := none
  returnType : String := ""
  name : String := ""
  arguments : List Argument := []
deriving DecidableEq

namespace Signature

/-- What stands in front of the return type: nothing, or a keyword and a space. -/
def renderModifier : Option Modifier → String
  | none => ""
  | some modifier => modifier.keyword ++ " "

def renderArguments (arguments : List Argument) : String :=
  ", ".intercalate (arguments.map Argument.render)

/-- The canonical text of a signature. -/
def render (signature : Signature) : String :=
  renderModifier signature.modifier ++ signature.returnType ++ " " ++ signature.name ++
    "(" ++ renderArguments signature.arguments ++ ")"

end Signature

end MethodSignatures
