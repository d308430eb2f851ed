import MethodSignatures.Dump
import MethodSignatures.Error
import MethodSignatures.Signature.Basic

/-! # Dumps of signatures

How modifiers, arguments, signatures, errors and results show in a dump.
-/

namespace MethodSignatures

def Modifier.dump : Modifier → Dump
  | publ => .word "Public"
  | priv => .word "Private"
  | prot => .word "Protected"

/-- An absent value, or a present one within `Some`. -/
def Dump.ofOption : Option Dump → Dump
  | none => .word "None"
  | some value => .group "Some" .round [value]

def Argument.dump (argument : Argument) : Dump :=
  .group "Argument" .curly [.field "ty" (.quoted argument.type), .field "name" (.quoted argument.name)]

def Signature.dump (signature : Signature) : Dump :=
  .group "MethodSignature" .curly
    [.field "access_modifier" (.ofOption (signature.modifier.map Modifier.dump)),
     .field "return_type" (.quoted signature.returnType),
     .field "method_name" (.quoted signature.name),
     .field "arguments" (.group "" .square (signature.arguments.map Argument.dump))]

def ErrorValue.dump : ErrorValue → Dump
  | empty => .word "EmptyInput"
  | malformed text reason =>
    .group "MalformedSignature" .curly [.field "signature" (.quoted text), .field "reason" (.quoted reason)]
  | badArgument position text =>
    .group "MalformedArgument" .curly [.field "position" (.number position), .field "argument" (.quoted text)]
  | unknownModifier text => .group "UnknownModifier" .round [.quoted text]

/-- Either value may hold any texts, also such as no reading gives. -/
def Dump.ofOutcome : Except ErrorValue Signature → Dump
  | .ok signature => .group "Ok" .round [signature.dump]
  | .error error => .group "Err" .round [error.dump]

def Dump.ofResult (result : Except SignatureError Signature) : Dump :=
  ofOutcome (result.mapError SignatureError.value)

end MethodSignatures
