import MethodSignatures.Signature.Reading

/-! # Edits

An edit makes a signature from another one by changing one of its parts. An edit that cannot be made says
why. A run of edits stops at the first that cannot be made.
-/

namespace MethodSignatures

inductive Edit where
  /-- Takes the modifier of a keyword, or none. -/
  | setModifier (keyword : Option String)
  | setReturnType (text : String)
  | setName (text : String)
  | pushText (text : String)
  | push (argument : Argument)
  /-- Takes out the argument at a place. Where there is none, nothing changes. -/
  | remove (index : Nat)
  | reverse
  | reparse

inductive EditError where
  | signature (error : SignatureError)
  | argument (fault : Argument.Fault)
deriving DecidableEq

namespace Signature

def edit (signature : Signature) : Edit → Except EditError Signature
  | .setModifier keyword =>
    match Modifier.parseOption keyword with
    | .ok modifier => .ok { signature with modifier }
    | .error error => .error (.signature error)
  | .setReturnType text => .ok { signature with returnType := text }
  | .setName text => .ok { signature with name := text }
  | .pushText text =>
    match Argument.parse text with
    | .ok argument => .ok { signature with arguments := signature.arguments ++ [argument] }
    | .error fault => .error (.argument fault)
  | .push argument => .ok { signature with arguments := signature.arguments ++ [argument] }
  | .remove index => .ok { signature with arguments := signature.arguments.eraseIdx index }
  | .reverse => .ok { signature with arguments := signature.arguments.reverse }
  | .reparse =>
    match parse signature.render with
    | .ok signature => .ok signature
    | .error error => .error (.signature error)

def editAll (signature : Signature) (edits : List Edit) : Except EditError Signature :=
  edits.foldlM edit signature

end Signature

end MethodSignatures
