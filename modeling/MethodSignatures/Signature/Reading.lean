import MethodSignatures.Argument.List
import MethodSignatures.Signature.Basic
import MethodSignatures.Signature.Outline

/-! # Reading a signature

A reading ends at the first stage that fails: the text is blank, it has no head, its body is not
bracketed, or a piece of its argument list is no argument. `Reading` records how far it came and what was
found on the way; its result and its events are two views of that record.
-/

namespace MethodSignatures

inductive Reading where
  | blank
  | headless (fault : OutlineFault)
  | bodiless (head : Head) (fault : OutlineFault)
  | refused (head : Head) (body : Body) (fault : Argument.ListFault)
  | complete (head : Head) (body : Body) (arguments : List Argument)

namespace Reading

def ofText (text : String) : Reading :=
  if text.toList.all Text.isBlank then .blank
  else
    match Head.read text.toList with
    | .error fault => .headless fault
    | .ok head =>
      match Body.read head.rest with
      | .error fault => .bodiless head fault
      | .ok body =>
        match Argument.readList body.argumentText with
        | .error fault => .refused head body fault
        | .ok arguments => .complete head body arguments

/-- What a reading of `text` gives. Only a fault of the outline is reported with the whole text. -/
def result (text : String) : Reading → Except SignatureError Signature
  | blank => .error .empty
  | headless fault => .error (.malformed text fault)
  | bodiless _ fault => .error (.malformed text fault)
  | refused _ _ fault => .error (.badArgument fault.refusal.position fault.refusal.text)
  | complete head body arguments =>
    .ok { modifier := head.modifier, returnType := head.returnType, name := body.name, arguments }

end Reading

namespace Signature

def parse (text : String) : Except SignatureError Signature :=
  (Reading.ofText text).result text

/-- The signature with the modifier of a keyword and the given parts, which may be any texts. -/
def build (keyword : Option String) (returnType name : String) (arguments : List Argument) :
    Except SignatureError Signature :=
  (Modifier.parseOption keyword).map fun modifier => { modifier, returnType, name, arguments }

/-! ## Equal results -/

def agree : Except SignatureError Signature → Except SignatureError Signature → Bool
  | .ok left, .ok right => left = right
  | .error left, .error right => left = right
  | _, _ => false

theorem agree_iff {left right : Except SignatureError Signature} : agree left right = true ↔ left = right := by
  cases left <;> cases right <;> simp [agree]

def reparses (signature : Signature) : Bool :=
  agree (parse signature.render) (.ok signature)

theorem reparses_iff {signature : Signature} : signature.reparses = true ↔ parse signature.render = .ok signature :=
  agree_iff

end Signature

end MethodSignatures
