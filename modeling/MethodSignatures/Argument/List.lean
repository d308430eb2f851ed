import MethodSignatures.Argument.Basic
import MethodSignatures.Text.Pieces

/-! # Argument lists

The text between the brackets of a signature is cut into pieces, and every piece has to be an argument.
Reading stops at the first that is not and reports it with its place.
-/

namespace MethodSignatures

/-- A piece of an argument list that is no argument, and its place among the pieces. -/
structure Refusal where
  position : Nat
  text : String
deriving DecidableEq

namespace Argument

/-- Reads pieces in order up to the first that is no argument. The first piece stands at `position`. -/
def ofPieces (position : Nat) : List (List Char) → Except Refusal (List Argument)
  | [] => .ok []
  | piece :: rest =>
    match parse (.ofList piece) with
    | .error _ => .error { position, text := .ofList piece }
    | .ok argument =>
      match ofPieces (position + 1) rest with
      | .error refusal => .error refusal
      | .ok arguments => .ok (argument :: arguments)

/-- Why no argument list was read. -/
inductive ListFault where
  /-- The text could not be cut into pieces. -/
  | uncut (text : String)
  | refused (refusal : Refusal)
deriving DecidableEq

/-- How a fault is reported. A text without pieces stands in the place of the first one. -/
def ListFault.refusal : ListFault → Refusal
  | uncut text => { position := 0, text }
  | refused refusal => refusal

/-- Reads an argument list. The empty text is the list without members; in any other text each piece
has to be an argument, so that blanks alone are refused. -/
def readList (text : List Char) : Except ListFault (List Argument) :=
  if text.isEmpty then .ok []
  else
    match Text.Reader.pieces.read text with
    | .error _ => .error (.uncut (.ofList text))
    | .ok (pieces, _) => (ofPieces 0 pieces).mapError .refused

/-- An argument list with the fault as it is reported. -/
def parseList (text : List Char) : Except Refusal (List Argument) :=
  (readList text).mapError ListFault.refusal

end Argument

end MethodSignatures
