/-! # Errors of reading a signature

Each constructor is a cause. The wording of all of them stands in `OutlineFault.reason` and
`SignatureError.message`. Apart from its cause, an error is a value with a reason in words (`SignatureError.value`).
-/

namespace MethodSignatures

/-- What keeps a text from being divided into return type, method name and argument list. -/
inductive OutlineFault where
  /-- The text begins with a blank or holds none. -/
  | noBlankAfterFirstToken
  /-- No second head token stands behind a modifier. -/
  | noBlankAfterReturnType
  | missingOpening
  /-- Nothing but blanks stands before the opening bracket. -/
  | missingName
  | missingClosing
deriving DecidableEq

def OutlineFault.reason : OutlineFault → String
  | noBlankAfterFirstToken => "no whitespace after the first token"
  | noBlankAfterReturnType => "no whitespace after the return type"
  | missingOpening => "missing `(`"
  | missingName => "missing method name"
  | missingClosing => "missing `)` after `(`"

/-- No reason is the end of another one, so that a reason can be told from what stands before it. -/
theorem OutlineFault.eq_of_reason_suffix {fault other : OutlineFault}
    (isSuffix : fault.reason.toList <:+ other.reason.toList) : fault = other := by
  revert isSuffix
  cases fault <;> cases other <;> decide

/-- Why no signature, or no modifier, was read. An error keeps the text that it is about. -/
inductive SignatureError where
  /-- The text holds nothing but blanks. -/
  | empty
  /-- The whole text, which has no outline. -/
  | malformed (text : String) (fault : OutlineFault)
  /-- The first piece of the argument list that is no argument, counted from zero. -/
  | badArgument (position : Nat) (text : String)
  | unknownModifier (text : String)
deriving DecidableEq

/-- An error with every field open. Anyone may put one together, and then any text stands for its reason. -/
inductive ErrorValue where
  | empty
  | malformed (text reason : String)
  | badArgument (position : Nat) (text : String)
  | unknownModifier (text : String)
deriving DecidableEq

def SignatureError.value : SignatureError → ErrorValue
  | empty => .empty
  | malformed text fault => .malformed text fault.reason
  | badArgument position text => .badArgument position text
  | unknownModifier text => .unknownModifier text

def SignatureError.message : SignatureError → String
  | empty => "signature is empty"
  | malformed text fault => "malformed signature `" ++ text ++ "`: " ++ fault.reason
  | badArgument position text =>
    "malformed argument #" ++ toString position ++ " `" ++ text ++ "`: expected `<type> <name>`"
  | unknownModifier text => "unknown access modifier `" ++ text ++ "`"

end MethodSignatures
