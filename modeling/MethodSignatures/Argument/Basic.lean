/-! # Arguments

One formal argument: a type and a name with a space between them. Only U+0020 divides; a tab or a
no-break space belongs to the token it stands in.
-/

namespace MethodSignatures

structure Argument where
  type : String
  name : String
deriving DecidableEq

namespace Argument

def render (argument : Argument) : String :=
  argument.type ++ " " ++ argument.name

/-- Why no argument was read, and what was left of the text where reading stopped. -/
inductive Fault where
  /-- No token stands at the front of `rest`. -/
  | emptyToken (rest : String)
  /-- A token was read, but no space stands at the front of `rest`. -/
  | missingSpace (rest : String)
  /-- An argument was read, but `rest` follows it. -/
  | leftover (rest : String)
deriving DecidableEq

def Fault.rest : Fault → String
  | emptyToken rest | missingSpace rest | leftover rest => rest

/-- The token at the front of a text, which has a character at least, and the text behind it. -/
def token (text : List Char) : Except Fault (String × List Char) :=
  let word := text.takeWhile (· ≠ ' ')
  if word.isEmpty then .error (.emptyToken (.ofList text))
  else .ok (.ofList word, text.dropWhile (· ≠ ' '))

/-- The text behind the space at the front of a text. -/
def space : List Char → Except Fault (List Char)
  | ' ' :: rest => .ok rest
  | text => .error (.missingSpace (.ofList text))

/-- The argument at the front of a text, and the text behind its name. -/
def front (text : List Char) : Except Fault (Argument × List Char) := do
  let (type, rest) ← token text
  let rest ← space rest
  let (name, rest) ← token rest
  return ({ type, name }, rest)

def parseFront (text : String) : Except Fault (Argument × String) :=
  (front text.toList).map fun (argument, rest) => (argument, .ofList rest)

/-- Reads a text that is one argument and nothing else. -/
def parse (text : String) : Except Fault Argument :=
  match parseFront text with
  | .error fault => .error fault
  | .ok (argument, rest) => if rest.isEmpty then .ok argument else .error (.leftover rest)

end Argument

end MethodSignatures
