import MethodSignatures.Json.Basic
import MethodSignatures.Text.Digits
import MethodSignatures.Text.Quoted

/-! # Writing JSON

The compact text of a value: no blank outside its strings. Strings escape only what the format
requires, so all characters from U+0020 on stand as they are but for the quote and the backslash.
-/

namespace MethodSignatures

/-- The short escapes, and four lower-case hexadecimal digits for every other control. -/
def Json.quoting : Text.QuoteStyle where
  letters :=
    [('"', '"'), ('\\', '\\'), ('\x08', 'b'), ('\x0c', 'f'), ('\n', 'n'), ('\r', 'r'), ('\t', 't')]
  hidden c := c.toNat < 0x20
  code := Text.fourHexDigits

def JsonNumber.write (number : JsonNumber) : List Char :=
  (if number.negative then ['-'] else []) ++ Nat.toDigits 10 number.digits ++
    match number.exponent with
    | none => []
    | some exponent =>
      'e' :: (if exponent < 0 then ['-'] else []) ++ Nat.toDigits 10 exponent.natAbs

namespace Json

mutual
def write : Json → List Char
  | null => ['n', 'u', 'l', 'l']
  | bool true => ['t', 'r', 'u', 'e']
  | bool false => ['f', 'a', 'l', 's', 'e']
  | number value => value.write
  | string text => quoting.quote text
  | array items => '[' :: writeItems items ++ [']']
  | object members => '\x7b' :: writeMembers members ++ ['\x7d']
termination_by structural value => value

def writeItems : List Json → List Char
  | [] => []
  | [item] => item.write
  | item :: rest => item.write ++ ',' :: writeItems rest
termination_by structural items => items

def writeMembers : List (String × Json) → List Char
  | [] => []
  | [(key, value)] => quoting.quote key ++ ':' :: value.write
  | (key, value) :: rest => quoting.quote key ++ ':' :: value.write ++ ',' :: writeMembers rest
termination_by structural members => members
end

def render (value : Json) : String :=
  .ofList value.write

end Json

end MethodSignatures
