import MethodSignatures.Text.Quoted

/-! # Dumps

A dump shows how a value is built: words, numbers, quoted texts and bracketed groups of them. It is
written on one line (`Dump.compactIn`) or with each member of a group on a line of its own (`Dump.indentedIn`).
Both layouts quote texts in any style.
-/

namespace MethodSignatures

inductive Brackets where
  | round
  | square
  | curly
deriving DecidableEq

inductive Dump where
  | word (text : String)
  | number (value : Nat)
  | quoted (content : String)
  /-- A value with a label in front, such as stands in a group for a structure. -/
  | field (label : String) (value : Dump)
  | group (name : String) (brackets : Brackets) (members : List Dump)

namespace Brackets

/-- The opening bracket. A curly one stands apart from the name before it. -/
def opening : Brackets → List Char
  | round => ['(']
  | square => ['[']
  | curly => [' ', '\x7b']

def closing : Brackets → Char
  | round => ')'
  | square => ']'
  | curly => '\x7d'

/-- What parts the members from their brackets on one line. -/
def padding : Brackets → List Char
  | round => []
  | square => []
  | curly => [' ']

end Brackets

namespace Dump

/-! ## One line -/

mutual
def compactIn (style : Text.QuoteStyle) : Dump → List Char
  | word text => text.toList
  | number value => Nat.toDigits 10 value
  | quoted content => style.quote content
  | field label value => label.toList ++ ':' :: ' ' :: value.compactIn style
  | group name brackets members =>
    name.toList ++ brackets.opening ++ brackets.padding ++ compactMembers style members ++ brackets.padding ++
      [brackets.closing]

def compactMembers (style : Text.QuoteStyle) : List Dump → List Char
  | [] => []
  | [member] => member.compactIn style
  | member :: rest => member.compactIn style ++ ',' :: ' ' :: compactMembers style rest
end

/-! ## One line a member -/

def margin (depth : Nat) : List Char :=
  List.replicate (4 * depth) ' '

mutual
/-- A dump whose last line stands at `depth`. A group without members stays on its line. -/
def indentedIn (style : Text.QuoteStyle) (depth : Nat) : Dump → List Char
  | word text => text.toList
  | number value => Nat.toDigits 10 value
  | quoted content => style.quote content
  | field label value => label.toList ++ ':' :: ' ' :: value.indentedIn style depth
  | group name brackets [] => name.toList ++ brackets.opening ++ [brackets.closing]
  | group name brackets (member :: rest) =>
    name.toList ++ brackets.opening ++ '\n' :: indentedMembers style (depth + 1) (member :: rest) ++
      margin depth ++ [brackets.closing]

/-- Every member on lines of its own, with a comma behind it. -/
def indentedMembers (style : Text.QuoteStyle) (depth : Nat) : List Dump → List Char
  | [] => []
  | member :: rest =>
    margin depth ++ member.indentedIn style depth ++ ',' :: '\n' :: indentedMembers style depth rest
end

end Dump

end MethodSignatures
